import Mgd.Lib.Retention

/-!
# The session logs

Every daemon run logs to a file of its own in `~/memlogs`, named by the local time it
started at.  `Logger::new` removes the oldest before the new one is there, and takes
the order of the names for the order of the runs.

`logs_window` says which files are left after any number of runs, as long as the local
time of a run is after that of the run before and every removal succeeds.  The hour
that is repeated in autumn is not.
-/

namespace Mgd.LogRotation

open Mgd.Lib.Greedy Mgd.Lib.Retention

/-! ## The names -/

/-- The fields of `localtime_r`, the year and the month as they are printed. -/
structure Tm where
  year : Nat
  mon : Nat
  mday : Nat
  hour : Nat
  min : Nat
  sec : Nat
  twoDigits : mon < 100 ∧ mday < 100 ∧ hour < 100 ∧ min < 100 ∧ sec < 100

/-- The fields in the order of their weight. -/
def Tm.reading (tm : Tm) : Nat :=
  ((((tm.year * 100 + tm.mon) * 100 + tm.mday) * 100 + tm.hour) * 100 + tm.min) * 100 + tm.sec

abbrev FileName := List Char

/-- `YYYY-MM-DD_HH-MM-SS` -/
def localDatetimeCompact (tm : Tm) : List Char :=
  padded 4 tm.year ++ '-' :: (padded 2 tm.mon ++ '-' :: (padded 2 tm.mday ++ '_' ::
    (padded 2 tm.hour ++ '-' :: (padded 2 tm.min ++ '-' :: padded 2 tm.sec))))

def logName (tm : Tm) : FileName := "mgd_".toList ++ (localDatetimeCompact tm ++ ".log".toList)

def isLog (name : FileName) : Bool :=
  "mgd_".toList.isPrefixOf name && ".log".toList.isSuffixOf name

/-! ## The directory -/

/-- `rotate_logs`.  Every `remove_file` succeeds; the source ignores one that
fails, and the log stays. -/
def rotateLogs (dir : List FileName) (keep : Nat) : List FileName :=
  dir.filter fun name => decide (name ∉ expired keep (dir.filter isLog))

/-- `Logger::new`; 0 keeps all. -/
def newLogger (dir : List FileName) (logKeep : Nat) : List FileName :=
  if logKeep > 0 then rotateLogs dir (logKeep - 1) else dir

/-- `write_line` creates the file. -/
def writeLine (dir : List FileName) (name : FileName) : List FileName :=
  if name ∈ dir then dir else dir ++ [name]

structure Session where
  tm : Tm
  /-- It logs something. -/
  writes : Bool

/-- The directory after a run of the daemon. -/
def session (logKeep : Nat) (dir : List FileName) (s : Session) : List FileName :=
  let dir := newLogger dir logKeep
  if s.writes then writeLine dir (logName s.tm) else dir

/-- The logs, oldest name first. -/
def logs (dir : List FileName) : List FileName := ascending (dir.filter isLog)

def others (dir : List FileName) : List FileName := dir.filter fun name => !isLog name

/-- The log of a session, if it has one. -/
def logOf (s : Session) : List FileName := if s.writes then [logName s.tm] else []

/-- What is left of a history of logs after a session. -/
def window (logKeep : Nat) (s : Session) (history : List FileName) : List FileName :=
  if logKeep = 0 then history else history.rtake (if s.writes then logKeep else logKeep - 1)

/-! ## The order of the names -/

theorem localDatetimeCompact_lt_iff {a b : Tm} (ha : a.year < 10000) (hb : b.year < 10000) :
    localDatetimeCompact a < localDatetimeCompact b ↔ a.reading < b.reading := by
  obtain ⟨hMonA, hDayA, hHourA, hMinA, hSecA⟩ := a.twoDigits
  obtain ⟨hMonB, hDayB, hHourB, hMinB, hSecB⟩ := b.twoDigits
  unfold localDatetimeCompact Tm.reading
  rw [padded_append_lt_iff ha hb, padded_append_lt_iff hMonA hMonB, padded_append_lt_iff hDayA hDayB,
    padded_append_lt_iff hHourA hHourB, padded_append_lt_iff hMinA hMinB, padded_lt_iff hSecA hSecB]
  omega

theorem length_localDatetimeCompact {tm : Tm} (h : tm.year < 10000) :
    (localDatetimeCompact tm).length = 19 := by
  obtain ⟨hMon, hDay, hHour, hMin, hSec⟩ := tm.twoDigits
  have hPadded : ∀ {n : Nat}, n < 100 → (padded 2 n).length = 2 := fun hn => length_padded hn
  have hYear : (padded 4 tm.year).length = 4 := length_padded h
  unfold localDatetimeCompact
  simp [hYear, hPadded hMon, hPadded hDay, hPadded hHour, hPadded hMin, hPadded hSec]

/-- The names are in the order of the readings. -/
theorem logName_lt_iff {a b : Tm} (ha : a.year < 10000) (hb : b.year < 10000) :
    logName a < logName b ↔ a.reading < b.reading := by
  have hLength : (localDatetimeCompact a).length = (localDatetimeCompact b).length := by
    rw [length_localDatetimeCompact ha, length_localDatetimeCompact hb]
  unfold logName
  rw [append_lt_append_iff rfl, append_lt_append_iff hLength, localDatetimeCompact_lt_iff ha hb]
  simp

theorem isLog_logName (tm : Tm) : isLog (logName tm) = true := by
  unfold isLog
  rw [Bool.and_eq_true, List.isPrefixOf_iff_prefix, List.isSuffixOf_iff_suffix]
  constructor
  · exact List.prefix_append _ _
  · unfold logName
    rw [← List.append_assoc]
    exact List.suffix_append _ _

/-! ## One session -/

/-- The logs are the end of a history. -/
structure Kept (logKeep : Nat) (history dir : List FileName) : Prop where
  nodup : dir.Nodup
  ends : ∃ m, logs dir = history.rtake m ∧ (history.length ≤ m ∨ 0 < logKeep ∧ logKeep - 1 ≤ m)

variable {logKeep : Nat} {history dir : List FileName}

theorem Kept.mem_history (h : Kept logKeep history dir) {name : FileName} (hName : name ∈ dir)
    (hLog : isLog name = true) : name ∈ history := by
  obtain ⟨m, hLogs, -⟩ := h.ends
  have hMem : name ∈ logs dir := mem_ascending.mpr (List.mem_filter.mpr ⟨hName, hLog⟩)
  rw [hLogs] at hMem
  exact (List.drop_sublist _ _).mem hMem

theorem logs_rotateLogs (hDir : dir.Nodup) (keep : Nat) :
    logs (rotateLogs dir keep) = (logs dir).rtake keep := by
  unfold logs rotateLogs
  rw [List.filter_comm]
  exact ascending_filter_expired (hDir.filter _) fun name => decide_eq_true_iff

theorem others_rotateLogs (keep : Nat) : others (rotateLogs dir keep) = others dir := by
  unfold others rotateLogs
  rw [List.filter_filter]
  refine List.filter_congr fun name _ => ?_
  cases hLog : isLog name with
  | true => rfl
  | false =>
      have hKept : name ∉ expired keep (dir.filter isLog) := by
        intro hGone
        have hMem := mem_sortDesc.mp ((List.drop_sublist _ _).mem hGone)
        exact absurd (hLog.symm.trans (List.mem_filter.mp hMem).2) (by decide)
      simpa using hKept

/-- The logs after `Logger::new`. -/
theorem Kept.logs_newLogger (h : Kept logKeep history dir) :
    LogRotation.logs (newLogger dir logKeep) =
      if logKeep = 0 then history else history.rtake (logKeep - 1) := by
  obtain ⟨m, hLogs, hEnough⟩ := h.ends
  unfold newLogger
  by_cases hAll : logKeep = 0
  · rw [if_neg (by omega), if_pos hAll, hLogs]
    exact rtake_of_length_le (by omega)
  · rw [if_pos (by omega), if_neg hAll, logs_rotateLogs h.nodup, hLogs, rtake_rtake]
    rcases hEnough with hWhole | hKeep
    · by_cases hFew : m ≤ logKeep - 1
      · rw [Nat.min_eq_left hFew, rtake_of_length_le hWhole, rtake_of_length_le (by omega)]
      · rw [Nat.min_eq_right (by omega)]
    · rw [Nat.min_eq_right hKeep.2]

theorem nodup_newLogger (h : dir.Nodup) : (newLogger dir logKeep).Nodup := by
  unfold newLogger
  split
  · exact h.filter _
  · exact h

theorem others_newLogger : others (newLogger dir logKeep) = others dir := by
  unfold newLogger
  split
  · exact others_rotateLogs _
  · rfl

theorem mem_of_mem_newLogger {name : FileName} (h : name ∈ newLogger dir logKeep) : name ∈ dir := by
  unfold newLogger at h
  split at h
  · exact (List.mem_filter.mp h).1
  · exact h

/-- A log newer than all there were becomes the last. -/
theorem logs_writeLine {tm : Tm} (hDir : dir.Nodup)
    (hNewest : ∀ name ∈ dir, isLog name = true → name < logName tm) :
    logs (writeLine dir (logName tm)) = logs dir ++ [logName tm] := by
  have hFresh : logName tm ∉ dir := fun hMem =>
    lt_irrefl _ (hNewest _ hMem (isLog_logName tm))
  unfold writeLine logs
  rw [if_neg hFresh, List.filter_append, List.filter_cons_of_pos (isLog_logName tm), List.filter_nil]
  refine ascending_concat (hDir.filter _) fun name hName => ?_
  obtain ⟨hMem, hLog⟩ := List.mem_filter.mp hName
  exact hNewest name hMem hLog

theorem others_writeLine (tm : Tm) : others (writeLine dir (logName tm)) = others dir := by
  unfold writeLine others
  split
  · rfl
  · rw [List.filter_append, List.filter_cons_of_neg (by simp [isLog_logName]), List.filter_nil,
      List.append_nil]

/-- What a session leaves. -/
theorem Kept.session (h : Kept logKeep history dir) {s : Session}
    (hNewest : ∀ name ∈ history, name < logName s.tm) :
    LogRotation.logs (session logKeep dir s) = window logKeep s (history ++ logOf s) ∧
      others (LogRotation.session logKeep dir s) = others dir ∧
        (LogRotation.session logKeep dir s).Nodup := by
  have hNew := h.logs_newLogger
  have hNodup : (newLogger dir logKeep).Nodup := nodup_newLogger h.nodup
  unfold LogRotation.session window logOf
  cases s.writes with
  | false =>
      simp only [Bool.false_eq_true, if_false, List.append_nil]
      exact ⟨hNew, others_newLogger, hNodup⟩
  | true =>
      have hLater : ∀ name ∈ newLogger dir logKeep, isLog name = true → name < logName s.tm :=
        fun name hName hLog => hNewest name (h.mem_history (mem_of_mem_newLogger hName) hLog)
      have hFresh : logName s.tm ∉ newLogger dir logKeep := fun hMem =>
        lt_irrefl _ (hLater _ hMem (isLog_logName s.tm))
      dsimp only
      rw [if_pos rfl, if_pos rfl, if_pos rfl]
      refine ⟨?_, ?_, ?_⟩
      · rw [logs_writeLine hNodup hLater, hNew]
        by_cases hAll : logKeep = 0
        · rw [if_pos hAll, if_pos hAll]
        · obtain ⟨keep, rfl⟩ := Nat.exists_eq_succ_of_ne_zero hAll
          rw [if_neg hAll, if_neg hAll]
          exact (List.rtake_concat_succ _ _ _).symm
      · rw [others_writeLine, others_newLogger]
      · unfold writeLine
        rw [if_neg hFresh]
        exact List.nodup_append.mpr
          ⟨hNodup, List.nodup_singleton _, fun a ha b hb hab =>
            hFresh (List.mem_singleton.mp hb ▸ hab ▸ ha)⟩

/-! ## Any number of sessions -/

/-- The local time of every session is after that of the sessions before it. -/
def ClockAdvances (sessions : List Session) : Prop :=
  sessions.Pairwise fun a b => a.tm.reading < b.tm.reading

instance (sessions : List Session) : Decidable (ClockAdvances sessions) :=
  inferInstanceAs (Decidable (sessions.Pairwise _))

theorem Kept.after (h : Kept logKeep history dir) {s : Session}
    (hNewest : ∀ name ∈ history, name < logName s.tm) :
    Kept logKeep (history ++ logOf s) (LogRotation.session logKeep dir s) := by
  obtain ⟨hLogs, -, hNodup⟩ := h.session hNewest
  refine { nodup := hNodup, ends := ?_ }
  rw [hLogs]
  unfold window
  by_cases hAll : logKeep = 0
  · rw [if_pos hAll]
    exact ⟨_, (rtake_of_length_le (Nat.le_refl _)).symm, Or.inl (Nat.le_refl _)⟩
  · rw [if_neg hAll]
    refine ⟨_, rfl, Or.inr ⟨Nat.pos_of_ne_zero hAll, ?_⟩⟩
    split <;> omega

/-- A session later than all before it, when the years have four digits. -/
theorem logOf_lt {s later : Session} (hYear : s.tm.year < 10000) (hLater : later.tm.year < 10000)
    (hClock : s.tm.reading < later.tm.reading) : ∀ name ∈ logOf s, name < logName later.tm := by
  intro name hName
  unfold logOf at hName
  split at hName
  · rw [List.mem_singleton.mp hName]
    exact (logName_lt_iff hYear hLater).mpr hClock
  · cases hName

theorem Kept.run (h : Kept logKeep history dir) {sessions : List Session}
    (hYears : ∀ s ∈ sessions, s.tm.year < 10000) (hClock : ClockAdvances sessions)
    (hOlder : ∀ name ∈ history, ∀ s ∈ sessions, name < logName s.tm) :
    Kept logKeep (history ++ sessions.flatMap logOf)
        (sessions.foldl (LogRotation.session logKeep) dir) ∧
      others (sessions.foldl (LogRotation.session logKeep) dir) = others dir := by
  induction sessions generalizing history dir with
  | nil =>
      rw [List.flatMap_nil, List.append_nil]
      exact ⟨h, rfl⟩
  | cons s rest ih =>
      have hFirst : ∀ name ∈ history, name < logName s.tm :=
        fun name hName => hOlder name hName s List.mem_cons_self
      obtain ⟨hLater, hRest⟩ := List.pairwise_cons.mp hClock
      have hNext : ∀ name ∈ history ++ logOf s, ∀ later ∈ rest, name < logName later.tm := by
        intro name hName later hMem
        cases List.mem_append.mp hName with
        | inl hOld => exact hOlder name hOld later (List.mem_cons_of_mem s hMem)
        | inr hNew =>
            exact logOf_lt (hYears s List.mem_cons_self) (hYears later (List.mem_cons_of_mem s hMem))
              (hLater later hMem) name hNew
      obtain ⟨hKept, hOthers⟩ := ih (h.after hFirst)
        (fun later hMem => hYears later (List.mem_cons_of_mem s hMem)) hRest hNext
      rw [List.flatMap_cons, ← List.append_assoc, List.foldl_cons]
      exact ⟨hKept, hOthers.trans (h.session hFirst).2.1⟩

/-- **The logs are a window over the history.**  After any number of sessions, each at a
later local time than the one before, the directory has the newest `logKeep` logs, one
less when the last session logged nothing, and all of them for 0; no other file is
touched. -/
theorem logs_window (logKeep : Nat) (dir : List FileName) (sessions : List Session) (last : Session)
    (hDir : dir.Nodup) (hYears : ∀ s ∈ sessions ++ [last], s.tm.year < 10000)
    (hClock : ClockAdvances (sessions ++ [last]))
    (hOlder : ∀ name ∈ dir, isLog name = true → ∀ s ∈ sessions ++ [last], name < logName s.tm) :
    logs ((sessions ++ [last]).foldl (session logKeep) dir) =
        window logKeep last (logs dir ++ (sessions ++ [last]).flatMap logOf) ∧
      others ((sessions ++ [last]).foldl (session logKeep) dir) = others dir := by
  have hStart : Kept logKeep (logs dir) dir :=
    { nodup := hDir
      ends := ⟨_, (rtake_of_length_le (Nat.le_refl _)).symm, Or.inl (Nat.le_refl _)⟩ }
  have hOld : ∀ name ∈ logs dir, ∀ s ∈ sessions ++ [last], name < logName s.tm := by
    intro name hName
    obtain ⟨hMem, hLog⟩ := List.mem_filter.mp (mem_ascending.mp hName)
    exact hOlder name hMem hLog
  obtain ⟨hBefore, -, hLast⟩ := List.pairwise_append.mp hClock
  obtain ⟨hKept, hOthers⟩ := hStart.run
    (fun s hs => hYears s (List.mem_append_left _ hs)) hBefore
    (fun name hName s hs => hOld name hName s (List.mem_append_left _ hs))
  have hNewest : ∀ name ∈ logs dir ++ sessions.flatMap logOf, name < logName last.tm := by
    intro name hName
    cases List.mem_append.mp hName with
    | inl hOldLog => exact hOld name hOldLog last (by simp)
    | inr hLog =>
        obtain ⟨s, hs, hOf⟩ := List.mem_flatMap.mp hLog
        exact logOf_lt (hYears s (List.mem_append_left _ hs)) (hYears last (by simp))
          (hLast s hs last (by simp)) name hOf
  obtain ⟨hLogs, hSame, -⟩ := hKept.session hNewest
  rw [List.foldl_append, List.flatMap_append, ← List.append_assoc]
  refine ⟨?_, hSame.trans hOthers⟩
  rw [List.foldl_cons, List.foldl_nil, hLogs, List.flatMap_singleton]

/-- The start of a session at a minute of the day the clocks go back. -/
def autumn (hour min : Nat) (h : hour < 100 ∧ min < 100) : Session where
  tm :=
    { year := 2026
      mon := 10
      mday := 25
      hour := hour
      min := min
      sec := 0
      twoDigits := ⟨by decide, by decide, h.1, h.2, by decide⟩ }
  writes := true

/-- Three sessions of one morning, two logs kept. -/
theorem logs_window_autumn :
    logs ([autumn 1 10 (by decide), autumn 1 50 (by decide), autumn 3 0 (by decide)].foldl
        (session 2) ["notes".toList]) =
      ["mgd_2026-10-25_01-50-00.log".toList, "mgd_2026-10-25_03-00-00.log".toList] := by
  have hWindow := logs_window 2 ["notes".toList] [autumn 1 10 (by decide), autumn 1 50 (by decide)]
    (autumn 3 0 (by decide)) (by decide) (by decide) (by decide) (by decide)
  rw [List.cons_append, List.cons_append, List.nil_append] at hWindow
  rw [hWindow.1]
  decide +kernel

/-- In the hour that is repeated, the newer of two logs goes. -/
example : logs ([autumn 2 50 (by decide), autumn 2 10 (by decide), autumn 3 0 (by decide)].foldl
      (session 2) []) =
    ["mgd_2026-10-25_02-50-00.log".toList, "mgd_2026-10-25_03-00-00.log".toList] := by
  decide +kernel

end Mgd.LogRotation
