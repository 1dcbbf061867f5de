import Mgd.Executor.UnfreezeOutcome
import Mgd.Lib.Text
import Mathlib.Data.List.Infix

/-!
# `mgctl unfreeze`

`cmd_unfreeze` takes a PID or a part of a name, and looks in two ledgers.  The
processes of the frozen registry it resumes by itself.  Spike victims belong to
the evictor, so their PIDs are queued for it; that part is only reached when
nothing in the registry matched.

`cmdUnfreeze_reaches_iff` says when every match in both ledgers is served.
-/

namespace Mgd.UnfreezeCommand

open Mgd.Types Mgd.Lib.AssocMap Mgd.Lib.Accesses Mgd.Lib.Text
open Mgd.Executor.Signals Mgd.Executor.UnfreezeOutcome
open Mgd.Executor.Registry hiding sendSignal freezeChecked unfreezeChecked

/-! ## The command -/

/-- What the spike tracker shows of its victims: the PID, the name, and the
spike it was frozen for. -/
structure SpikeSnapshot where
  victims : List (Pid × String × Pid)

structure Ledgers where
  frozen : FrozenRegistry
  spikeSnapshot : SpikeSnapshot
  spikeReleaseRequests : List Pid

/-- `Pid::from_str` -/
def parsePid (arg : String) : Option Pid :=
  (parseUnsigned (2 ^ 32 - 1) arg.toList).map fun n => ⟨UInt32.ofNat n⟩

/-- `str::contains` -/
def contains (text part : String) : Bool := decide (part.toList <:+: text.toList)

def displayPid (pid : Pid) : String := toString pid.val.toNat

/-- What became of one process of the registry. -/
inductive Line
  | unfroze (pid : Pid)
  | failed (pid : Pid) (error : Option String)
deriving DecidableEq

def Line.text : Line → String
  | .unfroze pid => "✓ unfroze pid=" ++ displayPid pid
  | .failed pid error => "✗ pid=" ++ displayPid pid ++ ": " ++ error.getD ""

inductive Reply
  | results (lines : List Line)
  | noMatch (arg : String)
  | queued (pids : List Pid)

def Reply.text : Reply → String
  | .results lines => "OK " ++ "\n".intercalate (lines.map Line.text)
  | .noMatch arg => "ERR no frozen process matching '" ++ arg ++ "'"
  | .queued pids =>
      "OK queued spike-victim release for " ++
        ", ".intercalate (pids.map fun pid => "pid=" ++ displayPid pid) ++ " (applies within ~5s)"

section Command

-- `str::to_lowercase`
variable (toLowercase : String → String)

def isMatch (arg : String) (pid : Pid) (name : String) : Bool :=
  match parsePid arg with
  | some target => decide (pid = target)
  | none => contains (toLowercase name) (toLowercase arg)

def pidsToUnfreeze (l : Ledgers) (arg : String) : List (Pid × Nat) :=
  (l.frozen.frozenPids.filter fun pid => isMatch toLowercase arg pid (l.frozen.name pid)).map
    fun pid => (pid, l.frozen.startTime pid)

def spikeMatches (l : Ledgers) (arg : String) : List Pid :=
  (l.spikeSnapshot.victims.filter fun v => isMatch toLowercase arg v.1 v.2.1).map Prod.fst

/-- The registry and the lines so far. -/
structure Progress where
  frozen : FrozenRegistry
  lines : List Line

def record (acc : Progress) (pid : Pid) (r : OpResult) : Progress :=
  if r.success then ⟨acc.frozen.remove pid, acc.lines ++ [.unfroze pid]⟩
  else ⟨acc.frozen, acc.lines ++ [.failed pid r.error]⟩

def unfreezeAll : List (Pid × Nat) → Progress → Syscalls Progress
  | [], acc => .ret acc
  | (pid, startTime) :: rest, acc =>
      (unfreezeChecked pid startTime).bind fun r => unfreezeAll rest (record acc pid r)

def cmdUnfreeze (l : Ledgers) (arg : String) : Syscalls (Ledgers × Reply) :=
  if pidsToUnfreeze toLowercase l arg ≠ [] then
    (unfreezeAll (pidsToUnfreeze toLowercase l arg) ⟨l.frozen, []⟩).bind fun done =>
      .ret ({ l with frozen := done.frozen }, .results done.lines)
  else if spikeMatches toLowercase l arg = [] then .ret (l, .noMatch arg)
  else
    .ret ({ l with
      spikeReleaseRequests := l.spikeReleaseRequests ++ spikeMatches toLowercase l arg },
      .queued (spikeMatches toLowercase l arg))

end Command

/-! ## The calls of the loop -/

/-- A call of `unfreeze_checked` and the access it starts with. -/
structure Call where
  time : Nat
  pid : Pid
  startTime : Nat

section Calls

variable (h : Host)

def Call.result (c : Call) : OpResult :=
  (unfreezeChecked c.pid c.startTime).result h.timeline.answer c.time

def Call.line (c : Call) : Line :=
  if (c.result h).success then .unfroze c.pid else .failed c.pid (c.result h).error

def calls : List (Pid × Nat) → Nat → List Call
  | [], _ => []
  | (pid, startTime) :: rest, t =>
      ⟨t, pid, startTime⟩ ::
        calls rest ((unfreezeChecked pid startTime).finish h.timeline.answer t)

end Calls

section CallLemmas

variable {h : Host} {targets : List (Pid × Nat)} {t : Nat} {acc : Progress}

theorem calls_map (targets : List (Pid × Nat)) (t : Nat) :
    (calls h targets t).map (fun c => (c.pid, c.startTime)) = targets := by
  induction targets generalizing t with
  | nil => rfl
  | cons e rest ih => exact congrArg (e :: ·) (ih _)

/-- Each call adds its line. -/
theorem lines_unfreezeAll :
    ((unfreezeAll targets acc).result h.timeline.answer t).lines =
      acc.lines ++ (calls h targets t).map (Call.line h) := by
  induction targets generalizing t acc with
  | nil => exact (List.append_nil _).symm
  | cons e rest ih =>
      obtain ⟨pid, startTime⟩ := e
      unfold unfreezeAll calls
      rw [Program.result_bind, ih, List.map_cons]
      unfold record Call.line Call.result
      dsimp only
      split <;> simp

/-- A successful call removes its entry. -/
theorem isFrozen_record (acc : Progress) (first pid : Pid) (r : OpResult) :
    (record acc first r).frozen.isFrozen pid = true ↔
      acc.frozen.isFrozen pid = true ∧ (first = pid → ¬ r.success = true) := by
  unfold record
  split
  · next hSuccess =>
      unfold FrozenRegistry.isFrozen
      rw [FrozenRegistry.lookup_remove]
      by_cases hSame : pid = first
      · simp [hSame, hSuccess]
      · simp [hSame, Ne.symm hSame]
  · next hFailed => exact (and_iff_left fun _ => hFailed).symm

theorem isFrozen_unfreezeAll (pid : Pid) :
    ((unfreezeAll targets acc).result h.timeline.answer t).frozen.isFrozen pid = true ↔
      acc.frozen.isFrozen pid = true ∧
        ∀ c ∈ calls h targets t, c.pid = pid → ¬ (c.result h).success = true := by
  induction targets generalizing t acc with
  | nil => simp [unfreezeAll, calls]
  | cons e rest ih =>
      obtain ⟨first, startTime⟩ := e
      unfold unfreezeAll calls
      rw [Program.result_bind, ih, isFrozen_record, and_assoc, List.forall_mem_cons]
      rfl

/-- The signals of the loop are those of its calls. -/
theorem deliveries_unfreezeAll :
    h.timeline.deliveries t (unfreezeAll targets acc) =
      (calls h targets t).flatMap fun c =>
        h.timeline.deliveries c.time (unfreezeChecked c.pid c.startTime) := by
  induction targets generalizing t acc with
  | nil => rfl
  | cons e rest ih =>
      obtain ⟨pid, startTime⟩ := e
      unfold unfreezeAll calls
      rw [deliveries_bind, ih, List.flatMap_cons]

theorem le_finish {α : Type} (p : Syscalls α) : t ≤ p.finish h.timeline.answer t :=
  Nat.le_add_right _ _

/-- No call outlasts the loop. -/
theorem finish_le_unfreezeAll {c : Call} (hc : c ∈ calls h targets t) :
    (unfreezeChecked c.pid c.startTime).finish h.timeline.answer c.time ≤
      (unfreezeAll targets acc).finish h.timeline.answer t := by
  induction targets generalizing t acc with
  | nil => cases hc
  | cons e rest ih =>
      obtain ⟨pid, startTime⟩ := e
      unfold unfreezeAll
      rw [Program.finish_bind]
      cases List.mem_cons.mp hc with
      | inl hFirst =>
          rw [hFirst]
          exact le_finish _
      | inr hRest => exact ih hRest

end CallLemmas

/-! ## What the command reaches -/

/-- The reply names the process as failed. -/
def Reply.reportsFailure (r : Reply) (pid : Pid) : Prop :=
  ∃ lines error, r = .results lines ∧ .failed pid error ∈ lines

section Reaching

variable (toLowercase : String → String) (h : History) (t : Nat) (l : Ledgers) (arg : String)

def after : Ledgers := ((cmdUnfreeze toLowercase l arg).result h.timeline.answer t).1

def reply : Reply := ((cmdUnfreeze toLowercase l arg).result h.timeline.answer t).2

/-- The command is over. -/
def finish : Nat := (cmdUnfreeze toLowercase l arg).finish h.timeline.answer t

/-- Every match is served: a process of the registry has got SIGCONT or is gone,
and is removed, or is reported as failed; a spike victim is queued. -/
structure Reaches : Prop where
  entries : ∀ pid e, l.frozen.frozen.lookup pid = some e →
    isMatch toLowercase arg pid e.name = true →
      ((h.reached t (cmdUnfreeze toLowercase l arg) .cont pid e.startTime ∨
          ¬ h.present (finish toLowercase h t l arg) pid e.startTime) ∧
        (after toLowercase h t l arg).frozen.isFrozen pid = false) ∨
      (reply toLowercase h t l arg).reportsFailure pid
  victims : ∀ v ∈ l.spikeSnapshot.victims, isMatch toLowercase arg v.1 v.2.1 = true →
    v.1 ∈ (after toLowercase h t l arg).spikeReleaseRequests

/-- Each matching process of the registry is read with its start time, or is
not there when the command is over. -/
def SeenOrGone : Prop :=
  ∀ c ∈ calls h.toHost (pidsToUnfreeze toLowercase l arg) t,
    (h.timeline.kernel c.time).readStartTime c.pid = some c.startTime ∨
      ¬ h.present (finish toLowercase h t l arg) c.pid c.startTime

/-- The registry holds no match, or every matching victim is queued already. -/
def OneLedger : Prop :=
  pidsToUnfreeze toLowercase l arg = [] ∨
    ∀ pid ∈ spikeMatches toLowercase l arg, pid ∈ l.spikeReleaseRequests

end Reaching

section ReachingLemmas

variable {toLowercase : String → String} {h : History} {t : Nat} {l : Ledgers} {arg : String}

theorem mem_pidsToUnfreeze {pid : Pid} {st : Nat} :
    (pid, st) ∈ pidsToUnfreeze toLowercase l arg ↔
      ∃ e, l.frozen.frozen.lookup pid = some e ∧ isMatch toLowercase arg pid e.name = true ∧
        e.startTime = st := by
  unfold pidsToUnfreeze
  simp only [List.mem_map, List.mem_filter, Prod.mk.injEq]
  constructor
  · intro hMem
    obtain ⟨p, ⟨hFrozen, hMatch⟩, rfl, hStart⟩ := hMem
    obtain ⟨e, hEntry⟩ := (l.frozen.isFrozen_iff p).mp ((l.frozen.mem_frozenPids_iff p).mp hFrozen)
    refine ⟨e, hEntry, ?_, ?_⟩
    · unfold FrozenRegistry.name at hMatch
      rwa [hEntry] at hMatch
    · rw [← hStart, FrozenRegistry.startTime_of_lookup hEntry]
  · intro hEntry
    obtain ⟨e, hLookup, hMatch, hStart⟩ := hEntry
    have hFrozen := (l.frozen.mem_frozenPids_iff pid).mpr ((l.frozen.isFrozen_iff pid).mpr
      ⟨e, hLookup⟩)
    refine ⟨pid, ⟨hFrozen, ?_⟩, rfl, ?_⟩
    · unfold FrozenRegistry.name
      rwa [hLookup]
    · rw [FrozenRegistry.startTime_of_lookup hLookup, hStart]

theorem mem_spikeMatches {pid : Pid} :
    pid ∈ spikeMatches toLowercase l arg ↔
      ∃ v ∈ l.spikeSnapshot.victims, isMatch toLowercase arg v.1 v.2.1 = true ∧ v.1 = pid := by
  unfold spikeMatches
  simp only [List.mem_map, List.mem_filter, and_assoc]

/-- One call for each match. -/
theorem exists_call {targets : List (Pid × Nat)} {pid : Pid} {st : Nat} :
    (pid, st) ∈ targets ↔ ∃ c ∈ calls h.toHost targets t, c.pid = pid ∧ c.startTime = st := by
  conv_lhs => rw [← calls_map (h := h.toHost) targets t]
  simp only [List.mem_map, Prod.mk.injEq]

theorem call_unique {c c' : Call}
    (hc : c ∈ calls h.toHost (pidsToUnfreeze toLowercase l arg) t)
    (hc' : c' ∈ calls h.toHost (pidsToUnfreeze toLowercase l arg) t) (hPid : c.pid = c'.pid) :
    c = c' := by
  have hPids : (calls h.toHost (pidsToUnfreeze toLowercase l arg) t).map Call.pid =
      (pidsToUnfreeze toLowercase l arg).map Prod.fst := by
    conv_rhs => rw [← calls_map (h := h.toHost) (pidsToUnfreeze toLowercase l arg) t]
    rw [List.map_map]
    rfl
  have hTargets : (pidsToUnfreeze toLowercase l arg).map Prod.fst =
      l.frozen.frozenPids.filter fun pid => isMatch toLowercase arg pid (l.frozen.name pid) := by
    unfold pidsToUnfreeze
    rw [List.map_map]
    exact List.map_id _
  have hNodup : ((calls h.toHost (pidsToUnfreeze toLowercase l arg) t).map Call.pid).Nodup := by
    rw [hPids, hTargets]
    exact l.frozen.frozen.keys_nodup.filter _
  exact List.inj_on_of_nodup_map hNodup hc hc' hPid

/-- A call signals nobody but its PID. -/
theorem pid_of_mem_deliveries {s : Nat} {pid : Pid} {st : Nat} {d : Delivery}
    (hd : d ∈ h.timeline.deliveries s (unfreezeChecked pid st)) : d.pid = pid := by
  rw [deliveries_unfreezeChecked] at hd
  split at hd
  · next hRead =>
      rw [deliveries_sendSignal] at hd
      split at hd
      · have hPid := pid_ne_zero_of_present (present_of_readStartTime (h := h.toHost) hRead)
        have hTakes := (Timeline.mem_send_iff.mp hd).2.2
        exact ((mem_delivered_pid hPid).mp (Kernel.mem_delivered_iff.mpr hTakes)).1
      · cases hd
  · cases hd

/-- A failed call has read the start time. -/
theorem read_of_failed {c : Call} (hFailed : ¬ (c.result h.toHost).success = true) :
    (h.timeline.kernel c.time).readStartTime c.pid = some c.startTime := by
  by_contra hRead
  exact hFailed (unfreezeChecked_of_ne (h := h.toHost) hRead).1

/-- A successful one that has not, signals nobody. -/
theorem served_iff {c : Call} (hSuccess : (c.result h.toHost).success = true) {u : Nat}
    (hOver : (unfreezeChecked c.pid c.startTime).finish h.timeline.answer c.time ≤ u) :
    (h.reached c.time (unfreezeChecked c.pid c.startTime) .cont c.pid c.startTime ∨
        ¬ h.present u c.pid c.startTime) ↔
      ((h.timeline.kernel c.time).readStartTime c.pid = some c.startTime ∨
        ¬ h.present u c.pid c.startTime) := by
  by_cases hRead : (h.timeline.kernel c.time).readStartTime c.pid = some c.startTime
  · refine iff_of_true ?_ (Or.inl hRead)
    obtain ⟨hResult, hFinish⟩ := unfreezeChecked_of_eq (h := h.toHost) hRead
    have hSent : ((sendSignal c.pid .cont).result h.timeline.answer (c.time + 1)).success =
        true := by
      rw [← hResult]
      exact hSuccess
    rw [hFinish, finish_sendSignal .cont ((success_sendSignal .cont).mp hSent).1] at hOver
    cases reached_or_gone_of_send (h := h.toHost) hRead hSent with
    | inl hReached => exact Or.inl hReached
    | inr hGone =>
        refine Or.inr fun hThere => hGone ?_
        exact h.gone (Nat.le_succ _) (by omega) (present_of_readStartTime hRead) hThere
  · have hSilent := (unfreezeChecked_of_ne (h := h.toHost) hRead).2.1
    refine or_congr_left ?_
    refine iff_of_false (fun hReached => ?_) hRead
    obtain ⟨d, hd, -⟩ := hReached
    rw [hSilent] at hd
    cases hd

/-- A command with a match in the registry is the loop. -/
theorem cmdUnfreeze_of_match (hMatch : pidsToUnfreeze toLowercase l arg ≠ []) :
    let loop := unfreezeAll (pidsToUnfreeze toLowercase l arg) ⟨l.frozen, []⟩
    (after toLowercase h t l arg).frozen = (loop.result h.timeline.answer t).frozen ∧
      (after toLowercase h t l arg).spikeReleaseRequests = l.spikeReleaseRequests ∧
      reply toLowercase h t l arg =
        .results ((calls h.toHost (pidsToUnfreeze toLowercase l arg) t).map
          (Call.line h.toHost)) ∧
      finish toLowercase h t l arg = loop.finish h.timeline.answer t ∧
      h.timeline.deliveries t (cmdUnfreeze toLowercase l arg) = h.timeline.deliveries t loop := by
  intro loop
  have hLines : (loop.result h.timeline.answer t).lines = _ := lines_unfreezeAll (h := h.toHost)
  unfold after reply finish cmdUnfreeze
  rw [if_pos hMatch, Program.result_bind, Program.finish_bind, deliveries_bind, deliveries_ret,
    List.append_nil, Program.result_ret, Program.finish_ret, hLines]
  exact ⟨rfl, rfl, rfl, rfl, rfl⟩

/-- The signals of the loop to a PID are those of its own call. -/
theorem reached_own {c : Call} (hc : c ∈ calls h.toHost (pidsToUnfreeze toLowercase l arg) t) :
    (∃ d ∈ (calls h.toHost (pidsToUnfreeze toLowercase l arg) t).flatMap
        (fun c => h.timeline.deliveries c.time (unfreezeChecked c.pid c.startTime)),
      d.signal = .cont ∧ d.pid = c.pid ∧ d.occupant.startTime = c.startTime) ↔
    h.reached c.time (unfreezeChecked c.pid c.startTime) .cont c.pid c.startTime := by
  constructor
  · intro hAny
    obtain ⟨d, hd, hSignal, hPid, hStart⟩ := hAny
    obtain ⟨c', hc', hd'⟩ := List.mem_flatMap.mp hd
    have hSame := call_unique hc' hc ((pid_of_mem_deliveries hd').symm.trans hPid)
    rw [hSame] at hd'
    exact ⟨d, hd', hSignal, hPid, hStart⟩
  · intro hReached
    obtain ⟨d, hd, hRest⟩ := hReached
    exact ⟨d, List.mem_flatMap.mpr ⟨c, hc, hd⟩, hRest⟩

/-- A line of failure is that of a failed call. -/
theorem reportsFailure_iff {c : Call}
    (hc : c ∈ calls h.toHost (pidsToUnfreeze toLowercase l arg) t) :
    (Reply.results ((calls h.toHost (pidsToUnfreeze toLowercase l arg) t).map
        (Call.line h.toHost))).reportsFailure c.pid ↔
      ¬ (c.result h.toHost).success = true := by
  unfold Reply.reportsFailure
  constructor
  · intro hReported hSuccess
    obtain ⟨lines, error, hLines, hLine⟩ := hReported
    rw [← Reply.results.inj hLines] at hLine
    obtain ⟨c', hc', hText⟩ := List.mem_map.mp hLine
    unfold Call.line at hText
    split at hText
    · cases hText
    · next hFailed =>
        rw [call_unique hc' hc (Line.failed.inj hText).1] at hFailed
        exact hFailed hSuccess
  · intro hFailed
    refine ⟨_, (c.result h.toHost).error, rfl, List.mem_map.mpr ⟨c, hc, ?_⟩⟩
    unfold Call.line
    rw [if_neg hFailed]

/-- The processes of the registry. -/
theorem entries_iff_seenOrGone (hMatch : pidsToUnfreeze toLowercase l arg ≠ []) :
    (∀ pid e, l.frozen.frozen.lookup pid = some e → isMatch toLowercase arg pid e.name = true →
      ((h.reached t (cmdUnfreeze toLowercase l arg) .cont pid e.startTime ∨
          ¬ h.present (finish toLowercase h t l arg) pid e.startTime) ∧
        (after toLowercase h t l arg).frozen.isFrozen pid = false) ∨
      (reply toLowercase h t l arg).reportsFailure pid) ↔ SeenOrGone toLowercase h t l arg := by
  obtain ⟨hFrozen, -, hReply, hFinish, hSignals⟩ := cmdUnfreeze_of_match (h := h) (t := t) hMatch
  unfold SeenOrGone Host.reached
  rw [hFrozen, hReply, hFinish, hSignals, deliveries_unfreezeAll (h := h.toHost)]
  constructor
  · intro hServed c hc
    obtain ⟨e, hEntry, hName, hStart⟩ :=
      mem_pidsToUnfreeze.mp ((exists_call (h := h) (t := t)).mpr ⟨c, hc, rfl, rfl⟩)
    by_cases hSuccess : (c.result h.toHost).success = true
    · rw [← served_iff hSuccess (finish_le_unfreezeAll hc)]
      have hNoLine := fun hLine => (reportsFailure_iff hc).mp hLine hSuccess
      have hEither := ((hServed c.pid e hEntry hName).resolve_right hNoLine).1
      rw [hStart, reached_own hc] at hEither
      exact hEither
    · exact Or.inl (read_of_failed hSuccess)
  · intro hSeen pid e hEntry hName
    obtain ⟨c, hc, hPid, hStart⟩ :=
      (exists_call (h := h) (t := t)).mp (mem_pidsToUnfreeze.mpr ⟨e, hEntry, hName, rfl⟩)
    subst hPid
    rw [← hStart]
    by_cases hSuccess : (c.result h.toHost).success = true
    · refine Or.inl ⟨?_, ?_⟩
      · rw [reached_own hc]
        exact (served_iff hSuccess (finish_le_unfreezeAll hc)).mpr (hSeen c hc)
      · rw [← Bool.not_eq_true, isFrozen_unfreezeAll (h := h.toHost)]
        exact fun hStill => hStill.2 c hc rfl hSuccess
    · exact Or.inr ((reportsFailure_iff hc).mpr hSuccess)

/-- A command without one queues the victims. -/
theorem requests_of_noMatch (hNone : pidsToUnfreeze toLowercase l arg = []) {pid : Pid}
    (hVictim : pid ∈ spikeMatches toLowercase l arg) :
    pid ∈ (after toLowercase h t l arg).spikeReleaseRequests := by
  unfold after cmdUnfreeze
  rw [if_neg (not_not.mpr hNone), if_neg (List.ne_nil_of_mem hVictim), Program.result_ret]
  exact List.mem_append_right _ hVictim

end ReachingLemmas

/--
**When `mgctl unfreeze` reaches every match.**  For every registry, spike
snapshot and argument, and whatever the processes do in the meantime: every
matching process of the registry has got SIGCONT or is gone, and is removed, or
is reported as failed, and every matching victim is queued, exactly when the
registry holds no match or no matching victim is left to be queued, and each
matching process of the registry is read with its start time or is not there
when the command is over.
-/
theorem cmdUnfreeze_reaches_iff (toLowercase : String → String) (h : History) (t : Nat)
    (l : Ledgers) (arg : String) :
    Reaches toLowercase h t l arg ↔
      SeenOrGone toLowercase h t l arg ∧ OneLedger toLowercase l arg := by
  unfold OneLedger
  by_cases hMatch : pidsToUnfreeze toLowercase l arg = []
  · refine iff_of_true ⟨?_, ?_⟩ ⟨?_, Or.inl hMatch⟩
    · intro pid e hEntry hName
      have hMem := mem_pidsToUnfreeze.mpr ⟨e, hEntry, hName, rfl⟩
      rw [hMatch] at hMem
      cases hMem
    · intro v hv hName
      exact requests_of_noMatch hMatch (mem_spikeMatches.mpr ⟨v, hv, hName, rfl⟩)
    · unfold SeenOrGone
      rw [hMatch]
      intro c hc
      cases hc
  · have hRequests := (cmdUnfreeze_of_match (h := h) (t := t) hMatch).2.1
    rw [or_iff_right hMatch, ← entries_iff_seenOrGone hMatch]
    constructor
    · intro hReaches
      refine ⟨hReaches.entries, fun pid hPid => ?_⟩
      obtain ⟨v, hv, hName, rfl⟩ := mem_spikeMatches.mp hPid
      have hQueued := hReaches.victims v hv hName
      rwa [hRequests] at hQueued
    · intro hBoth
      refine ⟨hBoth.1, fun v hv hName => ?_⟩
      rw [hRequests]
      exact hBoth.2 v.1 (mem_spikeMatches.mpr ⟨v, hv, hName, rfl⟩)

/-! ## A name in both ledgers -/

/-- The player is in the registry, and a helper of it is a spike victim. -/
def playerAndHelper : Ledgers where
  frozen := ⟨(∅ : Map Pid FrozenEntry).insert ⟨1234⟩ ⟨"player", 0, 500⟩⟩
  spikeSnapshot := ⟨[(⟨5678⟩, "player-helper", ⟨42⟩)]⟩
  spikeReleaseRequests := []

/-- `mgctl unfreeze player` queues nobody. -/
theorem helper_not_queued : ¬ Reaches id playerRuns 0 playerAndHelper "player" := by
  intro hReaches
  have hMatch : pidsToUnfreeze id playerAndHelper "player" ≠ [] := by decide +kernel
  have hQueued := hReaches.victims (⟨5678⟩, "player-helper", ⟨42⟩) List.mem_cons_self
    (by decide +kernel)
  rw [(cmdUnfreeze_of_match (h := playerRuns) (t := 0) hMatch).2.1] at hQueued
  cases hQueued

end Mgd.UnfreezeCommand
