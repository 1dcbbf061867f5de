import Mgd.Lib.Stretch
import Mgd.Lib.Text
import Mgd.PlasmaRestart

/-!
# The reaper of plasma-discover

`mgd-kde` looks at plasma-discover every 10 s while it takes the level for normal,
and asks the core to kill it once its CPU ticks have not grown for a while and its
RSS is large (`check_plasma_discover`).  The tracker knows a PID, the ticks seen
last and since when they stand.

`discover_reaped_iff` reads a request off the looks alone: which requests there are, and how
far apart, for every run of the loop.
-/

namespace Mgd.DiscoverReaper

open Mgd.Types Mgd.Lib.Run Mgd.Lib.Stretch Mgd.Lib.Text Mgd.PluginServer Mgd.PlasmaRestart

/-! ## The plugin -/

/-- `[plasma_discover]` -/
structure PlasmaDiscoverConfig where
  cooldownMin : Nat
  idleCheckSecs : Nat
  rssThresholdMb : Nat
deriving DecidableEq

def defaultDiscoverCooldownMin : Nat := 30

def defaultDiscoverIdleCheckSecs : Nat := 60

def defaultDiscoverRssThresholdMb : Nat := 400

def PlasmaDiscoverConfig.default : PlasmaDiscoverConfig where
  cooldownMin := defaultDiscoverCooldownMin
  idleCheckSecs := defaultDiscoverIdleCheckSecs
  rssThresholdMb := defaultDiscoverRssThresholdMb

/-- The product of `u64`s; it wraps in a release build. -/
def PlasmaDiscoverConfig.reapCooldownSecs (cfg : PlasmaDiscoverConfig) : Nat :=
  cfg.cooldownMin * 60 % 2 ^ 64

/-- PID 0 is no process. -/
structure DiscoverTracker where
  pid : Pid
  ticks : Nat
  idleSince : Nat

structure Reaper where
  tracker : DiscoverTracker
  pidCache : Option PidCache
  /-- `LAST_PD_REAP`, in Unix seconds -/
  lastPdReap : Nat

def Reaper.new : Reaper where
  tracker := ⟨⟨0⟩, 0, 0⟩
  pidCache := none
  lastPdReap := 0

/-- What one iteration of the main loop finds. -/
structure Look where
  /-- `current_level` -/
  level : String
  now : Nat
  cfg : PlasmaDiscoverConfig
  proc : ProcReading
  readProcCpuTicks : Pid → Option Nat
  /-- `/proc/<pid>/status`, `none` when it cannot be read -/
  status : Pid → Option (List Char)

def Look.ticks (l : Look) (pid : Pid) : Nat := (l.readProcCpuTicks pid).getD 0

/-- The first `VmRSS:` line decides. -/
def vmRssKb (status : List Char) : Nat :=
  match (lines status).findSome? (stripPrefix "VmRSS:".toList) with
  | some r => ((splitWhitespace r).head?.bind (parseUnsigned u64Max)).getD 0
  | none => 0

def killRequest (cfg : PlasmaDiscoverConfig) (pid : Pid) (rssKb : Nat) : PluginMessage :=
  .actionRequest "mgd-kde" (.killPid pid)
    ("RSS " ++ toString (rssKb / 1024) ++ "MB > " ++ toString cfg.rssThresholdMb ++
      "MB and idle for " ++ toString cfg.idleCheckSecs ++ "s")

/-- What is asked for a process idle for long enough. -/
def overThreshold (l : Look) (pid : Pid) : Option PluginMessage :=
  match l.status pid with
  | none => none
  | some status =>
      if vmRssKb status / 1024 > l.cfg.rssThresholdMb then
        some (killRequest l.cfg pid (vmRssKb status))
      else none

def cooling (r : Reaper) (l : Look) : Bool :=
  decide (l.now - r.lastPdReap < l.cfg.reapCooldownSecs)

/-- `check_plasma_discover` and what it writes. -/
def checkPlasmaDiscover (r : Reaper) (l : Look) : Reaper × Option PluginMessage :=
  if cooling r l then (r, none)
  else
    let resolved := resolvePid r.pidCache l.proc
    let r := { r with pidCache := resolved.1 }
    match resolved.2 with
    | none => ({ r with tracker := { r.tracker with pid := ⟨0⟩ } }, none)
    | some pid =>
        if r.tracker.pid ≠ pid then
          ({ r with tracker := ⟨pid, l.ticks pid, l.now⟩ }, none)
        else if l.ticks pid > r.tracker.ticks then
          ({ r with tracker := ⟨pid, l.ticks pid, l.now⟩ }, none)
        else if l.now - r.tracker.idleSince ≥ l.cfg.idleCheckSecs then
          match overThreshold l pid with
          | some msg => ({ r with lastPdReap := l.now }, some msg)
          | none => (r, none)
        else (r, none)

/-- One iteration; the check of plasmashell is apart. -/
def iterate (r : Reaper) (l : Look) : Reaper × Option PluginMessage :=
  if l.level == "normal" then checkPlasmaDiscover r l else (r, none)

/-! ## The loop and what it has seen -/

/-- What a look that was not skipped saw. -/
structure Seen where
  now : Nat
  pid : Option Pid
  ticks : Nat

def seenAt (r : Reaper) (l : Look) : Seen :=
  let pid := (resolvePid r.pidCache l.proc).2
  { now := l.now, pid := pid, ticks := (pid.map l.ticks).getD 0 }

structure Loop where
  reaper : Reaper
  /-- the looks at a normal level outside the cooldown -/
  seen : List Seen
  /-- the requests, and when they were written -/
  requests : List (Nat × PluginMessage)

def Loop.new : Loop where
  reaper := Reaper.new
  seen := []
  requests := []

def looksAt (r : Reaper) (l : Look) : Bool := l.level == "normal" && !cooling r l

def Loop.step (s : Loop) (l : Look) : Loop where
  reaper := (iterate s.reaper l).1
  seen := if looksAt s.reaper l then s.seen ++ [seenAt s.reaper l] else s.seen
  requests :=
    match (iterate s.reaper l).2 with
    | some msg => s.requests ++ [(l.now, msg)]
    | none => s.requests

/-! ## When a process is reaped -/

/-- The cooldown has passed since every request, and since the epoch. -/
def Rested (requests : List (Nat × PluginMessage)) (l : Look) : Prop :=
  l.cfg.reapCooldownSecs ≤ l.now ∧
    ∀ r ∈ requests, r.1 + l.cfg.reapCooldownSecs ≤ l.now

/-- Some earlier look, old enough, saw the process, and no look since saw another or
more ticks of it. -/
def IdleFor (seen : List Seen) (now : Seen) (pid : Pid) (secs : Nat) : Prop :=
  ∃ pre x rest, seen = pre ++ x :: rest ∧ x.pid = some pid ∧ x.now + secs ≤ now.now ∧
    ∀ y ∈ rest ++ [now], y.pid = some pid ∧ y.ticks ≤ x.ticks

/-- `/proc` lists no PID 0. -/
def Look.Real (l : Look) : Prop := ∀ pid, l.proc.found = some pid → pid ≠ ⟨0⟩

/-! ## The tracker is a timer -/

/-- An idle process as a stretch of looks. -/
def idle : Watch Seen (Pid × Nat) Nat where
  mark s := s.pid.map fun pid => (pid, s.ticks)
  continues m s := decide (s.pid = some m.1) && decide (s.ticks ≤ m.2)
  time s := s.now
  trans := by
    intro m m' x y hx hMark hy
    obtain ⟨pid, hPid, rfl⟩ := Option.map_eq_some_iff.mp hMark
    rw [Bool.and_eq_true, decide_eq_true_eq, decide_eq_true_eq] at hx hy ⊢
    rw [hPid] at hx
    cases hx.1
    exact ⟨hy.1, hy.2.trans hx.2⟩

theorem idle_continues (m : Pid × Nat) (s : Seen) :
    idle.continues m s = true ↔ s.pid = some m.1 ∧ s.ticks ≤ m.2 := by
  unfold idle
  rw [Bool.and_eq_true, decide_eq_true_eq, decide_eq_true_eq]

def tracked (t : DiscoverTracker) : Option ((Pid × Nat) × Nat) :=
  if t.pid = ⟨0⟩ then none else some ((t.pid, t.ticks), t.idleSince)

/-- What holds after every iteration, at the clock reading of the last. -/
structure Inv (clock : Nat) (s : Loop) : Prop where
  timer : tracked s.reaper.tracker = idle.timer s.seen
  cached : ∀ c ∈ s.reaper.pidCache, c.pid ≠ ⟨0⟩
  ordered : idle.Ordered s.seen
  past : ∀ x ∈ s.seen, x.now ≤ clock
  reap : s.reaper.lastPdReap = ((s.requests.getLast?).map Prod.fst).getD 0
  requests : (s.requests.map Prod.fst).Pairwise (· ≤ ·)
  requested : ∀ r ∈ s.requests, r.1 ≤ clock

theorem inv_new : Inv 0 Loop.new where
  timer := rfl
  cached := nofun
  ordered := List.Pairwise.nil
  past := nofun
  reap := rfl
  requests := List.Pairwise.nil
  requested := nofun

theorem resolvePid_real {cache : Option PidCache} {l : Look} (hReal : l.Real)
    (hCache : ∀ c ∈ cache, c.pid ≠ ⟨0⟩) :
    (∀ c ∈ (resolvePid cache l.proc).1, c.pid ≠ ⟨0⟩) ∧
      ∀ pid, (resolvePid cache l.proc).2 = some pid → pid ≠ ⟨0⟩ := by
  have hAgain : (∀ c ∈ (findAgain l.proc).1, c.pid ≠ ⟨0⟩) ∧
      ∀ pid, (findAgain l.proc).2 = some pid → pid ≠ ⟨0⟩ := by
    unfold findAgain
    split
    · exact ⟨(nofun), (nofun)⟩
    · next pid hFound =>
        split
        · exact ⟨(nofun), (nofun)⟩
        · refine ⟨?_, ?_⟩
          · intro c hc
            cases hc
            exact hReal pid hFound
          · intro pid' hPid
            cases hPid
            exact hReal pid hFound
  unfold resolvePid
  split
  · next c =>
      have hHere : c.pid ≠ ⟨0⟩ := hCache c rfl
      split
      · refine ⟨?_, ?_⟩
        · intro c' hc
          cases hc
          exact hHere
        · intro pid hPid
          cases hPid
          exact hHere
      · exact hAgain
  · exact hAgain

/-- The cooldown, by the last request. -/
theorem rested_iff {clock : Nat} {s : Loop} (h : Inv clock s) {l : Look} (hNow : clock ≤ l.now) :
    cooling s.reaper l = false ↔ Rested s.requests l := by
  unfold cooling Rested
  rw [decide_eq_false_iff_not, not_lt, h.reap]
  cases hLast : s.requests.getLast? with
  | none =>
      have hNone : s.requests = [] := List.getLast?_eq_none_iff.mp hLast
      rw [hNone]
      simp
  | some last =>
      have hMem : last ∈ s.requests := List.mem_of_getLast? hLast
      have hMax : ∀ r ∈ s.requests, r.1 ≤ last.1 := by
        obtain ⟨before, hSplit⟩ := List.getLast?_eq_some_iff.mp hLast
        have hOrder := h.requests
        rw [hSplit, List.map_append, List.pairwise_append] at hOrder
        intro r hr
        rw [hSplit] at hr
        cases List.mem_append.mp hr with
        | inl hOld => exact hOrder.2.2 r.1 (List.mem_map_of_mem hOld) last.1 (by simp)
        | inr hNew => exact (List.mem_singleton.mp hNew) ▸ Nat.le_refl _
      have hPast : last.1 ≤ clock := h.requested last hMem
      show l.cfg.reapCooldownSecs ≤ l.now - last.1 ↔ _
      constructor
      · intro hRest
        refine ⟨by omega, fun r hr => ?_⟩
        have hLe := hMax r hr
        omega
      · intro hRest
        have hAll := hRest.2 last hMem
        omega

theorem seenAt_of_found {r : Reaper} {l : Look} {pid : Pid}
    (h : (resolvePid r.pidCache l.proc).2 = some pid) :
    seenAt r l = ⟨l.now, some pid, l.ticks pid⟩ := by
  unfold seenAt
  rw [h]
  rfl

theorem tracked_of_ne {t : DiscoverTracker} (h : t.pid ≠ ⟨0⟩) :
    tracked t = some ((t.pid, t.ticks), t.idleSince) := by
  unfold tracked
  rw [if_neg h]

/-- A look that does not continue the stretch starts one. -/
theorem see_start {t : Option ((Pid × Nat) × Nat)} {now : Nat} {pid : Pid} {ticks : Nat}
    (h : ∀ m since, t = some (m, since) → ¬ (m.1 = pid ∧ ticks ≤ m.2)) :
    idle.see t ⟨now, some pid, ticks⟩ = some ((pid, ticks), now) := by
  unfold Watch.see
  split
  · next m since =>
      rw [if_neg]
      · rfl
      · rw [idle_continues]
        exact fun hGoes => h m since rfl ⟨(Option.some.inj hGoes.1).symm, hGoes.2⟩
  · rfl

/-- What a look that is not skipped does to the tracker. -/
theorem tracked_check {r : Reaper} {l : Look} (hReal : l.Real)
    (hCache : ∀ c ∈ r.pidCache, c.pid ≠ ⟨0⟩) (hLooks : cooling r l = false) :
    tracked (checkPlasmaDiscover r l).1.tracker = idle.see (tracked r.tracker) (seenAt r l) := by
  have hPid := (resolvePid_real hReal hCache).2
  unfold checkPlasmaDiscover
  rw [if_neg (by simp [hLooks])]
  dsimp only
  cases hFound : (resolvePid r.pidCache l.proc).2 with
  | none =>
      have hSeen : idle.see (tracked r.tracker) (seenAt r l) = none := by
        unfold Watch.see seenAt
        rw [hFound]
        split
        · rw [if_neg (by simp [idle])]
          rfl
        · rfl
      rw [hSeen]
      rfl
  | some pid =>
      have hNonzero := hPid pid hFound
      have hStart : tracked ⟨pid, l.ticks pid, l.now⟩ = some ((pid, l.ticks pid), l.now) :=
        tracked_of_ne hNonzero
      rw [seenAt_of_found hFound]
      dsimp only
      by_cases hOther : r.tracker.pid ≠ pid
      · rw [if_pos hOther, hStart, see_start]
        intro m since hTracked
        unfold tracked at hTracked
        split at hTracked
        · cases hTracked
        · cases hTracked
          exact fun hSame => hOther hSame.1
      · have hSame : r.tracker.pid = pid := not_not.mp hOther
        have hTracked := tracked_of_ne (t := r.tracker) (by rw [hSame]; exact hNonzero)
        rw [if_neg hOther]
        by_cases hGrown : l.ticks pid > r.tracker.ticks
        · rw [if_pos hGrown, hStart, see_start]
          intro m since hMark
          rw [hTracked] at hMark
          cases hMark
          exact fun hStill => absurd hStill.2 (not_le.mpr hGrown)
        · have hKept : idle.see (tracked r.tracker) ⟨l.now, some pid, l.ticks pid⟩ =
              tracked r.tracker := by
            rw [hTracked]
            unfold Watch.see
            dsimp only
            rw [if_pos]
            exact (idle_continues _ _).mpr ⟨by rw [hSame], not_lt.mp hGrown⟩
          rw [if_neg hGrown, hKept]
          split
          · split <;> rfl
          · rfl

/-- The PID cache after a look that is not skipped. -/
theorem pidCache_check {r : Reaper} {l : Look} (hLooks : cooling r l = false) :
    (checkPlasmaDiscover r l).1.pidCache = (resolvePid r.pidCache l.proc).1 := by
  unfold checkPlasmaDiscover
  rw [if_neg (by simp [hLooks])]
  dsimp only
  split
  · rfl
  · split
    · rfl
    · split
      · rfl
      · split
        · split <;> rfl
        · rfl

/-- When it writes a request. -/
theorem request_iff {r : Reaper} {l : Look} (hLooks : cooling r l = false) (msg : PluginMessage) :
    (checkPlasmaDiscover r l).2 = some msg ↔
      ∃ pid, (resolvePid r.pidCache l.proc).2 = some pid ∧ r.tracker.pid = pid ∧
        l.ticks pid ≤ r.tracker.ticks ∧ l.cfg.idleCheckSecs ≤ l.now - r.tracker.idleSince ∧
        overThreshold l pid = some msg := by
  unfold checkPlasmaDiscover
  rw [if_neg (by simp [hLooks])]
  dsimp only
  cases hFound : (resolvePid r.pidCache l.proc).2 with
  | none => simp
  | some pid =>
      simp only [Option.some.injEq, exists_eq_left']
      by_cases hOther : r.tracker.pid ≠ pid
      · rw [if_pos hOther]
        exact iff_of_false (nofun) fun h => hOther h.1
      · rw [if_neg hOther]
        have hSame : r.tracker.pid = pid := not_not.mp hOther
        by_cases hGrown : l.ticks pid > r.tracker.ticks
        · rw [if_pos hGrown]
          exact iff_of_false (nofun) fun h => absurd h.2.1 (not_le.mpr hGrown)
        · rw [if_neg hGrown]
          by_cases hLong : l.now - r.tracker.idleSince ≥ l.cfg.idleCheckSecs
          · rw [if_pos hLong]
            have hAsked : overThreshold l pid = some msg ↔ r.tracker.pid = pid ∧
                l.ticks pid ≤ r.tracker.ticks ∧
                l.cfg.idleCheckSecs ≤ l.now - r.tracker.idleSince ∧
                overThreshold l pid = some msg :=
              ⟨fun h => ⟨hSame, not_lt.mp hGrown, hLong, h⟩, fun h => h.2.2.2⟩
            rw [← hAsked]
            cases overThreshold l pid <;> rfl
          · rw [if_neg hLong]
            exact iff_of_false (nofun) fun h => hLong h.2.2.1

theorem lastPdReap_check (r : Reaper) (l : Look) :
    (checkPlasmaDiscover r l).1.lastPdReap =
      ((checkPlasmaDiscover r l).2.map fun _ => l.now).getD r.lastPdReap := by
  unfold checkPlasmaDiscover
  by_cases hCooling : cooling r l = true
  · rw [if_pos hCooling]
    rfl
  · rw [if_neg hCooling]
    dsimp only
    cases (resolvePid r.pidCache l.proc).2 with
    | none => rfl
    | some pid =>
        dsimp only
        split
        · rfl
        · split
          · rfl
          · split
            · split <;> rfl
            · rfl

/-! ## Runs -/

/-- A look that is skipped changes nothing. -/
theorem step_skipped {s : Loop} {l : Look} (h : looksAt s.reaper l = false) : s.step l = s := by
  have hQuiet : iterate s.reaper l = (s.reaper, none) := by
    unfold iterate
    by_cases hLevel : (l.level == "normal") = true
    · rw [looksAt, hLevel, Bool.true_and] at h
      rw [if_pos hLevel, checkPlasmaDiscover, if_pos (by simpa using h)]
    · rw [if_neg hLevel]
  unfold Loop.step
  rw [hQuiet, h]
  rfl

theorem iterate_of_looks {r : Reaper} {l : Look} (h : looksAt r l = true) :
    cooling r l = false ∧ iterate r l = checkPlasmaDiscover r l := by
  rw [looksAt, Bool.and_eq_true, Bool.not_eq_true'] at h
  exact ⟨h.2, by rw [iterate, if_pos h.1]⟩

theorem pairwise_append_last {α : Type} {r : α → α → Prop} {xs : List α} {x : α}
    (h : xs.Pairwise r) (hLast : ∀ y ∈ xs, r y x) : (xs ++ [x]).Pairwise r :=
  List.pairwise_append.mpr ⟨h, List.pairwise_singleton r x, fun y hy _ hz =>
    (List.mem_singleton.mp hz) ▸ hLast y hy⟩

theorem Inv.step {clock : Nat} {s : Loop} (h : Inv clock s) {l : Look} (hReal : l.Real)
    (hNow : clock ≤ l.now) : Inv l.now (s.step l) := by
  have hPast : ∀ x ∈ s.seen, x.now ≤ l.now := fun x hx => (h.past x hx).trans hNow
  have hRequested : ∀ r ∈ s.requests, r.1 ≤ l.now := fun r hr => (h.requested r hr).trans hNow
  cases hLooks : looksAt s.reaper l with
  | false =>
      rw [step_skipped hLooks]
      exact { h with past := hPast, requested := hRequested }
  | true =>
      obtain ⟨hCool, hIterate⟩ := iterate_of_looks hLooks
      have hReap := lastPdReap_check s.reaper l
      unfold Loop.step
      rw [hIterate, hLooks, if_pos rfl]
      have hSeen : ∀ x ∈ s.seen ++ [seenAt s.reaper l], x.now ≤ l.now := by
        intro x hx
        cases List.mem_append.mp hx with
        | inl hOld => exact hPast x hOld
        | inr hNew => exact (List.mem_singleton.mp hNew) ▸ Nat.le_refl _
      refine
        { timer := ?_
          cached := ?_
          ordered := pairwise_append_last h.ordered hPast
          past := hSeen
          reap := ?_
          requests := ?_
          requested := ?_ }
      · rw [Watch.timer_append, ← h.timer]
        exact tracked_check hReal h.cached hCool
      · rw [pidCache_check hCool]
        exact (resolvePid_real hReal h.cached).1
      · dsimp only
        rw [hReap, h.reap]
        cases (checkPlasmaDiscover s.reaper l).2 <;> simp
      · cases (checkPlasmaDiscover s.reaper l).2 with
        | none => exact h.requests
        | some msg =>
            dsimp only
            rw [List.map_append]
            apply pairwise_append_last h.requests
            intro t ht
            obtain ⟨r, hr, rfl⟩ := List.mem_map.mp ht
            exact hRequested r hr
      · cases (checkPlasmaDiscover s.reaper l).2 with
        | none => exact hRequested
        | some msg =>
            intro r hr
            cases List.mem_append.mp hr with
            | inl hOld => exact hRequested r hOld
            | inr hNew => exact (List.mem_singleton.mp hNew) ▸ Nat.le_refl _

theorem run_inv {clock : Nat} {s : Loop} (h : Inv clock s) {looks : List Look}
    (hReal : ∀ l ∈ looks, l.Real) (hClock : (clock :: looks.map Look.now).Pairwise (· ≤ ·)) :
    Inv ((looks.map Look.now).getLastD clock) (run Loop.step s looks) := by
  induction looks generalizing clock s with
  | nil => exact h
  | cons l rest ih =>
      obtain ⟨hFirst, hRest⟩ := List.pairwise_cons.mp hClock
      have hStep := h.step (hReal l (by simp)) (hFirst l.now (by simp))
      have hRun := ih hStep (fun l' hl' => hReal l' (by simp [hl'])) hRest
      rw [List.map_cons, List.getLastD_cons]
      exact hRun

/-- The tests on the tracker, in terms of the looks. -/
theorem idleFor_iff {clock : Nat} {s : Loop} (h : Inv clock s) {now : Seen} {pid : Pid}
    (hPid : now.pid = some pid) (hReal : pid ≠ ⟨0⟩) (hNow : clock ≤ now.now) (secs : Nat) :
    (s.reaper.tracker.pid = pid ∧ now.ticks ≤ s.reaper.tracker.ticks ∧
      secs ≤ now.now - s.reaper.tracker.idleSince) ↔ IdleFor s.seen now pid secs := by
  have hRunning := Watch.running_iff h.ordered now (fun t => t + secs ≤ now.now)
    fun hle hLong => (Nat.add_le_add_right hle secs).trans hLong
  have hTracker : (s.reaper.tracker.pid = pid ∧ now.ticks ≤ s.reaper.tracker.ticks ∧
      secs ≤ now.now - s.reaper.tracker.idleSince) ↔
        ∃ m t, idle.timer s.seen = some (m, t) ∧ idle.continues m now = true ∧
          t + secs ≤ now.now := by
    rw [← h.timer]
    constructor
    · rintro ⟨hSame, hStill, hLong⟩
      have hTracked := tracked_of_ne (t := s.reaper.tracker) (by rw [hSame]; exact hReal)
      obtain ⟨pre, x, rest, hSplit, -, hTime, -⟩ :=
        Watch.timer_began (h.timer.symm.trans hTracked)
      have hSince : s.reaper.tracker.idleSince ≤ clock := hTime ▸ h.past x (by simp [hSplit])
      refine ⟨_, _, hTracked, (idle_continues _ now).mpr ⟨by rw [hPid, hSame], hStill⟩, ?_⟩
      omega
    · rintro ⟨m, t, hTracked, hGoes, hLong⟩
      unfold tracked at hTracked
      split at hTracked
      · cases hTracked
      · cases hTracked
        obtain ⟨hSame, hStill⟩ := (idle_continues _ now).mp hGoes
        rw [hPid] at hSame
        exact ⟨(Option.some.inj hSame).symm, hStill, by omega⟩
  rw [hTracker, hRunning]
  unfold IdleFor
  constructor
  · rintro ⟨pre, x, rest, hSplit, hOld, m, hMark, hRest⟩
    obtain ⟨pid', hx, rfl⟩ := Option.map_eq_some_iff.mp hMark
    have hAll : ∀ y ∈ rest ++ [now], y.pid = some pid' ∧ y.ticks ≤ x.ticks := fun y hy =>
      (idle_continues _ y).mp (hRest y hy)
    have hSame : some pid = some pid' := hPid.symm.trans (hAll now (by simp)).1
    cases hSame
    exact ⟨pre, x, rest, hSplit, hx, hOld, hAll⟩
  · rintro ⟨pre, x, rest, hSplit, hx, hOld, hRest⟩
    refine ⟨pre, x, rest, hSplit, hOld, (pid, x.ticks), ?_, ?_⟩
    · show x.pid.map _ = _
      rw [hx]
      rfl
    · exact fun y hy => (idle_continues _ y).mpr (hRest y hy)

theorem overThreshold_iff (l : Look) (pid : Pid) (msg : PluginMessage) :
    overThreshold l pid = some msg ↔ ∃ status, l.status pid = some status ∧
      l.cfg.rssThresholdMb < vmRssKb status / 1024 ∧
      msg = killRequest l.cfg pid (vmRssKb status) := by
  unfold overThreshold
  cases l.status pid with
  | none => simp
  | some status =>
      dsimp only
      split
      · next hLarge => simp [hLarge, eq_comm]
      · next hSmall =>
          have hNot : ¬ l.cfg.rssThresholdMb < vmRssKb status / 1024 := hSmall
          simp [hNot]

/-- One iteration after a run. -/
theorem asks_iff {clock : Nat} {s : Loop} (h : Inv clock s) {l : Look} (hReal : l.Real)
    (hNow : clock ≤ l.now) (msg : PluginMessage) :
    (iterate s.reaper l).2 = some msg ↔
      l.level = "normal" ∧ Rested s.requests l ∧
        ∃ pid status, (seenAt s.reaper l).pid = some pid ∧ l.status pid = some status ∧
          l.cfg.rssThresholdMb < vmRssKb status / 1024 ∧
          IdleFor s.seen (seenAt s.reaper l) pid l.cfg.idleCheckSecs ∧
          msg = killRequest l.cfg pid (vmRssKb status) := by
  by_cases hLevel : l.level = "normal"
  · by_cases hRested : Rested s.requests l
    · have hCool := (rested_iff h hNow).mpr hRested
      have hIterate : iterate s.reaper l = checkPlasmaDiscover s.reaper l := by
        rw [iterate, if_pos (beq_iff_eq.mpr hLevel)]
      rw [hIterate, request_iff hCool]
      have hEach : ∀ pid, (resolvePid s.reaper.pidCache l.proc).2 = some pid →
          ((s.reaper.tracker.pid = pid ∧ l.ticks pid ≤ s.reaper.tracker.ticks ∧
            l.cfg.idleCheckSecs ≤ l.now - s.reaper.tracker.idleSince) ↔
              IdleFor s.seen (seenAt s.reaper l) pid l.cfg.idleCheckSecs) := by
        intro pid hFound
        have hNonzero := (resolvePid_real hReal h.cached).2 pid hFound
        rw [seenAt_of_found hFound]
        have hClock : clock ≤ (⟨l.now, some pid, l.ticks pid⟩ : Seen).now := hNow
        exact idleFor_iff h rfl hNonzero hClock l.cfg.idleCheckSecs
      constructor
      · rintro ⟨pid, hFound, hSame, hStill, hLong, hOver⟩
        obtain ⟨status, hStatus, hLarge, hMsg⟩ := (overThreshold_iff l pid msg).mp hOver
        exact ⟨hLevel, hRested, pid, status, hFound, hStatus, hLarge,
          (hEach pid hFound).mp ⟨hSame, hStill, hLong⟩, hMsg⟩
      · rintro ⟨-, -, pid, status, hFound, hStatus, hLarge, hIdle, hMsg⟩
        obtain ⟨hSame, hStill, hLong⟩ := (hEach pid hFound).mpr hIdle
        exact ⟨pid, hFound, hSame, hStill, hLong,
          (overThreshold_iff l pid msg).mpr ⟨status, hStatus, hLarge, hMsg⟩⟩
    · have hCooling : cooling s.reaper l = true :=
        not_not.mp (mt (fun hNot => (rested_iff h hNow).mp (by simpa using hNot)) hRested)
      refine iff_of_false ?_ fun hAll => hRested hAll.2.1
      rw [iterate, if_pos (beq_iff_eq.mpr hLevel), checkPlasmaDiscover, if_pos hCooling]
      nofun
  · refine iff_of_false ?_ fun hAll => hLevel hAll.1
    rw [iterate, if_neg (by simpa using hLevel)]
    nofun

/-- **When plasma-discover is reaped.**  In every run of the loop whose clock does not
step back, an iteration asks the core to kill exactly when it looks (the level is
normal, the cooldown has passed since every earlier request), finds the process large,
and some look old enough saw the same PID with at least as many ticks as every look
since, this one among them. -/
theorem discover_reaped_iff (looks : List Look) (l : Look) (hReal : ∀ l' ∈ looks ++ [l], l'.Real)
    (hClock : ((looks ++ [l]).map Look.now).Pairwise (· ≤ ·)) (msg : PluginMessage) :
    (iterate (run Loop.step Loop.new looks).reaper l).2 = some msg ↔
      l.level = "normal" ∧ Rested (run Loop.step Loop.new looks).requests l ∧
        ∃ pid status, (seenAt (run Loop.step Loop.new looks).reaper l).pid = some pid ∧
          l.status pid = some status ∧
          l.cfg.rssThresholdMb < vmRssKb status / 1024 ∧
          IdleFor (run Loop.step Loop.new looks).seen
            (seenAt (run Loop.step Loop.new looks).reaper l) pid l.cfg.idleCheckSecs ∧
          msg = killRequest l.cfg pid (vmRssKb status) := by
  rw [List.map_append, List.pairwise_append] at hClock
  have hRun := run_inv inv_new (fun l' hl' => hReal l' (by simp [hl']))
    (List.pairwise_cons.mpr ⟨fun t _ => Nat.zero_le t, hClock.1⟩)
  refine asks_iff hRun (hReal l (by simp)) ?_ msg
  -- the last clock reading of the run is not after this one
  cases hLast : (looks.map Look.now).getLast? with
  | none => simp [List.getLastD_eq_getLast?, hLast]
  | some t =>
      rw [List.getLastD_eq_getLast?, hLast]
      exact hClock.2.2 t (List.mem_of_getLast? hLast) l.now (by simp)

/-- A plasma-discover of 500 MB that does nothing. -/
def heavyDiscover (now : Nat) : Look where
  level := "normal"
  now := now
  cfg := PlasmaDiscoverConfig.default
  proc := ⟨fun _ => some 77, some ⟨4711⟩, some 77⟩
  readProcCpuTicks := fun _ => some 1200
  status := fun _ => some "Name:\tplasma-discover\nVmRSS:\t  512000 kB\n".toList

/-- It is reaped at the second look that is a minute after the first. -/
theorem heavyDiscover_reaped :
    (iterate (run Loop.step Loop.new [heavyDiscover 9000, heavyDiscover 9030]).reaper
        (heavyDiscover 9060)).2 =
      some (killRequest PlasmaDiscoverConfig.default ⟨4711⟩ 512000) ∧
    Rested (run Loop.step Loop.new [heavyDiscover 9000, heavyDiscover 9030]).requests
      (heavyDiscover 9060) := by
  have hReal : ∀ l ∈ [heavyDiscover 9000, heavyDiscover 9030] ++ [heavyDiscover 9060], l.Real := by
    simp [heavyDiscover, Look.Real]
  have hAsks : (iterate (run Loop.step Loop.new [heavyDiscover 9000, heavyDiscover 9030]).reaper
      (heavyDiscover 9060)).2 =
        some (killRequest PlasmaDiscoverConfig.default ⟨4711⟩ 512000) := by
    unfold heavyDiscover
    rewrite [String.toList_ofList]
    decide +kernel
  exact ⟨hAsks, ((discover_reaped_iff _ _ hReal (by decide +kernel) _).mp hAsks).2.1⟩

end Mgd.DiscoverReaper
