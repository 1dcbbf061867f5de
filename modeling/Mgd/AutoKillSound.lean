import Mgd.AutoKill

/-!
# When auto-kill hits idle processes only

The check infers idleness from samples.  Between two of its samples the ticks of a
process show as the difference between what the process has used and what the cache
holds, so a process with an idle clock has either used no tick since the clock
started, or its sample is behind, or the check has just seen it active.  That holds
as long as nobody else advances or drops the sample.

Frozen time is no idle time.  The check skips the processes of the registry, not the
victims of spike mode, and does not look back.

## Main results

* `kills_idle_of_undisturbed` : the processes that get SIGTERM have been idle and
  unstopped, in every run in which processes with an idle clock are left alone.
* `victim_killed` : a screenshot tool is killed while it is stopped.
-/

namespace Mgd.AutoKill

open Mgd.Types Mgd.Monitor Mgd.Config Mgd.Lib.AssocMap Mgd.Lib.Run Mgd.Executor.Registry
open Mgd.SpikeMode Mgd.Maintenance

/-! ## What is known in every state -/

/-- The log has nothing about the process after that time. -/
def Before (log : List (Key × Instant)) (key : Key) (t : Instant) : Prop :=
  ∀ e ∈ log, e.1 = key → e.2 ≤ t

/-- The check has the process neither before it nor behind it, past its listing. -/
def Check.dropped : Check → Pid → Prop
  | .listed _ rows, pid => pid ∉ rows.map Row.pid
  | .keying _ _ rest live, pid => pid ∉ rest.map Row.pid ∧ pid ∉ live.map fun e => e.1.1
  | .handling _ _ live _, pid => pid ∉ live.map fun e => e.1.1
  | _, _ => False

def Check.now : Check → Option Instant
  | .keying _ now _ _ => some now
  | .handling _ now _ _ => some now
  | _ => none

/-- The processes the loop has not come to, by their keys. -/
def Check.keyed : Check → List (Key × Row)
  | .keying _ _ _ live => live
  | .handling _ _ _ pending => pending
  | _ => []

/-- A process with an idle clock. -/
structure Watched (s : Machine) (pid : Pid) (h : Occupant) (since : Instant) : Prop where
  sample : s.check.dropped pid ∨
    ∃ ticks, (s.cpuCache.lookup pid).map Sample.ticks = some ticks ∧ ticks ≤ h.ticks ∧
      (ticks = h.ticks → Before s.burns (pid, h.startTime) since ∨
        ∃ row ∈ s.check.rows, row.pid = pid ∧ 1 / 10 < row.process.cpuPct)
  unstopped : (pid, h.startTime) ∉ s.stopped
  released : Before s.releases (pid, h.startTime) since

/-- A process whose ticks the check has read and sampled. -/
structure Sampled (s : Machine) (row : Row) (h : Occupant) : Prop where
  ticks : ∀ ticks, row.ticks = some ticks → ticks ≤ h.ticks ∧
    (s.cpuCache.lookup row.pid).map Sample.ticks = some ticks ∧
      ∀ now, s.check.now = some now → ticks = h.ticks → Before s.burns (row.pid, h.startTime) now
  released : ∀ now, s.check.now = some now → Before s.releases (row.pid, h.startTime) now

structure Inv (s : Machine) : Prop where
  burnsPast : ∀ e ∈ s.burns, e.2 ≤ s.clock
  releasesPast : ∀ e ∈ s.releases, e.2 ≤ s.clock
  nowPast : ∀ now, s.check.now = some now → now ≤ s.clock
  known : ∀ key since, s.lastActive.lookup key = some since →
    ∃ h, s.holders.lookup key.1 = some h ∧ key.2 ≤ h.startTime
  watched : ∀ pid h, s.occupant pid = some h → ∀ since,
    s.lastActive.lookup (pid, h.startTime) = some since → Watched s pid h since
  reading : ∀ row, s.check.current = some row → ∀ h, s.holders.lookup row.pid = some h →
    ∀ ticks, row.ticks = some ticks → ticks ≤ h.ticks
  sampled : ∀ row ∈ s.check.rows, ∀ h, s.holders.lookup row.pid = some h → Sampled s row h
  keyed : ∀ e ∈ s.check.keyed, e.1.1 = e.2.pid ∧
    ∃ h, s.holders.lookup e.1.1 = some h ∧ e.1.2 = h.startTime
  present : ∀ e ∈ s.check.keyed, ¬ s.check.dropped e.1.1
  nodup : s.check.pids.Nodup

theorem occupant_eq_some_iff {s : Machine} {pid : Pid} {h : Occupant} :
    s.occupant pid = some h ↔ s.holders.lookup pid = some h ∧ h.alive = true := by
  unfold Machine.occupant
  rw [Option.filter_eq_some_iff]

theorem inv_start (holders : Map Pid Occupant) : Inv (start holders) where
  burnsPast _ he := nomatch he
  releasesPast _ he := nomatch he
  nowPast _ hSome := nomatch hSome
  known _ _ hClock := nomatch hClock
  watched _ _ _ _ hClock := nomatch hClock
  reading _ hRow := nomatch hRow
  sampled _ hRow := nomatch hRow
  keyed _ he := nomatch he
  present _ he := nomatch he
  nodup := List.nodup_nil

/-! ## What goes on around the check -/

section Around

variable {sys : Sysconf} {s s' : Machine}

/-- The process that has a busy PID afterwards: the one that had it, with its ticks,
or a new one that no clock and no row is about. -/
def Follows (s s' : Machine) (pid : Pid) (h' : Occupant) : Prop :=
  (∃ h, s.holders.lookup pid = some h ∧ h.startTime = h'.startTime ∧
      (h'.alive = true → h.alive = true) ∧
      (h'.ticks = h.ticks ∧ (∀ e ∈ s'.burns, e.1.1 = pid → e ∈ s.burns) ∨
        h.ticks < h'.ticks)) ∨
    (pid ∉ s.check.pids ∧ s.lastActive.lookup (pid, h'.startTime) = none)

/-- A step outside the check, seen from the busy processes. -/
structure Around (s s' : Machine) : Prop where
  check : s'.check = s.check
  lastActive : s'.lastActive = s.lastActive
  clock : s.clock ≤ s'.clock
  burns : ∀ e ∈ s'.burns, e ∈ s.burns ∨ e.2 ≤ s'.clock
  releases : ∀ e ∈ s'.releases, e ∈ s.releases ∨ e.2 ≤ s'.clock ∧ ¬ s.Busy e.1.1
  stopped : ∀ key ∈ s'.stopped, s.Busy key.1 → key ∈ s.stopped
  cache : ∀ pid, s.Busy pid →
    (s'.cpuCache.lookup pid).map Sample.ticks = (s.cpuCache.lookup pid).map Sample.ticks
  known : ∀ pid h, s.holders.lookup pid = some h →
    ∃ h', s'.holders.lookup pid = some h' ∧ h.startTime ≤ h'.startTime
  holders : ∀ pid h', s'.holders.lookup pid = some h' → Follows s s' pid h'

theorem Around.before_releases (a : Around s s') {key : Key} (hBusy : s.Busy key.1) {t : Instant}
    (h : Before s.releases key t) : Before s'.releases key t := by
  intro e he hKey
  rcases a.releases e he with hOld | ⟨-, hFree⟩
  · exact h e hOld hKey
  · rw [← hKey] at hBusy
    exact absurd hBusy hFree

theorem busy_of_mem {pid : Pid} {row : Row} (h : row ∈ s.check.rows) (hPid : row.pid = pid) :
    s.Busy pid :=
  Or.inr (List.mem_append_right _ (List.mem_map.mpr ⟨row, h, hPid⟩))

theorem busy_of_clock {pid : Pid} {startTime : Nat} {since : Instant}
    (h : s.lastActive.lookup (pid, startTime) = some since) : s.Busy pid :=
  Or.inl ⟨startTime, since, h⟩

theorem watched_around (a : Around s s') {pid : Pid} {h h' : Occupant} {since : Instant}
    (hBusy : s.Busy pid) (hStart : h.startTime = h'.startTime)
    (hTicks : (h'.ticks = h.ticks ∧ ∀ e ∈ s'.burns, e.1.1 = pid → e ∈ s.burns) ∨
      h.ticks < h'.ticks)
    (hWatched : Watched s pid h since) : Watched s' pid h' since where
  sample := by
    rcases hWatched.sample with hDropped | ⟨ticks, hSample, hLe, hSeen⟩
    · rw [← a.check] at hDropped
      exact Or.inl hDropped
    · refine Or.inr ⟨ticks, (a.cache pid hBusy).trans hSample, ?_, fun hEq => ?_⟩
      · exact hTicks.elim (fun hSame => hSame.1 ▸ hLe) fun hMore => hLe.trans hMore.le
      rcases hTicks with ⟨hSame, hBurns⟩ | hMore
      · rw [a.check, ← hStart]
        refine (hSeen (hEq.trans hSame)).imp_left fun hBefore e he hKey => ?_
        exact hBefore e (hBurns e he (congrArg Prod.fst hKey)) hKey
      · omega
  unstopped := by
    rw [← hStart]
    exact fun hStopped => hWatched.unstopped (a.stopped _ hStopped hBusy)
  released := by
    rw [← hStart]
    exact a.before_releases hBusy hWatched.released

theorem sampled_around (a : Around s s') {row : Row} {h h' : Occupant}
    (hBusy : s.Busy row.pid) (hStart : h.startTime = h'.startTime)
    (hTicks : (h'.ticks = h.ticks ∧ ∀ e ∈ s'.burns, e.1.1 = row.pid → e ∈ s.burns) ∨
      h.ticks < h'.ticks)
    (hSampled : Sampled s row h) : Sampled s' row h' where
  ticks := by
    intro ticks hRead
    obtain ⟨hLe, hSample, hBefore⟩ := hSampled.ticks ticks hRead
    refine ⟨?_, (a.cache _ hBusy).trans hSample, fun now hNow hEq => ?_⟩
    · exact hTicks.elim (fun hSame => hSame.1 ▸ hLe) fun hMore => hLe.trans hMore.le
    rcases hTicks with ⟨hSame, hBurns⟩ | hMore
    · rw [a.check] at hNow
      rw [← hStart]
      intro e he hKey
      exact hBefore now hNow (hEq.trans hSame) e (hBurns e he (congrArg Prod.fst hKey)) hKey
    · omega
  released := by
    intro now hNow
    rw [a.check] at hNow
    rw [← hStart]
    exact a.before_releases hBusy (hSampled.released now hNow)

theorem mem_pids_of_rows {check : Check} {row : Row} (h : row ∈ check.rows) :
    row.pid ∈ check.pids :=
  List.mem_append_right _ (List.mem_map_of_mem h)

theorem mem_pids_of_current {check : Check} {row : Row} (h : check.current = some row) :
    row.pid ∈ check.pids := by
  unfold Check.pids
  rw [h]
  exact List.mem_append_left _ List.mem_cons_self

/-- The rows with a key are among those the loop has not come to. -/
theorem rows_of_keyed {check : Check} {e : Key × Row} (h : e ∈ check.keyed) :
    e.2 ∈ check.rows := by
  cases check with
  | keying cfg now rest live => exact List.mem_append_right _ (List.mem_map_of_mem h)
  | handling cfg now live pending => exact List.mem_map_of_mem h
  | _ => cases h

/-- **A step around the check.** -/
theorem inv_around (h : Inv s) (a : Around s s') : Inv s' where
  burnsPast e he := (a.burns e he).elim (fun hOld => (h.burnsPast e hOld).trans a.clock) id
  releasesPast e he :=
    (a.releases e he).elim (fun hOld => (h.releasesPast e hOld).trans a.clock) And.left
  nowPast now hNow := by
    rw [a.check] at hNow
    exact (h.nowPast now hNow).trans a.clock
  known key since hClock := by
    rw [a.lastActive] at hClock
    obtain ⟨holder, hHolder, hLe⟩ := h.known key since hClock
    obtain ⟨holder', hHolder', hLe'⟩ := a.known key.1 holder hHolder
    exact ⟨holder', hHolder', hLe.trans hLe'⟩
  watched pid holder' hOccupant since hClock := by
    rw [a.lastActive] at hClock
    obtain ⟨hHolder', hAlive'⟩ := occupant_eq_some_iff.mp hOccupant
    rcases a.holders pid holder' hHolder' with ⟨holder, hHolder, hStart, hAlive, hTicks⟩ | hNew
    · rw [← hStart] at hClock
      exact watched_around a (busy_of_clock hClock) hStart hTicks
        (h.watched pid holder (occupant_eq_some_iff.mpr ⟨hHolder, hAlive hAlive'⟩) since hClock)
    · rw [hNew.2] at hClock
      cases hClock
  reading row hCurrent holder' hHolder' ticks hRead := by
    rw [a.check] at hCurrent
    rcases a.holders row.pid holder' hHolder' with ⟨holder, hHolder, -, -, hTicks⟩ | hNew
    · have hLe := h.reading row hCurrent holder hHolder ticks hRead
      exact hTicks.elim (fun hSame => hSame.1 ▸ hLe) fun hMore => hLe.trans hMore.le
    · exact absurd (mem_pids_of_current hCurrent) hNew.1
  sampled row hRow holder' hHolder' := by
    rw [a.check] at hRow
    rcases a.holders row.pid holder' hHolder' with ⟨holder, hHolder, hStart, -, hTicks⟩ | hNew
    · exact sampled_around a (busy_of_mem hRow rfl) hStart hTicks
        (h.sampled row hRow holder hHolder)
    · exact absurd (mem_pids_of_rows hRow) hNew.1
  keyed e he := by
    rw [a.check] at he
    obtain ⟨hPid, holder, hHolder, hKey⟩ := h.keyed e he
    refine ⟨hPid, ?_⟩
    obtain ⟨holder', hHolder', -⟩ := a.known e.1.1 holder hHolder
    refine ⟨holder', hHolder', ?_⟩
    rcases a.holders e.1.1 holder' hHolder' with ⟨old, hOld, hStart, -⟩ | hNew
    · have hSame : old = holder := Option.some.inj (hOld.symm.trans hHolder)
      rw [hKey, ← hSame, hStart]
    · have hRow := mem_pids_of_rows (rows_of_keyed he)
      rw [← hPid] at hRow
      exact absurd hRow hNew.1
  present := by
    rw [a.check]
    exact h.present
  nodup := by
    rw [a.check]
    exact h.nodup

theorem follows_of_same (hHolders : s'.holders = s.holders) (hBurns : s'.burns = s.burns)
    {pid : Pid} {h' : Occupant} (hHolder : s'.holders.lookup pid = some h') :
    Follows s s' pid h' := by
  rw [hHolders] at hHolder
  refine Or.inl ⟨h', hHolder, rfl, id, Or.inl ⟨rfl, fun e he _ => ?_⟩⟩
  rwa [hBurns] at he

theorem around_wait (s : Machine) (d : Duration) : Around s (step sys s (.wait d)) where
  check := rfl
  lastActive := rfl
  clock := Nat.le_add_right _ _
  burns _ he := Or.inl he
  releases _ he := Or.inl he
  stopped _ hStopped _ := hStopped
  cache _ _ := rfl
  known _ h hHolder := ⟨h, hHolder, le_rfl⟩
  holders _ _ hHolder := follows_of_same rfl rfl hHolder

theorem around_ledgers {frozen : FrozenRegistry} {spikeTracker : SpikeTracker}
    (hQuiet : Undisturbed sys s (.ledgers frozen spikeTracker)) :
    Around s (step sys s (.ledgers frozen spikeTracker)) where
  check := rfl
  lastActive := rfl
  clock := le_rfl
  burns _ he := Or.inl he
  releases e he := by
    rcases List.mem_append.mp he with hOld | hNew
    · exact Or.inl hOld
    · obtain ⟨key, hKey, rfl⟩ := List.mem_map.mp hNew
      obtain ⟨hBefore, hAfter⟩ := List.mem_filter.mp hKey
      refine Or.inr ⟨le_rfl, fun hBusy => of_decide_eq_true hAfter ?_⟩
      exact (hQuiet key hBusy).mpr hBefore
  stopped key hStopped hBusy := (hQuiet key hBusy).mp hStopped
  cache _ _ := rfl
  known _ h hHolder := ⟨h, hHolder, le_rfl⟩
  holders _ _ hHolder := follows_of_same rfl rfl hHolder

/-- A step of another caller, which changes no sample of a busy process. -/
theorem around_caller {cache : Map Pid Sample} {inFlight : List (Pid × Nat)}
    (hSame : ∀ pid, s.Busy pid →
      (cache.lookup pid).map Sample.ticks = (s.cpuCache.lookup pid).map Sample.ticks) :
    Around s { s with cpuCache := cache, inFlight := inFlight } where
  check := rfl
  lastActive := rfl
  clock := le_rfl
  burns _ he := Or.inl he
  releases _ he := Or.inl he
  stopped _ hStopped _ := hStopped
  cache := hSame
  known _ h hHolder := ⟨h, hHolder, le_rfl⟩
  holders _ _ hHolder := follows_of_same rfl rfl hHolder

theorem ticks_insert (cache : Map Pid Sample) (pid other : Pid) (sample : Sample) :
    ((cache.insert pid sample).lookup other).map Sample.ticks =
      if other = pid then some sample.ticks else (cache.lookup other).map Sample.ticks := by
  rw [lookup_insert_eq]
  split <;> rfl

theorem inv_otherReads (h : Inv s) (pid : Pid) : Inv (step sys s (.otherReads pid)) := by
  unfold step
  dsimp only
  split
  · exact h
  · exact inv_around h (around_caller fun _ _ => rfl)

theorem inv_otherUpdates (h : Inv s) {reading : Pid × Nat} {unixNow : Nat}
    (hQuiet : Undisturbed sys s (.otherUpdates reading unixNow)) :
    Inv (step sys s (.otherUpdates reading unixNow)) := by
  unfold step
  dsimp only
  split
  · next hRead =>
      refine inv_around h (around_caller fun pid hBusy => ?_)
      rw [ticks_insert]
      split
      · next hSame =>
          rw [hSame] at hBusy ⊢
          exact (hQuiet hRead hBusy).symm
      · rfl
  · exact h

theorem inv_otherPrunes (h : Inv s) {live : List Pid}
    (hQuiet : Undisturbed sys s (.otherPrunes live)) :
    Inv (step sys s (.otherPrunes live)) := by
  refine inv_around h (around_caller fun pid hBusy => ?_)
  rw [lookup_retain_key, if_pos (decide_eq_true (hQuiet pid hBusy))]

/-- A step that changes the processes. -/
theorem around_holders {holders : Map Pid Occupant} {burns : List (Key × Instant)}
    (hBurns : ∀ e ∈ burns, e ∈ s.burns ∨ e.2 ≤ s.clock)
    (hKnown : ∀ pid h, s.holders.lookup pid = some h →
      ∃ h', holders.lookup pid = some h' ∧ h.startTime ≤ h'.startTime)
    (hFollows : ∀ pid h', holders.lookup pid = some h' →
      Follows s { s with holders := holders, burns := burns } pid h') :
    Around s { s with holders := holders, burns := burns } where
  check := rfl
  lastActive := rfl
  clock := le_rfl
  burns := hBurns
  releases _ he := Or.inl he
  stopped _ hStopped _ := hStopped
  cache _ _ := rfl
  known := hKnown
  holders := hFollows

theorem around_exits (s : Machine) (pid : Pid) : Around s (step sys s (.exits pid)) := by
  refine around_holders (fun _ he => Or.inl he) (fun other h hHolder => ?_)
    fun other h' hHolder => ?_
  · rw [lookup_adjust_eq]
    split
    · next hSame =>
        rw [hSame] at hHolder
        exact ⟨{ h with alive := false }, by rw [hHolder]; rfl, le_rfl⟩
    · exact ⟨h, hHolder, le_rfl⟩
  · rw [lookup_adjust_eq] at hHolder
    split at hHolder
    · next hSame =>
        obtain ⟨h, hOld, rfl⟩ := Option.map_eq_some_iff.mp hHolder
        rw [hSame]
        exact Or.inl ⟨h, hOld, rfl, nofun, Or.inl ⟨rfl, fun _ he _ => he⟩⟩
    · exact Or.inl ⟨h', hHolder, rfl, id, Or.inl ⟨rfl, fun _ he _ => he⟩⟩

theorem around_burns (s : Machine) {pid : Pid} {h : Occupant}
    (hOccupant : s.occupant pid = some h) :
    Around s
      { s with
        holders := s.holders.insert pid { h with ticks := h.ticks + 1 }
        burns := s.burns ++ [((pid, h.startTime), s.clock)] } := by
  obtain ⟨hHolder, hAlive⟩ := occupant_eq_some_iff.mp hOccupant
  refine around_holders (fun e he => ?_) (fun other h0 hOld => ?_) fun other h' hNew => ?_
  · refine (List.mem_append.mp he).imp_right fun hLast => ?_
    rw [List.mem_singleton.mp hLast]
  · rw [lookup_insert_eq]
    split
    · next hSame =>
        rw [hSame, hHolder] at hOld
        cases hOld
        exact ⟨_, rfl, le_rfl⟩
    · exact ⟨h0, hOld, le_rfl⟩
  · rw [lookup_insert_eq] at hNew
    split at hNew
    · next hSame =>
        cases hNew
        rw [hSame]
        exact Or.inl ⟨h, hHolder, rfl, fun _ => hAlive, Or.inr (Nat.lt_succ_self _)⟩
    · next hOther =>
        refine Or.inl ⟨h', hNew, rfl, id, Or.inl ⟨rfl, fun e he hPid => ?_⟩⟩
        refine (List.mem_append.mp he).resolve_right fun hLast => hOther ?_
        rw [List.mem_singleton.mp hLast] at hPid
        exact hPid.symm

theorem lookup_startProcess {holders : Map Pid Occupant} {pid other : Pid} {startTime : Nat}
    {h' : Occupant} (h : (startProcess holders pid startTime).lookup other = some h') :
    holders.lookup other = some h' ∨ other = pid ∧ h'.startTime = startTime ∧
      ∀ h, holders.lookup pid = some h → h.startTime < startTime := by
  unfold startProcess at h
  split at h
  · next hNone =>
      rw [lookup_insert_eq] at h
      split at h
      · next hSame =>
          cases h
          exact Or.inr ⟨hSame, rfl, fun h hHolder => by rw [hNone] at hHolder; cases hHolder⟩
      · exact Or.inl h
  · next old hOld =>
      split at h
      · exact Or.inl h
      · next hFree =>
          rw [lookup_insert_eq] at h
          split at h
          · next hSame =>
              cases h
              refine Or.inr ⟨hSame, rfl, fun h hHolder => ?_⟩
              rw [hOld] at hHolder
              cases hHolder
              exact not_le.mp fun hLe => hFree (Or.inr hLe)
          · exact Or.inl h

theorem startProcess_known {holders : Map Pid Occupant} {pid other : Pid} {startTime : Nat}
    {h : Occupant} (hHolder : holders.lookup other = some h) :
    ∃ h', (startProcess holders pid startTime).lookup other = some h' ∧
      h.startTime ≤ h'.startTime := by
  have hSome : ∃ h', (startProcess holders pid startTime).lookup other = some h' := by
    unfold startProcess
    split
    · rw [lookup_insert_eq]
      split
      · exact ⟨_, rfl⟩
      · exact ⟨h, hHolder⟩
    · split
      · exact ⟨h, hHolder⟩
      · rw [lookup_insert_eq]
        split
        · exact ⟨_, rfl⟩
        · exact ⟨h, hHolder⟩
  obtain ⟨h', hNew⟩ := hSome
  refine ⟨h', hNew, ?_⟩
  rcases lookup_startProcess hNew with hSame | ⟨rfl, hStart, hYounger⟩
  · rw [hHolder] at hSame
    cases hSame
    exact le_rfl
  · rw [hStart]
    exact (hYounger h hHolder).le

/-- A new process has no clock, as clocks are those of earlier ones. -/
theorem around_starts (h : Inv s) {pid : Pid} {startTime : Nat}
    (hQuiet : Undisturbed sys s (.starts pid startTime)) :
    Around s (step sys s (.starts pid startTime)) := by
  refine around_holders (fun _ he => Or.inl he) (fun other holder hHolder => ?_)
    fun other holder' hHolder' => ?_
  · exact startProcess_known hHolder
  · rcases lookup_startProcess hHolder' with hSame | ⟨rfl, hStart, hYounger⟩
    · exact Or.inl ⟨holder', hSame, rfl, id, Or.inl ⟨rfl, fun _ he _ => he⟩⟩
    · refine Or.inr ⟨hQuiet, ?_⟩
      cases hClock : s.lastActive.lookup (other, holder'.startTime) with
      | none => rfl
      | some since =>
          obtain ⟨holder, hHolder, hLe⟩ := h.known _ since hClock
          have hLt := hYounger holder hHolder
          rw [hStart] at hLe
          exact absurd hLe (not_le.mpr hLt)

theorem inv_burns (h : Inv s) (pid : Pid) : Inv (step sys s (.burns pid)) := by
  unfold step
  dsimp only
  split
  · exact h
  · next hOccupant => exact inv_around h (around_burns s hOccupant)

end Around

/-! ## The check goes on -/

section Check

variable {sys : Sysconf} {s : Machine}

/-- The check goes on and changes nothing else: it forgets no activity, unless it
drops the process. -/
theorem inv_check (h : Inv s) {check : Check}
    (hDropped : ∀ pid, s.check.dropped pid → check.dropped pid)
    (hShown : ∀ row ∈ s.check.rows, row ∈ check.rows ∨ check.dropped row.pid)
    (hNow : ∀ now, check.now = some now → s.check.now = some now ∨ now = s.clock)
    (hReading : ∀ row, check.current = some row → ∀ h, s.holders.lookup row.pid = some h →
      ∀ ticks, row.ticks = some ticks → ticks ≤ h.ticks)
    (hRows : ∀ row ∈ check.rows, row ∈ s.check.rows ∨ row.ticks = none ∧ check.now = none)
    (hKeyed : ∀ e ∈ check.keyed, e ∈ s.check.keyed ∨ e.1.1 = e.2.pid ∧
      ∃ h, s.holders.lookup e.1.1 = some h ∧ e.1.2 = h.startTime)
    (hPresent : ∀ e ∈ check.keyed, ¬ check.dropped e.1.1)
    (hNodup : check.pids.Nodup) : Inv { s with check := check } where
  burnsPast := h.burnsPast
  releasesPast := h.releasesPast
  nowPast now hSome := by
    rcases hNow now hSome with hOld | hClock
    · exact h.nowPast now hOld
    · exact hClock.le
  known := h.known
  watched pid holder hOccupant since hClock := by
    have hWatched := h.watched pid holder hOccupant since hClock
    refine ⟨?_, hWatched.unstopped, hWatched.released⟩
    rcases hWatched.sample with hGone | ⟨ticks, hSample, hLe, hSeen⟩
    · exact Or.inl (hDropped pid hGone)
    by_cases hGone : check.dropped pid
    · exact Or.inl hGone
    refine Or.inr ⟨ticks, hSample, hLe, fun hEq => (hSeen hEq).imp_right ?_⟩
    rintro ⟨row, hRow, rfl, hActive⟩
    exact ⟨row, (hShown row hRow).resolve_right hGone, rfl, hActive⟩
  reading := hReading
  sampled row hRow holder hHolder := by
    rcases hRows row hRow with hOld | ⟨hNone, hBefore⟩
    · have hSampled := h.sampled row hOld holder hHolder
      refine ⟨fun ticks hRead => ?_, fun now hSome => ?_⟩
      · obtain ⟨hLe, hSample, hQuiet⟩ := hSampled.ticks ticks hRead
        refine ⟨hLe, hSample, fun now hSome hEq => ?_⟩
        rcases hNow now hSome with hNowOld | hClock
        · exact hQuiet now hNowOld hEq
        · rw [hClock]
          exact fun e he _ => h.burnsPast e he
      · rcases hNow now hSome with hNowOld | hClock
        · exact hSampled.released now hNowOld
        · rw [hClock]
          exact fun e he _ => h.releasesPast e he
    · refine ⟨fun ticks hRead => ?_, fun now hSome => ?_⟩
      · rw [hNone] at hRead
        cases hRead
      · rw [hBefore] at hSome
        cases hSome
  keyed e he := (hKeyed e he).elim (h.keyed e) id
  present := hPresent
  nodup := hNodup

theorem inv_lists (h : Inv s) (cfg : CompiledConfig) : Inv (step sys s (.lists cfg)) := by
  unfold step
  dsimp only
  split
  · next hOff =>
      split
      · exact h
      refine inv_check h (fun pid hGone => ?_) (fun row hRow => ?_) (fun _ hSome => nomatch hSome)
        (fun _ hRow => nomatch hRow) (fun _ hRow => nomatch hRow) (fun _ he => nomatch he)
        (fun _ he => nomatch he) List.nodup_nil
      · rw [hOff] at hGone
        exact hGone
      · rw [hOff] at hRow
        cases hRow
  · exact h

theorem inv_reads (h : Inv s) (p : Process) (readable : Bool) :
    Inv (step sys s (.reads p readable)) := by
  unfold step
  dsimp only
  split
  · next cfg rows holder hListing hOccupant =>
      split
      · exact h
      next hNew =>
      have hRows : s.check.rows = rows := by
        rw [hListing]
        rfl
      have hNodup := h.nodup
      rw [hListing] at hNodup
      refine inv_check h (fun pid hGone => ?_) (fun row hRow => ?_) (fun _ hSome => nomatch hSome)
        ?_ (fun row hRow => ?_) (fun _ he => nomatch he) (fun _ he => nomatch he)
        (List.nodup_cons.mpr ⟨hNew, hNodup⟩)
      · rw [hListing] at hGone
        exact hGone
      · rw [hRows] at hRow
        exact Or.inl hRow
      · intro row hCurrent other hOther ticks hRead
        cases hCurrent
        obtain ⟨hHolder, -⟩ := occupant_eq_some_iff.mp hOccupant
        have hSame : other = holder := Option.some.inj (hOther.symm.trans hHolder)
        dsimp only at hRead
        split at hRead
        · cases hRead
          rw [hSame]
        · cases hRead
      · rw [hRows]
        exact Or.inl hRow
  · exact h

theorem inv_takesNow (h : Inv s) : Inv (step sys s .takesNow) := by
  unfold step
  dsimp only
  split
  · next cfg rows hListed =>
      have hRows : s.check.rows = rows := by
        rw [hListed]
        rfl
      have hNodup := h.nodup
      rw [hListed] at hNodup
      have hAll : (Check.keying cfg s.clock rows []).rows = rows := List.append_nil rows
      refine inv_check h (fun pid hGone => ?_) (fun row hRow => ?_) (fun now hSome => ?_)
        (fun _ hRow => nomatch hRow) (fun row hRow => ?_) (fun _ he => nomatch he)
        (fun _ he => nomatch he) ?_
      · rw [hListed] at hGone
        exact ⟨hGone, List.not_mem_nil⟩
      · rw [hRows] at hRow
        rw [hAll]
        exact Or.inl hRow
      · cases hSome
        exact Or.inr rfl
      · rw [hAll] at hRow
        rw [hRows]
        exact Or.inl hRow
      · unfold Check.pids
        rw [hAll]
        exact hNodup
  · exact h

theorem present_keying (cfg : CompiledConfig) (now : Instant) (rest : List Row)
    (live : List (Key × Row)) :
    ∀ e ∈ (Check.keying cfg now rest live).keyed,
      ¬ (Check.keying cfg now rest live).dropped e.1.1 :=
  fun e he hGone => hGone.2 (List.mem_map.mpr ⟨e, he, rfl⟩)

/-- The row before the check is taken out: its PID is nowhere else. -/
theorem not_mem_of_head {row : Row} {rest : List Row} {live : List (Key × Row)}
    (hKeyed : ∀ e ∈ live, e.1.1 = e.2.pid)
    (hNodup : ((row :: rest ++ live.map Prod.snd).map Row.pid).Nodup) :
    row.pid ∉ rest.map Row.pid ∧ row.pid ∉ live.map fun e => e.1.1 := by
  rw [List.cons_append, List.map_cons, List.nodup_cons, List.map_append, List.mem_append,
    not_or] at hNodup
  refine ⟨hNodup.1.1, fun hMem => hNodup.1.2 ?_⟩
  obtain ⟨e, he, hPid⟩ := List.mem_map.mp hMem
  rw [List.map_map]
  exact List.mem_map.mpr ⟨e, he, (hKeyed e he).symm.trans hPid⟩

theorem inv_skipsRow (h : Inv s) {cfg : CompiledConfig} {now : Instant} {row : Row}
    {rest : List Row} {live : List (Key × Row)}
    (hKeying : s.check = .keying cfg now (row :: rest) live) :
    Inv { s with check := .keying cfg now rest live } := by
  have hNodup := h.nodup
  have hKeyed := h.keyed
  have hNow := h.nowPast
  rw [hKeying] at hNodup hKeyed
  have hGone := not_mem_of_head (fun e he => (hKeyed e he).1) hNodup
  refine inv_check h (fun pid hDropped => ?_) (fun other hRow => ?_) (fun t hSome => ?_)
    (fun _ hRow => nomatch hRow) (fun other hRow => ?_)
    (fun e he => ?_) (present_keying cfg now rest live) ?_
  · rw [hKeying] at hDropped
    exact ⟨fun hMem => hDropped.1 (List.mem_cons_of_mem _ hMem), hDropped.2⟩
  · rw [hKeying] at hRow
    rcases List.mem_cons.mp hRow with rfl | hRest
    · exact Or.inr hGone
    · exact Or.inl hRest
  · rw [hKeying]
    exact Or.inl hSome
  · rw [hKeying]
    exact Or.inl (List.mem_cons_of_mem _ hRow)
  · rw [hKeying]
    exact Or.inl he
  · exact (List.nodup_cons.mp hNodup).2

theorem inv_keysRow (h : Inv s) {cfg : CompiledConfig} {now : Instant} {row : Row}
    {rest : List Row} {live : List (Key × Row)} {holder : Occupant}
    (hKeying : s.check = .keying cfg now (row :: rest) live)
    (hHolder : s.holders.lookup row.pid = some holder) :
    Inv { s with
      check := .keying cfg now rest (live ++ [((row.pid, holder.startTime), row)]) } := by
  have hPerm : (Check.keying cfg now rest (live ++ [((row.pid, holder.startTime), row)])).rows.Perm
      s.check.rows := by
    rw [hKeying]
    simp only [Check.rows, List.map_append, List.map_cons, List.map_nil, List.cons_append,
      ← List.append_assoc]
    exact List.perm_append_singleton row _
  refine inv_check h (fun pid hDropped => ?_) (fun other hRow => Or.inl (hPerm.mem_iff.mpr hRow))
    (fun t hSome => ?_) (fun _ hRow => nomatch hRow)
    (fun other hRow => Or.inl (hPerm.mem_iff.mp hRow))
    (fun e he => ?_) (present_keying cfg now rest _) ?_
  · rw [hKeying] at hDropped
    refine ⟨fun hMem => hDropped.1 (List.mem_cons_of_mem _ hMem), fun hMem => ?_⟩
    rw [List.map_append, List.mem_append] at hMem
    refine hMem.elim hDropped.2 fun hLast => hDropped.1 ?_
    rw [List.mem_singleton.mp hLast]
    exact List.mem_cons_self
  · rw [hKeying]
    exact Or.inl hSome
  · rw [hKeying]
    refine (List.mem_append.mp he).imp_right fun hLast => ?_
    rw [List.mem_singleton.mp hLast]
    exact ⟨rfl, holder, hHolder, rfl⟩
  · have hNodup := h.nodup
    unfold Check.pids at hNodup ⊢
    rw [hKeying] at hNodup hPerm
    exact (hPerm.map Row.pid).nodup_iff.mpr hNodup

theorem inv_readsStartTime (h : Inv s) (readable : Bool) :
    Inv (step sys s (.readsStartTime readable)) := by
  unfold step
  dsimp only
  split
  · next cfg now live hKeying =>
      have hNodup := h.nodup
      rw [hKeying] at hNodup
      refine inv_check h (fun pid hDropped => ?_) (fun row hRow => ?_) (fun t hSome => ?_)
        (fun _ hRow => nomatch hRow) (fun row hRow => ?_) (fun e he => ?_)
        (fun e he hGone => ?_) hNodup
      · rw [hKeying] at hDropped
        exact hDropped.2
      · rw [hKeying] at hRow
        exact Or.inl hRow
      · rw [hKeying]
        exact Or.inl hSome
      · rw [hKeying]
        exact Or.inl hRow
      · rw [hKeying]
        exact Or.inl he
      · exact hGone (List.mem_map.mpr ⟨e, he, rfl⟩)
  · next cfg now row rest live hKeying =>
      split
      · next holder hOccupant =>
          split
          · exact inv_keysRow h hKeying (occupant_eq_some_iff.mp hOccupant).1
          · exact inv_skipsRow h hKeying
      · exact inv_skipsRow h hKeying
  · exact h

/-- The cache changes for none but the processes the check has dropped. -/
theorem inv_cache (h : Inv s) {cache : Map Pid Sample}
    (hSame : ∀ pid, s.check.dropped pid ∨ cache.lookup pid = s.cpuCache.lookup pid)
    (hRows : ∀ row ∈ s.check.rows, cache.lookup row.pid = s.cpuCache.lookup row.pid) :
    Inv { s with cpuCache := cache } where
  burnsPast := h.burnsPast
  releasesPast := h.releasesPast
  nowPast := h.nowPast
  known := h.known
  watched pid holder hOccupant since hClock := by
    have hWatched := h.watched pid holder hOccupant since hClock
    refine ⟨?_, hWatched.unstopped, hWatched.released⟩
    refine (hSame pid).elim Or.inl fun hLookup => hWatched.sample.imp_right ?_
    rintro ⟨ticks, hSample, hRest⟩
    exact ⟨ticks, hLookup.symm ▸ hSample, hRest⟩
  reading := h.reading
  sampled row hRow holder hHolder := by
    have hSampled := h.sampled row hRow holder hHolder
    refine ⟨fun ticks hRead => ?_, hSampled.released⟩
    obtain ⟨hLe, hSample, hQuiet⟩ := hSampled.ticks ticks hRead
    exact ⟨hLe, (hRows row hRow).symm ▸ hSample, hQuiet⟩
  keyed := h.keyed
  present := h.present
  nodup := h.nodup

theorem inv_prunes (h : Inv s) : Inv (step sys s .prunes) := by
  unfold step
  dsimp only
  split
  · next cfg rows hListing =>
      have hNodup := h.nodup
      rw [hListing] at hNodup
      have hListed : Inv { s with check := .listed cfg rows } := by
        refine inv_check h (fun pid hDropped => ?_) (fun row hRow => ?_)
          (fun _ hSome => nomatch hSome) (fun _ hRow => nomatch hRow) (fun row hRow => ?_)
          (fun _ he => nomatch he) (fun _ he => nomatch he) hNodup
        · rw [hListing] at hDropped
          cases hDropped
        · rw [hListing] at hRow
          exact Or.inl hRow
        · rw [hListing]
          exact Or.inl hRow
      refine inv_cache hListed (fun pid => ?_) fun row hRow => ?_
      · by_cases hMem : pid ∈ rows.map Row.pid
        · exact Or.inr ((lookup_retain_key _ _ _).trans (if_pos (decide_eq_true hMem)))
        · exact Or.inl hMem
      · exact (lookup_retain_key _ _ _).trans
          (if_pos (decide_eq_true (List.mem_map_of_mem hRow)))
  · exact h

theorem inv_addsRow (h : Inv s) {cfg : CompiledConfig} {rows : List Row} {row : Row}
    (hReading : s.check = .reading cfg rows row) (hNone : row.ticks = none) (pct : ℚ) :
    Inv { s with check := .listing cfg (rows ++ [row.withPct pct]) } := by
  have hNodup := h.nodup
  rw [hReading] at hNodup
  refine inv_check h (fun pid hDropped => ?_) (fun other hRow => ?_)
    (fun _ hSome => nomatch hSome) (fun _ hRow => nomatch hRow) (fun other hRow => ?_)
    (fun _ he => nomatch he) (fun _ he => nomatch he) ?_
  · rw [hReading] at hDropped
    cases hDropped
  · rw [hReading] at hRow
    exact Or.inl (List.mem_append_left _ hRow)
  · rw [hReading]
    refine (List.mem_append.mp hRow).imp_right fun hLast => ?_
    rw [List.mem_singleton.mp hLast]
    exact ⟨hNone, rfl⟩
  · exact ((List.perm_append_singleton (row.withPct pct) rows).map Row.pid).nodup_iff.mpr hNodup

/-- What the check has not sampled before, it shows. -/
theorem watched_of_sampled (h : Inv s) {cfg : CompiledConfig} {rows : List Row} {row : Row}
    {ticks unixNow : Nat} (hReading : s.check = .reading cfg rows row)
    (hTicks : row.ticks = some ticks) (hShows : ShowsActivity sys s unixNow) {pid : Pid}
    {holder : Occupant} (hOccupant : s.occupant pid = some holder) {since : Instant}
    (hClock : s.lastActive.lookup (pid, holder.startTime) = some since) :
    Watched { s with
      cpuCache := s.cpuCache.insert row.pid ⟨ticks, unixNow⟩
      check := .listing cfg (rows ++
        [row.withPct (computeCpuPct sys (s.cpuCache.lookup row.pid) ticks unixNow)]) }
      pid holder since := by
  have hWatched := h.watched pid holder hOccupant since hClock
  have hReadingRow := h.reading row
  unfold ShowsActivity at hShows
  refine ⟨Or.inr ?_, hWatched.unstopped, hWatched.released⟩
  dsimp only
  rw [ticks_insert]
  have hListed : ¬ s.check.dropped pid := by
    rw [hReading]
    exact id
  obtain ⟨last, hLast, hLe, hSeen⟩ := hWatched.sample.resolve_left hListed
  rw [hReading] at hSeen hShows hReadingRow
  -- the rows that showed activity are still there
  have hStill : ∀ p ∈ rows, p ∈ rows ++
      [row.withPct (computeCpuPct sys (s.cpuCache.lookup row.pid) ticks unixNow)] :=
    fun p hp => List.mem_append_left _ hp
  split
  · next hSame =>
      subst hSame
      refine ⟨ticks, rfl,
        hReadingRow rfl holder (occupant_eq_some_iff.mp hOccupant).1 ticks hTicks, fun hEq => ?_⟩
      by_cases hKept : ticks = last
      · refine (hSeen (hKept ▸ hEq)).imp_right ?_
        rintro ⟨other, hOther, hPid, hActive⟩
        exact ⟨other, hStill other hOther, hPid, hActive⟩
      · obtain ⟨sample, hLookup, rfl⟩ := Option.map_eq_some_iff.mp hLast
        have hActive := hShows row rfl ticks hTicks holder hOccupant since hClock sample
          hLookup hKept
        refine Or.inr ⟨_, List.mem_append_right _ List.mem_cons_self, rfl, ?_⟩
        rw [← hLookup] at hActive
        exact hActive
  · refine ⟨last, hLast, hLe, fun hEq => (hSeen hEq).imp_right ?_⟩
    rintro ⟨other, hOther, hPid, hActive⟩
    exact ⟨other, hStill other hOther, hPid, hActive⟩

/-- The check leaves its sample. -/
theorem inv_samplesRow (h : Inv s) {cfg : CompiledConfig} {rows : List Row} {row : Row}
    {ticks unixNow : Nat} (hReading : s.check = .reading cfg rows row)
    (hTicks : row.ticks = some ticks) (hShows : ShowsActivity sys s unixNow) :
    Inv { s with
      cpuCache := s.cpuCache.insert row.pid ⟨ticks, unixNow⟩
      check := .listing cfg (rows ++
        [row.withPct (computeCpuPct sys (s.cpuCache.lookup row.pid) ticks unixNow)]) } := by
  have hReadingRow := h.reading row
  have hSampledRows := h.sampled
  have hNodup := h.nodup
  rw [hReading] at hReadingRow hSampledRows hNodup
  refine ⟨h.burnsPast, h.releasesPast, (fun _ hSome => nomatch hSome), h.known,
    fun pid holder hOccupant since hClock =>
      watched_of_sampled h hReading hTicks hShows hOccupant hClock,
    (fun _ hRow => nomatch hRow), ?_, (fun _ he => nomatch he), (fun _ he => nomatch he),
    ((List.perm_append_singleton _ rows).map Row.pid).nodup_iff.mpr hNodup⟩
  intro other hOther holder hHolder
  refine ⟨fun read hRead => ?_, nofun⟩
  dsimp only
  rw [ticks_insert]
  rcases List.mem_append.mp hOther with hOld | hNew
  · have hDistinct : other.pid ≠ row.pid := fun hSame =>
      (List.nodup_cons.mp hNodup).1 (List.mem_map.mpr ⟨other, hOld, hSame⟩)
    obtain ⟨hLe, hCache, -⟩ := (hSampledRows other hOld holder hHolder).ticks read hRead
    rw [if_neg hDistinct]
    exact ⟨hLe, hCache, nofun⟩
  · rw [List.mem_singleton.mp hNew] at hHolder hRead ⊢
    have hSame : ticks = read := Option.some.inj (hTicks.symm.trans hRead)
    rw [hSame]
    exact ⟨hReadingRow rfl holder hHolder read hRead, if_pos rfl, nofun⟩

theorem updateRow_of_none {cache : Map Pid Sample} {unixNow : Nat} {row : Row}
    (hTicks : row.ticks = none) : updateRow sys cache unixNow row = (cache, row.withPct 0) := by
  unfold updateRow
  rw [hTicks]

theorem updateRow_of_some {cache : Map Pid Sample} {unixNow ticks : Nat} {row : Row}
    (hTicks : row.ticks = some ticks) :
    updateRow sys cache unixNow row =
      (cache.insert row.pid ⟨ticks, unixNow⟩,
        row.withPct (computeCpuPct sys (cache.lookup row.pid) ticks unixNow)) := by
  unfold updateRow
  rw [hTicks]

theorem inv_updates (h : Inv s) {unixNow : Nat}
    (hQuiet : Undisturbed sys s (.updates unixNow)) : Inv (step sys s (.updates unixNow)) := by
  unfold step
  dsimp only
  split
  · next cfg rows row hReading =>
      cases hTicks : row.ticks with
      | none =>
          rw [updateRow_of_none hTicks]
          exact inv_addsRow h hReading hTicks 0
      | some ticks =>
          rw [updateRow_of_some hTicks]
          exact inv_samplesRow h hReading hTicks hQuiet
  · exact h

end Check

/-! ## The loop -/

section Loop

variable {sys : Sysconf} {s : Machine} {key : Key}

/-- The clock of a process after the loop body. -/
def sinceOf (tick : MaintenanceTick) (lastActive : LastActive) (key : Key) (p : Process) :
    Instant :=
  if p.cpuPct > 1 / 10 then tick.now else (lastActive.lookup key).getD tick.now

theorem checkIdle_of_rule {tick : MaintenanceTick} {frozen : FrozenRegistry}
    {lastActive : LastActive} {p : Process} {secs : Nat}
    (hRule : tick.cfg.autoKillIdleAfterFor p.name = some secs)
    (hFree : frozen.isFrozen p.pid = false) :
    Maintenance.checkIdle tick frozen lastActive key p =
      if secs ≤ Instant.secsSince tick.now (sinceOf tick lastActive key p) then
        (lastActive.erase key, [p.pid])
      else (lastActive.insert key (sinceOf tick lastActive key p), []) := by
  unfold Maintenance.checkIdle sinceOf
  rw [hRule, hFree]
  rfl

theorem checkIdle_of_skipped {tick : MaintenanceTick} {frozen : FrozenRegistry}
    {lastActive : LastActive} {p : Process}
    (hSkipped : tick.cfg.autoKillIdleAfterFor p.name = none ∨ frozen.isFrozen p.pid = true) :
    Maintenance.checkIdle tick frozen lastActive key p = (lastActive, []) := by
  unfold Maintenance.checkIdle
  rcases hSkipped with hNone | hFrozen
  · rw [hNone]
  · split
    · rfl
    · rw [if_pos hFrozen]

theorem due_eq_some {due : CompiledConfig × Instant × Row} (h : s.due key = some due) :
    ∃ live pending, s.check = .handling due.1 due.2.1 live pending ∧ (key, due.2.2) ∈ pending := by
  unfold Machine.due at h
  split at h
  · next cfg now live pending hCheck =>
      obtain ⟨e, hFind, rfl⟩ := Option.map_eq_some_iff.mp h
      have hFound := List.find?_some hFind
      have hKey : e.1 = key := of_decide_eq_true hFound
      refine ⟨live, pending, hCheck, ?_⟩
      rw [← hKey]
      exact List.mem_of_find?_eq_some hFind
  · cases h

theorem evaluated_or_skipped (s : Machine) (due : CompiledConfig × Instant × Row) :
    Evaluated s due ∨ due.1.autoKillIdleAfterFor due.2.2.process.name = none ∨
      s.frozen.isFrozen due.2.2.pid = true := by
  unfold Evaluated
  cases due.1.autoKillIdleAfterFor due.2.2.process.name with
  | none => exact Or.inr (Or.inl rfl)
  | some secs =>
      cases s.frozen.isFrozen due.2.2.pid with
      | true => exact Or.inr (Or.inr rfl)
      | false => exact Or.inl ⟨⟨secs, rfl⟩, rfl⟩

/-- What the check knows of a process that the loop comes to. -/
theorem known_of_due (h : Inv s) {due : CompiledConfig × Instant × Row}
    (hDue : s.due key = some due) {holder : Occupant}
    (hHolder : s.holders.lookup due.2.2.pid = some holder) :
    key = (due.2.2.pid, holder.startTime) ∧ ¬ s.check.dropped due.2.2.pid ∧
      due.2.2 ∈ s.check.rows ∧ s.check.now = some due.2.1 ∧ Sampled s due.2.2 holder := by
  obtain ⟨live, pending, hCheck, hMem⟩ := due_eq_some hDue
  have hKeyed : (key, due.2.2) ∈ s.check.keyed := by
    rw [hCheck]
    exact hMem
  have hRow : due.2.2 ∈ s.check.rows := rows_of_keyed hKeyed
  obtain ⟨hPid, old, hOld, hStart⟩ := h.keyed _ hKeyed
  have hGone := h.present _ hKeyed
  dsimp only at hPid hOld hStart hGone
  rw [hPid] at hOld hGone
  have hSame : old = holder := Option.some.inj (hOld.symm.trans hHolder)
  refine ⟨Prod.ext hPid (hSame ▸ hStart), hGone, hRow, ?_, h.sampled _ hRow holder hHolder⟩
  rw [hCheck]
  rfl

/-- The process has been idle since then, or its sample is behind. -/
structure IdleSince (s : Machine) (pid : Pid) (h : Occupant) (since : Instant) : Prop where
  sample : ∃ ticks, (s.cpuCache.lookup pid).map Sample.ticks = some ticks ∧ ticks ≤ h.ticks ∧
    (ticks = h.ticks → Before s.burns (pid, h.startTime) since)
  unstopped : (pid, h.startTime) ∉ s.stopped
  released : Before s.releases (pid, h.startTime) since

/-- No ledger has a process that the loop does not skip and that is no victim. -/
theorem not_stopped {due : CompiledConfig × Instant × Row} {holder : Occupant}
    (hSettled : Settled s key due holder) (hEvaluated : Evaluated s due) :
    (due.2.2.pid, holder.startTime) ∉ s.stopped := by
  intro hStopped
  rcases List.mem_append.mp hStopped with hFrozen | hVictim
  · obtain ⟨e, he, hKey⟩ := List.mem_map.mp hFrozen
    have hPid : e.1 = due.2.2.pid := congrArg Prod.fst hKey
    have hLookup : s.frozen.frozen.lookup due.2.2.pid = some e.2 := by
      rw [← hPid]
      exact lookup_eq_some_iff.mpr he
    have hIs := (s.frozen.isFrozen_iff due.2.2.pid).mpr ⟨e.2, hLookup⟩
    rw [hEvaluated.2] at hIs
    cases hIs
  · obtain ⟨e, he, hKey⟩ := List.mem_map.mp hVictim
    have hPid : e.1 = due.2.2.pid := congrArg Prod.fst hKey
    have hLookup : s.spikeTracker.victims.lookup due.2.2.pid = some e.2 := by
      rw [← hPid]
      exact lookup_eq_some_iff.mpr he
    exact hSettled.victim hEvaluated e.2 hLookup (congrArg Prod.snd hKey)

/-- **The clock of a process that the loop does not skip** stands for idle time. -/
theorem idleSince_of_settled (h : Inv s) {due : CompiledConfig × Instant × Row}
    (hDue : s.due key = some due) {holder : Occupant}
    (hOccupant : s.occupant due.2.2.pid = some holder) (hSettled : Settled s key due holder)
    (hEvaluated : Evaluated s due) :
    IdleSince s due.2.2.pid holder
      (sinceOf (tickAt due.1 due.2.1) s.lastActive key due.2.2.process) := by
  obtain ⟨hKey, hPresent, hRow, hNow, hSampled⟩ :=
    known_of_due h hDue (occupant_eq_some_iff.mp hOccupant).1
  obtain ⟨ticks, hTicks, hQuiet⟩ := hSettled.ticks hEvaluated
  obtain ⟨hLe, hSample, hBurns⟩ := hSampled.ticks ticks hTicks
  have hNew : IdleSince s due.2.2.pid holder due.2.1 :=
    ⟨⟨ticks, hSample, hLe, hBurns due.2.1 hNow⟩, not_stopped hSettled hEvaluated,
      hSampled.released due.2.1 hNow⟩
  unfold sinceOf
  split
  · exact hNew
  next hIdle =>
  cases hClock : s.lastActive.lookup key with
  | none => exact hNew
  | some since =>
      rw [hKey] at hClock
      have hWatched := h.watched due.2.2.pid holder hOccupant since hClock
      rcases hWatched.sample with hGone | ⟨last, hLast, hLastLe, hSeen⟩
      · exact absurd hGone hPresent
      refine ⟨⟨last, hLast, hLastLe, fun hEq => (hSeen hEq).resolve_right ?_⟩,
        hWatched.unstopped, hWatched.released⟩
      -- a row that shows activity would be this one
      rintro ⟨row, hOther, hPid, hActive⟩
      have hNodup : (s.check.rows.map Row.pid).Nodup := (List.nodup_append.mp h.nodup).2.1
      have hSame : row = due.2.2 := List.inj_on_of_nodup_map hNodup hOther hRow hPid
      rw [hSame] at hActive
      exact hIdle hActive

theorem lookup_checkIdle_of_ne {due : CompiledConfig × Instant × Row} {other : Key}
    (hOther : other ≠ key) :
    (s.checkIdle key due).1.lookup other = s.lastActive.lookup other := by
  unfold Machine.checkIdle
  rcases evaluated_or_skipped s due with ⟨⟨secs, hRule⟩, hFree⟩ | hSkipped
  · rw [checkIdle_of_rule hRule hFree]
    split
    · exact (lookup_erase_eq _ _ _).trans (if_neg hOther)
    · exact (lookup_insert_eq _ _ _ _).trans (if_neg hOther)
  · rw [checkIdle_of_skipped hSkipped]

/-- A clock that the loop leaves a process with stands for idle time. -/
theorem idleSince_of_handled (h : Inv s) {due : CompiledConfig × Instant × Row}
    (hDue : s.due key = some due) {holder : Occupant}
    (hOccupant : s.occupant due.2.2.pid = some holder) (hSettled : Settled s key due holder)
    {since : Instant} (hClock : (s.checkIdle key due).1.lookup key = some since) :
    IdleSince s due.2.2.pid holder since := by
  unfold Machine.checkIdle at hClock
  rcases evaluated_or_skipped s due with hEvaluated | hSkipped
  · obtain ⟨secs, hRule⟩ := hEvaluated.1
    rw [checkIdle_of_rule hRule hEvaluated.2] at hClock
    split at hClock
    · rw [lookup_erase_eq, if_pos rfl] at hClock
      cases hClock
    · rw [lookup_insert_eq, if_pos rfl] at hClock
      cases hClock
      exact idleSince_of_settled h hDue hOccupant hSettled hEvaluated
  · rw [checkIdle_of_skipped hSkipped] at hClock
    obtain ⟨⟨secs, hRule⟩, hFree⟩ := hSettled.evaluated ⟨since, hClock⟩
    rcases hSkipped with hNone | hFrozen
    · rw [hRule] at hNone
      cases hNone
    · rw [hFree] at hFrozen
      cases hFrozen

theorem now_without (check : Check) (key : Key) : (check.without key).now = check.now := by
  cases check <;> rfl

theorem current_without (check : Check) (key : Key) :
    (check.without key).current = check.current := by
  cases check <;> rfl

theorem dropped_without (check : Check) (key : Key) (pid : Pid) :
    (check.without key).dropped pid ↔ check.dropped pid := by
  cases check <;> exact Iff.rfl

theorem keyed_without {check : Check} {key : Key} {e : Key × Row}
    (h : e ∈ (check.without key).keyed) : e ∈ check.keyed := by
  cases check with
  | handling cfg now live pending => exact List.mem_of_mem_filter h
  | _ => exact h

theorem rows_without (check : Check) (key : Key) :
    (check.without key).rows.Sublist check.rows := by
  cases check with
  | handling cfg now live pending => exact List.filter_sublist.map Prod.snd
  | _ => exact List.Sublist.refl _

theorem pids_without (check : Check) (key : Key) :
    (check.without key).pids.Sublist check.pids := by
  unfold Check.pids
  rw [current_without]
  exact (List.Sublist.refl _).append ((rows_without check key).map Row.pid)

/-- The loop leaves the rows of the other processes. -/
theorem rows_of_other (h : Inv s) {due : CompiledConfig × Instant × Row}
    (hDue : s.due key = some due) {row : Row} (hRow : row ∈ s.check.rows)
    (hOther : row.pid ≠ key.1) : row ∈ (s.check.without key).rows := by
  obtain ⟨live, pending, hCheck, -⟩ := due_eq_some hDue
  have hKeyed := h.keyed
  rw [hCheck] at hRow hKeyed ⊢
  obtain ⟨e, he, rfl⟩ := List.mem_map.mp hRow
  have hPid : e.1.1 = e.2.pid := (hKeyed e he).1
  refine List.mem_map.mpr ⟨e, List.mem_filter.mpr ⟨he, decide_eq_true fun hSame => ?_⟩, rfl⟩
  exact hOther (hPid.symm.trans (congrArg Prod.fst hSame))

/-- What is known of a process that the loop has not come to stays so. -/
theorem watched_of_other (h : Inv s) {due : CompiledConfig × Instant × Row}
    (hDue : s.due key = some due) {pid : Pid} {holder : Occupant} {since : Instant}
    (hOther : pid ≠ key.1) (hWatched : Watched s pid holder since) (lastActive : LastActive) :
    Watched { s with lastActive := lastActive, check := s.check.without key } pid holder since := by
  refine ⟨?_, hWatched.unstopped, hWatched.released⟩
  refine hWatched.sample.imp (dropped_without s.check key pid).mpr ?_
  rintro ⟨ticks, hSample, hLe, hSeen⟩
  refine ⟨ticks, hSample, hLe, fun hEq => (hSeen hEq).imp_right ?_⟩
  rintro ⟨row, hRow, rfl, hActive⟩
  exact ⟨row, rows_of_other h hDue hRow hOther, rfl, hActive⟩

/-- **The loop body.** -/
theorem inv_handles (h : Inv s) (hQuiet : Undisturbed sys s (.handles key)) :
    Inv (step sys s (.handles key)) := by
  unfold step
  dsimp only
  split
  swap
  · exact h
  next due hDue =>
  have hKey : key.1 = due.2.2.pid ∧
      ∃ holder, s.holders.lookup key.1 = some holder ∧ key.2 = holder.startTime := by
    obtain ⟨live, pending, hCheck, hMem⟩ := due_eq_some hDue
    refine h.keyed (key, due.2.2) ?_
    rw [hCheck]
    exact hMem
  have hNow := now_without s.check key
  refine ⟨h.burnsPast, h.releasesPast, ?_, ?_, ?_, ?_, ?_, ?_, ?_, ?_⟩
  · exact fun now hSome => h.nowPast now (hNow.symm.trans hSome)
  · intro other since hClock
    by_cases hOther : other = key
    · obtain ⟨holder, hHolder, hStart⟩ := hKey.2
      rw [hOther]
      exact ⟨holder, hHolder, hStart.le⟩
    · rw [lookup_checkIdle_of_ne hOther] at hClock
      exact h.known other since hClock
  · intro pid holder hOccupant since hClock
    by_cases hMine : pid = key.1
    · rw [hMine, hKey.1] at hOccupant hClock ⊢
      have hKnown := (known_of_due h hDue (occupant_eq_some_iff.mp hOccupant).1).1
      rw [← hKnown] at hClock
      have hIdle := idleSince_of_handled h hDue hOccupant (hQuiet due hDue holder hOccupant) hClock
      obtain ⟨ticks, hSample, hLe, hBurns⟩ := hIdle.sample
      exact ⟨Or.inr ⟨ticks, hSample, hLe, fun hEq => Or.inl (hBurns hEq)⟩, hIdle.unstopped,
        hIdle.released⟩
    · have hOther : (pid, holder.startTime) ≠ key := fun hSame => hMine (congrArg Prod.fst hSame)
      rw [lookup_checkIdle_of_ne hOther] at hClock
      exact watched_of_other h hDue hMine (h.watched pid holder hOccupant since hClock) _
  · exact fun row hCurrent => h.reading row ((current_without s.check key).symm.trans hCurrent)
  · intro row hRow holder hHolder
    have hSampled := h.sampled row ((rows_without s.check key).subset hRow) holder hHolder
    refine ⟨fun ticks hTicks => ?_, fun now hSome => hSampled.released now (hNow.symm.trans hSome)⟩
    obtain ⟨hLe, hSample, hBurns⟩ := hSampled.ticks ticks hTicks
    exact ⟨hLe, hSample, fun now hSome => hBurns now (hNow.symm.trans hSome)⟩
  · exact fun e he => h.keyed e (keyed_without he)
  · exact fun e he hGone => h.present e (keyed_without he) ((dropped_without _ _ _).mp hGone)
  · exact h.nodup.sublist (pids_without s.check key)

/-- The clocks of processes that were not listed are dropped with the list. -/
theorem inv_finishes (h : Inv s) : Inv (step sys s .finishes) := by
  unfold step
  dsimp only
  split
  · next cfg now live hCheck =>
      have hKept : ∀ key since, (retain (fun key _ => decide (key ∈ live.map Prod.fst))
          s.lastActive).lookup key = some since →
            key ∈ live.map Prod.fst ∧ s.lastActive.lookup key = some since := by
        intro key since hClock
        rw [lookup_retain_key] at hClock
        split at hClock
        · next hLive => exact ⟨of_decide_eq_true hLive, hClock⟩
        · cases hClock
      refine ⟨h.burnsPast, h.releasesPast, (fun _ hSome => nomatch hSome), ?_, ?_,
        (fun _ hRow => nomatch hRow), (fun _ hRow => nomatch hRow), (fun _ he => nomatch he),
        (fun _ he => nomatch he), List.nodup_nil⟩
      · exact fun key since hClock => h.known key since (hKept key since hClock).2
      · intro pid holder hOccupant since hClock
        obtain ⟨hLive, hOld⟩ := hKept _ since hClock
        have hWatched := h.watched pid holder hOccupant since hOld
        refine ⟨Or.inr ?_, hWatched.unstopped, hWatched.released⟩
        rcases hWatched.sample with hGone | ⟨ticks, hSample, hLe, hSeen⟩
        · rw [hCheck] at hGone
          obtain ⟨e, he, hKey⟩ := List.mem_map.mp hLive
          have hListed : pid ∈ live.map fun e => e.1.1 :=
            List.mem_map.mpr ⟨e, he, congrArg Prod.fst hKey⟩
          exact absurd hListed hGone
        · refine ⟨ticks, hSample, hLe, fun hEq => (hSeen hEq).imp_right ?_⟩
          rintro ⟨row, hRow, -⟩
          rw [hCheck] at hRow
          cases hRow
  · exact h

/-- **One step**, of the check or around it. -/
theorem inv_step (h : Inv s) {m : Move} (hQuiet : Undisturbed sys s m) : Inv (step sys s m) := by
  cases m with
  | wait d => exact inv_around h (around_wait s d)
  | starts pid startTime => exact inv_around h (around_starts h hQuiet)
  | exits pid => exact inv_around h (around_exits s pid)
  | burns pid => exact inv_burns h pid
  | ledgers frozen spikeTracker => exact inv_around h (around_ledgers hQuiet)
  | otherReads pid => exact inv_otherReads h pid
  | otherUpdates reading unixNow => exact inv_otherUpdates h hQuiet
  | otherPrunes live => exact inv_otherPrunes h hQuiet
  | lists cfg => exact inv_lists h cfg
  | reads p readable => exact inv_reads h p readable
  | updates unixNow => exact inv_updates h hQuiet
  | prunes => exact inv_prunes h
  | takesNow => exact inv_takesNow h
  | readsStartTime readable => exact inv_readsStartTime h readable
  | handles key => exact inv_handles h hQuiet
  | finishes => exact inv_finishes h

/-- A log that has nothing after the clock has nothing for as long as the clock runs. -/
theorem le_of_before {log : List (Key × Instant)} {since now clock : Instant} {secs : Nat}
    (hPast : ∀ e ∈ log, e.2 ≤ clock) (hNow : now ≤ clock)
    (hSecs : secs ≤ Instant.secsSince now since) (hBefore : 0 < secs → Before log key since) :
    ∀ e ∈ log, e.1 = key → e.2 + Instant.ofSecs secs ≤ clock := by
  intro e he hKey
  rcases Nat.eq_zero_or_pos secs with hZero | hPos
  · rw [hZero, Instant.ofSecs, Nat.zero_mul, Nat.add_zero]
    exact hPast e he
  · have hLong := (Instant.le_secsSince_iff hPos).mp hSecs
    exact (Nat.add_le_add_right (hBefore hPos e he hKey) _).trans (hLong.trans hNow)

theorem kills_step (h : Inv s) {m : Move} (hQuiet : Undisturbed sys s m) : KillsIdle s m := by
  cases m with
  | handles key =>
      intro due hDue hKilled holder hOccupant secs hSecs
      have hSettled := hQuiet due hDue holder hOccupant
      have hNow := h.nowPast due.2.1
        (known_of_due h hDue (occupant_eq_some_iff.mp hOccupant).1).2.2.2.1
      unfold Machine.checkIdle at hKilled
      rcases evaluated_or_skipped s due with hEvaluated | hSkipped
      swap
      · rw [checkIdle_of_skipped hSkipped] at hKilled
        cases hKilled
      rw [checkIdle_of_rule hSecs hEvaluated.2] at hKilled
      split at hKilled
      swap
      · cases hKilled
      next hLong =>
      have hIdle := idleSince_of_settled h hDue hOccupant hSettled hEvaluated
      refine ⟨le_of_before h.burnsPast hNow hLong fun hPos => ?_, hIdle.unstopped,
        le_of_before h.releasesPast hNow hLong fun _ => hIdle.released⟩
      -- a process that has just shown activity has a new clock
      have hQuietRow : due.2.2.process.cpuPct ≤ 1 / 10 := by
        by_contra hActive
        unfold sinceOf at hLong
        rw [if_pos (not_le.mp hActive)] at hLong
        have hNone := (Instant.le_secsSince_iff hPos).mp hLong
        have hSome : 0 < Instant.ofSecs secs := Nat.mul_pos hPos (by decide)
        exact absurd hNone (not_le.mpr (Nat.lt_add_of_pos_right hSome))
      obtain ⟨ticks, hTicks, hUnused⟩ := hSettled.ticks hEvaluated
      obtain ⟨last, hSample, hLe, hBurns⟩ := hIdle.sample
      have hRow := ((known_of_due h hDue (occupant_eq_some_iff.mp hOccupant).1).2.2.2.2.ticks
        ticks hTicks).2.1
      have hSame : last = ticks := Option.some.inj (hSample.symm.trans hRow)
      exact hBurns (hSame.trans (hUnused hQuietRow))
  | _ => trivial

end Loop

/--
**When auto-kill hits idle processes only.**  In every run in which processes with
an idle clock, and those the check is about, are left alone by the other callers of
`list_processes`, by the ledgers and by the PIDs, and in which the ticks they use
show, a process that gets SIGTERM has used no CPU tick and was in no ledger for as
long as its rule says.
-/
theorem kills_idle_of_undisturbed (sys : Sysconf) (holders : Map Pid Occupant)
    (moves : List Move) (hQuiet : EveryStep (step sys) (Undisturbed sys) (start holders) moves) :
    EveryStep (step sys) KillsIdle (start holders) moves :=
  everyStep_of_invariant (fun _ _ h hMove => inv_step h hMove)
    (fun _ _ h hMove => kills_step h hMove) (inv_start holders) hQuiet

/-! ## A screenshot tool -/

/-- No ticks, no activity. -/
theorem computeCpuPct_self (sys : Sysconf) (last : Sample) (now : Nat) :
    computeCpuPct sys (some last) last.ticks now = 0 := by
  unfold computeCpuPct
  dsimp only
  rw [Nat.sub_self, Nat.cast_zero, zero_div, zero_div, zero_mul]
  exact min_eq_left (mul_nonneg (by decide) (Rat.natCast_nonneg))

/-- A process that shows no activity gets SIGTERM when its clock is old. -/
theorem killed_of_old_clock {s : Machine} {key : Key} {due : CompiledConfig × Instant × Row}
    {secs : Nat} {since : Instant}
    (hRule : due.1.autoKillIdleAfterFor due.2.2.process.name = some secs)
    (hFree : s.frozen.isFrozen due.2.2.pid = false) (hIdle : due.2.2.process.cpuPct = 0)
    (hClock : s.lastActive.lookup key = some since)
    (hOld : since + Instant.ofSecs secs ≤ due.2.1) :
    due.2.2.pid ∈ (s.checkIdle key due).2 := by
  have hSince : sinceOf (tickAt due.1 due.2.1) s.lastActive key due.2.2.process = since := by
    unfold sinceOf
    rw [hIdle, hClock, if_neg (by decide +kernel)]
    rfl
  have hLong : secs ≤ Instant.secsSince (tickAt due.1 due.2.1).now since :=
    Instant.le_secsSince hOld
  unfold Machine.checkIdle
  rw [checkIdle_of_rule hRule hFree, hSince, if_pos hLong]
  exact List.mem_cons_self

/-- Screenshot tools are killed when they have been idle for 300 s. -/
def screenshotRules : CompiledConfig :=
  { CompiledConfig.ofEmpty 15 with autoKillRules := [⟨Regex.exact "spectacle", 300⟩] }

def spectacle : Process where
  pid := ⟨4321⟩
  name := "spectacle"
  exeBasename := some "spectacle"
  rssKb := Kb.clamp 90000
  swapKb := Kb.clamp 0
  oomScore := 0
  cgroupPath := some "app-spectacle.scope"
  cpuPct := 0
  majflt := 0
  cmdline := "spectacle"

def oneCpu : Sysconf where
  clkTck := 100
  numCpus := 1

/-- A check, up to its loop. -/
def checkAt (unixNow : Nat) : List Move :=
  [.lists screenshotRules, .reads spectacle true, .updates unixNow, .prunes, .takesNow,
    .readsStartTime true, .readsStartTime true]

/-- The tool starts, and the first check starts its clock. -/
def spectacleSeen : List Move :=
  [.starts ⟨4321⟩ 700, .burns ⟨4321⟩] ++ checkAt 1000 ++ [.handles (⟨4321⟩, 700), .finishes]

/-- Idle for 300 s, it is killed. -/
def spectacleIdle : List Move := spectacleSeen ++ [.wait (Instant.ofSecs 300)] ++ checkAt 1300

theorem spectacle_killed_idle :
    EveryStep (step oneCpu) KillsIdle (start ∅) (spectacleIdle ++ [.handles (⟨4321⟩, 700)]) := by
  refine kills_idle_of_undisturbed oneCpu ∅ _ ?_
  refine ⟨List.not_mem_nil, trivial, trivial, trivial, ?_, trivial, trivial, trivial, trivial, ?_,
    trivial, trivial, trivial, trivial, ?_, trivial, trivial, trivial, trivial, ?_, trivial⟩
  · intro row hCurrent ticks hTicks h hOccupant since hClock
    cases hCurrent
    cases hClock
  · intro due hDue h hOccupant
    cases hDue
    cases hOccupant
    exact ⟨fun _ => ⟨⟨300, rfl⟩, rfl⟩, fun _ => nofun, fun _ => ⟨1, rfl, fun _ => rfl⟩⟩
  · intro row hCurrent ticks hTicks h hOccupant since hClock last hLast hUsed
    cases hCurrent
    cases hTicks
    cases hLast
    exact absurd rfl hUsed
  · intro due hDue h hOccupant
    cases hDue
    cases hOccupant
    exact ⟨fun _ => ⟨⟨300, rfl⟩, rfl⟩, fun _ => nofun, fun _ => ⟨1, rfl, fun _ => rfl⟩⟩

/-- Ten seconds after the first check, the tool is frozen for a spike. -/
def spectacleFrozen : List Move :=
  spectacleSeen ++ [.wait (Instant.ofSecs 10),
    .ledgers .new (SpikeTracker.new.recordVictimFrozen
      ⟨⟨4321⟩, "spectacle", 700, ⟨99⟩, Instant.ofSecs 10⟩),
    .wait (Instant.ofSecs 290)] ++ checkAt 1300

/-- The tool in the second check, with no ticks used since the first. -/
def spectacleDue : CompiledConfig × Instant × Row :=
  (screenshotRules, Instant.ofSecs 300,
    ⟨{ spectacle with cpuPct := computeCpuPct oneCpu (some ⟨1, 1000⟩) 1 1300 }, some 1⟩)

/-- The tool is killed while it is stopped. -/
theorem victim_killed :
    ¬ EveryStep (step oneCpu) KillsIdle (start ∅)
      (spectacleFrozen ++ [.handles (⟨4321⟩, 700)]) := by
  intro hRun
  have hKills : KillsIdle (run (step oneCpu) (start ∅) spectacleFrozen) (.handles (⟨4321⟩, 700)) :=
    hRun.at_split
  have hDue : (run (step oneCpu) (start ∅) spectacleFrozen).due (⟨4321⟩, 700) =
      some spectacleDue := rfl
  have hClock : (run (step oneCpu) (start ∅) spectacleFrozen).lastActive.lookup (⟨4321⟩, 700) =
      some 0 := by
    decide +kernel
  have hOld : 0 + Instant.ofSecs 300 ≤ spectacleDue.2.1 := (Nat.zero_add _).le
  have hKilled : spectacleDue.2.2.pid ∈ ((run (step oneCpu) (start ∅) spectacleFrozen).checkIdle
      (⟨4321⟩, 700) spectacleDue).2 :=
    killed_of_old_clock rfl rfl (computeCpuPct_self oneCpu ⟨1, 1000⟩ 1300) hClock hOld
  have hIdle := hKills spectacleDue hDue hKilled ⟨700, 1, true⟩ rfl 300 rfl
  exact hIdle.unstopped (List.mem_of_elem_eq_true rfl)

end Mgd.AutoKill
