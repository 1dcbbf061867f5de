import Mgd.LeakFamilies
import Mgd.Lib.Checked

/-!
# The arithmetic of the leak guard

`LeakTracker::update` adds the cooldown to the clock when it reaps a family, and
the addition of a `Duration` to an `Instant` panics when the result is out of
range.  The window is only compared, and the counts are subtracted with
saturation.

`runLeakGuardCycle_isSome_iff` says when a cycle goes through;
`runLeakGuardCycle_of_fits` that it is then the exact one.
-/

namespace Mgd.Overflow

open Mgd.Types Mgd.Monitor Mgd.Config Mgd.Lib.AssocMap Mgd.Lib.Checked
open Mgd.LeakGuard Mgd.LeakFamilies

/-! ## The checked cycle -/

/-- The clock counts its seconds in an `i64`. -/
def clockMaxSecs : Nat := 2 ^ 63 - 1

/-- `now + Duration::from_secs(secs)` -/
def addSecs (now : Instant) (secs : Nat) : Option Instant :=
  (add clockMaxSecs (now / nanosPerSec) secs).map fun _ => now + secs * nanosPerSec

def updateGroup (p : LeakGuardConfig) (now : Instant) (display : String) (members : List Process)
    (state : GroupState) : Option (GroupState × List LeakDecision) :=
  let samples := prune p.windowSec now (state.samples ++ [⟨members.length, now⟩])
  let totalRss := Kb.sum (members.map Process.rssKb)
  let leaking := decide (p.minSamples ≤ samples.length) && neverShrunk samples &&
    grownEnough p.growthOverWindow samples && decide (p.minGroupRss.val ≤ totalRss.val)
  let state := { state with
    samples := samples
    lastDisplay := display
    lastCount := members.length
    lastTotalRss := totalRss
    lastLeaking := leaking }
  let inCooldown := state.cooldownUntil.any fun t => decide (now < t)
  if leaking && !inCooldown then
    (addSecs now p.cooldownSec).map fun t =>
      ({ state with cooldownUntil := some t }, staleMembers p.keepNewest display members)
  else some (state, [])

def visitGroup (p : LeakGuardConfig) (now : Instant) (t : LeakTracker × List LeakDecision)
    (group : Sigma fun _ : String => List Process) : Option (LeakTracker × List LeakDecision) :=
  match group.2 with
  | [] => some t
  | representative :: _ =>
      if group.2.length < p.minGroupCount || isExcluded p representative then some t
      else
        let display := representative.exeBasename.getD representative.name
        let state := (t.1.groups.lookup group.1).getD (GroupState.new display)
        (updateGroup p now display group.2 state).map fun updated =>
          (⟨t.1.groups.insert group.1 updated.1⟩, t.2 ++ updated.2)

def updateGroups (t : LeakTracker) (procs : List Process) (p : LeakGuardConfig) (now : Instant) :
    Option (LeakTracker × List LeakDecision) :=
  let groups := currentGroups procs
  let kept := retain (fun key _ =>
    decide (p.minGroupCount ≤ ((groups.lookup key).getD []).length)) t.groups
  groups.entries.foldlM (visitGroup p now) (⟨kept⟩, [])

def runLeakGuardCycle (cfg : CompiledConfig) (p : LeakGuardConfig) (t : LeakTracker)
    (procs : List Process) (now : Instant) : Option LeakCycle :=
  if p.enabled then
    (updateGroups t (candidates cfg procs) p now).map fun updated =>
      ⟨updated.1, updated.2, updated.1.snapshot⟩
  else some ⟨t, [], t.snapshot⟩

/-! ## When it fits -/

/-- The end of a cooldown that starts now is on the clock. -/
def CooldownFits (p : LeakGuardConfig) (now : Instant) : Prop :=
  now / nanosPerSec + p.cooldownSec ≤ clockMaxSecs

instance (p : LeakGuardConfig) (now : Instant) : Decidable (CooldownFits p now) :=
  inferInstanceAs (Decidable (_ ≤ _))

/-- The family is to be reaped. -/
def isReaped (p : LeakGuardConfig) (now : Instant) (members : List Process)
    (old : Option GroupState) : Bool :=
  due p now members old && !skipped p members

/-- Some family of the list is to be reaped. -/
def reapsAny (p : LeakGuardConfig) (now : Instant) (t : LeakTracker)
    (groups : List (Sigma fun _ : String => List Process)) : Bool :=
  groups.any fun group => isReaped p now group.2 (t.groups.lookup group.1)

/-- The cycle reaps a family. -/
def Reaps (cfg : CompiledConfig) (p : LeakGuardConfig) (t : LeakTracker) (procs : List Process)
    (now : Instant) : Prop :=
  p.enabled = true ∧
    ∃ key, isReaped p now (familyOf (candidates cfg procs) key) (t.groups.lookup key) = true

section Groups

variable {p : LeakGuardConfig} {now : Instant}

theorem addSecs_cooldown (p : LeakGuardConfig) (now : Instant) :
    addSecs now p.cooldownSec =
      if CooldownFits p now then some (now + p.cooldownSec * nanosPerSec) else none := by
  unfold addSecs add
  by_cases hFits : CooldownFits p now
  · rw [if_pos hFits, if_pos (show now / nanosPerSec + p.cooldownSec ≤ clockMaxSecs from hFits)]
    rfl
  · rw [if_neg hFits,
      if_neg (show ¬ now / nanosPerSec + p.cooldownSec ≤ clockMaxSecs from hFits)]
    rfl

/-- A family at or above the floor: the clock is read forward only when it is
leaking and not cooling down. -/
theorem updateGroup_eq (display : String) (members : List Process) (old : Option GroupState) :
    updateGroup p now display members (old.getD (GroupState.new display)) =
      if (leakingNow p now members old && !coolingDown now old) = true ∧ ¬ CooldownFits p now
      then none
      else some (LeakGuard.updateGroup p now display members
        (old.getD (GroupState.new display))) := by
  have hLeaking : ∀ old : Option GroupState, leakingNow p now members old =
      (decide (p.minSamples ≤ (prune p.windowSec now
          ((old.getD (GroupState.new display)).samples ++ [⟨members.length, now⟩])).length) &&
        neverShrunk (prune p.windowSec now
          ((old.getD (GroupState.new display)).samples ++ [⟨members.length, now⟩])) &&
        grownEnough p.growthOverWindow (prune p.windowSec now
          ((old.getD (GroupState.new display)).samples ++ [⟨members.length, now⟩])) &&
        decide (p.minGroupRss.val ≤ (Kb.sum (members.map Process.rssKb)).val)) := by
    intro old
    cases old <;> rfl
  have hCooling : coolingDown now old =
      (old.getD (GroupState.new display)).cooldownUntil.any fun t => decide (now < t) := by
    cases old <;> rfl
  unfold updateGroup LeakGuard.updateGroup
  rw [hLeaking, hCooling, addSecs_cooldown]
  dsimp only
  generalize hFires : (_ && !_ : Bool) = fires
  cases fires with
  | false => simp
  | true => by_cases hFits : CooldownFits p now <;> simp [hFits]

/-- One family of the loop. -/
theorem visitGroup_eq (t : LeakTracker × List LeakDecision)
    (group : Sigma fun _ : String => List Process) :
    visitGroup p now t group =
      if isReaped p now group.2 (t.1.groups.lookup group.1) = true ∧ ¬ CooldownFits p now
      then none
      else some (LeakGuard.visitGroup p now t group) := by
  obtain ⟨key, members⟩ := group
  unfold visitGroup LeakGuard.visitGroup isReaped due skipped
  cases members with
  | nil => simp
  | cons representative rest =>
      dsimp only
      by_cases hFloor : (representative :: rest).length < p.minGroupCount
      · simp only [hFloor, Nat.not_le_of_gt hFloor, decide_true, decide_false, Bool.true_or,
          Bool.false_and, Bool.false_eq_true, false_and, if_true, if_false]
      · by_cases hExcluded : isExcluded p representative = true
        · simp [hExcluded]
        · rw [updateGroup_eq]
          rw [Bool.not_eq_true] at hExcluded
          simp only [hFloor, Nat.le_of_not_lt hFloor, hExcluded, decide_false, decide_true,
            Bool.or_self, Bool.false_eq_true, if_false, Bool.true_and, Bool.not_false,
            Bool.and_true]
          split <;> rfl

/-- The families have different keys, so a visit does not decide on another. -/
theorem foldlM_visitGroup_eq {groups : List (Sigma fun _ : String => List Process)}
    (hKeys : groups.NodupKeys) (t : LeakTracker × List LeakDecision) :
    groups.foldlM (visitGroup p now) t =
      if reapsAny p now t.1 groups = true ∧ ¬ CooldownFits p now then none
      else some (groups.foldl (LeakGuard.visitGroup p now) t) := by
  induction groups generalizing t with
  | nil => simp [reapsAny]
  | cons group rest ih =>
      obtain ⟨key, members⟩ := group
      obtain ⟨hFresh, hRest⟩ := List.nodupKeys_cons.mp hKeys
      have hOthers : ∀ other ∈ rest,
          (LeakGuard.visitGroup p now t ⟨key, members⟩).1.groups.lookup other.1 =
            t.1.groups.lookup other.1 := by
        intro other hOther
        have hKey : other.1 ≠ key := ne_of_mem_of_not_mem (List.mem_map_of_mem hOther) hFresh
        rw [(visitGroup_spec p now t ⟨key, members⟩).1, if_neg hKey]
      have hRestReaps : reapsAny p now (LeakGuard.visitGroup p now t ⟨key, members⟩).1 rest =
          reapsAny p now t.1 rest := by
        unfold reapsAny
        rw [Bool.eq_iff_iff, List.any_eq_true, List.any_eq_true]
        apply exists_congr
        intro other
        apply and_congr_right
        intro hOther
        rw [hOthers other hOther]
      have hReaps : reapsAny p now t.1 (⟨key, members⟩ :: rest) =
          (isReaped p now members (t.1.groups.lookup key) || reapsAny p now t.1 rest) := rfl
      rw [List.foldlM_cons, visitGroup_eq, List.foldl_cons, hReaps]
      by_cases hHere : isReaped p now members (t.1.groups.lookup key) = true ∧
          ¬ CooldownFits p now
      · rw [if_pos hHere, hHere.1, Bool.true_or, if_pos ⟨rfl, hHere.2⟩]
        rfl
      · rw [if_neg hHere]
        refine (ih hRest (LeakGuard.visitGroup p now t ⟨key, members⟩)).trans ?_
        rw [hRestReaps]
        by_cases hFits : CooldownFits p now
        · rw [if_neg fun hBad => hBad.2 hFits, if_neg fun hBad => hBad.2 hFits]
        · have hCalm : isReaped p now members (t.1.groups.lookup key) = false := by
            rw [← Bool.not_eq_true]
            intro hReaped
            exact hHere ⟨hReaped, hFits⟩
          rw [hCalm, Bool.false_or]

/-- Below the floor a family is not due, so a lost state does not matter. -/
theorem isReaped_kept (members : List Process) (old : Option GroupState) :
    isReaped p now members (kept p members old) = isReaped p now members old := by
  unfold kept
  split
  · rfl
  · next hBelow => simp [isReaped, due, hBelow]

theorem reapsAny_currentGroups (t : LeakTracker) (procs : List Process) :
    reapsAny p now t (currentGroups procs).entries = true ↔
      ∃ key, isReaped p now (familyOf procs key) (t.groups.lookup key) = true := by
  unfold reapsAny
  rw [List.any_eq_true]
  constructor
  · intro h
    obtain ⟨⟨key, members⟩, hGroup, hReaped⟩ := h
    refine ⟨key, ?_⟩
    rw [(mem_currentGroups_iff.mp hGroup).1]
    exact hReaped
  · intro h
    obtain ⟨key, hReaped⟩ := h
    have hSome : familyOf procs key ≠ [] := by
      intro hNone
      rw [hNone] at hReaped
      simp [isReaped, skipped] at hReaped
    exact ⟨⟨key, familyOf procs key⟩, mem_currentGroups_iff.mpr ⟨rfl, hSome⟩, hReaped⟩

theorem updateGroups_eq (t : LeakTracker) (procs : List Process) :
    updateGroups t procs p now =
      if reapsAny p now t (currentGroups procs).entries = true ∧ ¬ CooldownFits p now then none
      else some (t.update procs p now) := by
  have hKept : reapsAny p now ⟨retain (fun key _ =>
        decide (p.minGroupCount ≤ (((currentGroups procs).lookup key).getD []).length)) t.groups⟩
          (currentGroups procs).entries = reapsAny p now t (currentGroups procs).entries := by
    unfold reapsAny
    rw [Bool.eq_iff_iff, List.any_eq_true, List.any_eq_true]
    apply exists_congr
    intro group
    apply and_congr_right
    intro hGroup
    have hSame := @isReaped_kept p now group.2 (t.groups.lookup group.1)
    unfold kept at hSame
    dsimp only
    rw [lookup_retain_key, getD_lookup_currentGroups, (mem_currentGroups_iff.mp hGroup).1]
    simp only [decide_eq_true_eq]
    rw [hSame]
  unfold updateGroups LeakTracker.update
  dsimp only
  rw [foldlM_visitGroup_eq (currentGroups procs).nodupKeys, hKept]

end Groups

/-! ## A cycle -/

section Cycle

variable {cfg : CompiledConfig} {p : LeakGuardConfig} {t : LeakTracker} {procs : List Process}
  {now : Instant}

theorem runLeakGuardCycle_of_fits (h : Reaps cfg p t procs now → CooldownFits p now) :
    runLeakGuardCycle cfg p t procs now = some (LeakGuard.runLeakGuardCycle cfg p t procs now) := by
  unfold runLeakGuardCycle LeakGuard.runLeakGuardCycle
  by_cases hEnabled : p.enabled = true
  · rw [if_pos hEnabled, if_pos hEnabled, updateGroups_eq,
      if_neg fun hBad => hBad.2 (h ⟨hEnabled, (reapsAny_currentGroups t _).mp hBad.1⟩)]
    rfl
  · rw [if_neg hEnabled, if_neg hEnabled]

/-- **When the leak guard panics**: when it reaps and the cooldown runs off the
clock. -/
theorem runLeakGuardCycle_isSome_iff :
    (runLeakGuardCycle cfg p t procs now).isSome = true ↔
      (Reaps cfg p t procs now → CooldownFits p now) := by
  constructor
  · intro hSome hReaps
    obtain ⟨hEnabled, hFamily⟩ := hReaps
    by_contra hFits
    unfold runLeakGuardCycle at hSome
    rw [if_pos hEnabled, updateGroups_eq,
      if_pos ⟨(reapsAny_currentGroups t _).mpr hFamily, hFits⟩] at hSome
    cases hSome
  · intro h
    rw [runLeakGuardCycle_of_fits h]
    rfl

end Cycle

end Mgd.Overflow
