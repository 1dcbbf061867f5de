import Mgd.LeakGuard

/-!
# The families of the leak guard

`LeakTracker::update` groups the processes by command line and looks at each
family by itself.  `lookup_update` and `decisions_update` say what one call
makes of one family: its state after the call and the decisions about it depend
on its members, in the order of the list, and on its state before.

The first member stands for the family: `exclude` is matched against it alone,
and the decisions carry its name.  `exclude_spares_iff` says when that does not
matter.
-/

namespace Mgd.LeakFamilies

open Mgd.Types Mgd.Monitor Mgd.Config Mgd.Lib.AssocMap Mgd.Lib.Greedy Mgd.LeakGuard

/-! ## One family in one call -/

/-- The members of a family, in the order of the list. -/
def familyOf (procs : List Process) (key : String) : List Process :=
  procs.filter fun q => decide (groupKey q = key)

section Family

variable (p : LeakGuardConfig) (now : Instant) (members : List Process)

def displayOf (representative : Process) : String :=
  representative.exeBasename.getD representative.name

/-- The first member is excluded, or there is none. -/
def skipped : Bool :=
  match members with
  | [] => true
  | representative :: _ => isExcluded p representative

/-- A group that falls below the floor loses its state. -/
def kept (old : Option GroupState) : Option GroupState :=
  if p.minGroupCount ≤ members.length then old else none

/-- What `update` makes of the family at or above the floor. -/
def visited (representative : Process) (old : Option GroupState) : GroupState × List LeakDecision :=
  updateGroup p now (displayOf representative) members
    (old.getD (GroupState.new (displayOf representative)))

def stateAfter (old : Option GroupState) : Option GroupState :=
  match members with
  | [] => old
  | representative :: _ =>
      if members.length < p.minGroupCount || isExcluded p representative then old
      else some (visited p now members representative old).1

def decisionsOf (old : Option GroupState) : List LeakDecision :=
  match members with
  | [] => []
  | representative :: _ =>
      if members.length < p.minGroupCount || isExcluded p representative then []
      else (visited p now members representative old).2

end Family

/-! ## The families of a list -/

section Families

variable {p : LeakGuardConfig} {now : Instant} {t : LeakTracker} {procs : List Process}

theorem mem_familyOf {q : Process} {key : String} :
    q ∈ familyOf procs key ↔ q ∈ procs ∧ groupKey q = key := by
  unfold familyOf
  rw [List.mem_filter, decide_eq_true_iff]

theorem lookup_currentGroups (procs : List Process) (key : String) :
    (currentGroups procs).lookup key =
      if familyOf procs key = [] then none else some (familyOf procs key) := by
  induction procs using List.reverseRecOn with
  | nil => rfl
  | append_singleton procs q ih =>
      have hGroups : currentGroups (procs ++ [q]) = (currentGroups procs).insert (groupKey q)
          (((currentGroups procs).lookup (groupKey q)).getD [] ++ [q]) := by
        unfold currentGroups
        rw [List.foldl_append]
        rfl
      have hFamily : familyOf (procs ++ [q]) key =
          familyOf procs key ++ if groupKey q = key then [q] else [] := by
        unfold familyOf
        rw [List.filter_append]
        by_cases hKey : groupKey q = key <;> simp [hKey]
      rw [hGroups, lookup_insert_eq, hFamily]
      by_cases hKey : key = groupKey q
      · subst hKey
        have hOld : ((currentGroups procs).lookup (groupKey q)).getD [] =
            familyOf procs (groupKey q) := by
          rw [ih]
          split
          · next hNone => exact hNone.symm
          · rfl
        have hSome : familyOf procs (groupKey q) ++ [q] ≠ [] := by simp
        rw [if_pos rfl, if_pos rfl, hOld, if_neg hSome]
      · rw [if_neg hKey, if_neg (Ne.symm hKey), ih, List.append_nil]

theorem getD_lookup_currentGroups (procs : List Process) (key : String) :
    ((currentGroups procs).lookup key).getD [] = familyOf procs key := by
  rw [lookup_currentGroups]
  split
  · next hNone => exact hNone.symm
  · rfl

theorem mem_currentGroups_iff {key : String} {members : List Process} :
    (⟨key, members⟩ : Sigma fun _ : String => List Process) ∈ (currentGroups procs).entries ↔
      familyOf procs key = members ∧ members ≠ [] := by
  rw [← lookup_eq_some_iff, lookup_currentGroups]
  by_cases hNone : familyOf procs key = []
  · rw [if_pos hNone, hNone]
    constructor
    · intro h
      cases h
    · intro h
      exact absurd h.1.symm h.2
  · rw [if_neg hNone, Option.some_inj]
    constructor
    · intro h
      exact ⟨h, h ▸ hNone⟩
    · exact And.left

theorem mem_keys_currentGroups {key : String} :
    key ∈ (currentGroups procs).keys ↔ familyOf procs key ≠ [] := by
  rw [mem_keys_iff, lookup_currentGroups]
  by_cases hNone : familyOf procs key = [] <;> simp [hNone]

/-! ## One call -/

/-- A visit changes the state of its own group. -/
theorem visitGroup_spec (p : LeakGuardConfig) (now : Instant)
    (acc : LeakTracker × List LeakDecision)
    (group : Sigma fun _ : String => List Process) :
    (∀ key, (visitGroup p now acc group).1.groups.lookup key =
      if key = group.1 then stateAfter p now group.2 (acc.1.groups.lookup group.1)
      else acc.1.groups.lookup key) ∧
    (visitGroup p now acc group).2 =
      acc.2 ++ decisionsOf p now group.2 (acc.1.groups.lookup group.1) := by
  obtain ⟨name, members⟩ := group
  have hSame : ∀ key, acc.1.groups.lookup key =
      if key = name then acc.1.groups.lookup name else acc.1.groups.lookup key := by
    intro key
    split
    · next hKey => rw [hKey]
    · rfl
  unfold visitGroup stateAfter decisionsOf
  cases members with
  | nil => exact ⟨hSame, (List.append_nil _).symm⟩
  | cons representative rest =>
      dsimp only
      split
      · exact ⟨hSame, (List.append_nil _).symm⟩
      · exact ⟨fun key => lookup_insert_eq name key _ _, rfl⟩

theorem foldl_visitGroup_spec {groups : List (Sigma fun _ : String => List Process)}
    (hKeys : groups.NodupKeys) (acc : LeakTracker × List LeakDecision) :
    (∀ key, (groups.foldl (visitGroup p now) acc).1.groups.lookup key =
      stateAfter p now ((groups.dlookup key).getD []) (acc.1.groups.lookup key)) ∧
    (groups.foldl (visitGroup p now) acc).2 = acc.2 ++ groups.flatMap fun group =>
      decisionsOf p now group.2 (acc.1.groups.lookup group.1) := by
  induction groups generalizing acc with
  | nil => exact ⟨fun key => rfl, (List.append_nil _).symm⟩
  | cons group rest ih =>
      obtain ⟨name, members⟩ := group
      obtain ⟨hFresh, hRest⟩ := List.nodupKeys_cons.mp hKeys
      obtain ⟨hLookup, hDecisions⟩ := visitGroup_spec p now acc ⟨name, members⟩
      obtain ⟨ihLookup, ihDecisions⟩ := ih hRest (visitGroup p now acc ⟨name, members⟩)
      rw [List.foldl_cons]
      constructor
      · intro key
        rw [ihLookup key, hLookup key]
        by_cases hKey : key = name
        · subst hKey
          rw [List.dlookup_eq_none.mpr hFresh, List.dlookup_cons_eq, if_pos rfl]
          rfl
        · rw [List.dlookup_cons_ne _ _ hKey, if_neg hKey]
      · rw [ihDecisions, hDecisions, List.flatMap_cons, List.append_assoc]
        apply congrArg (acc.2 ++ ·)
        apply congrArg (decisionsOf p now members (acc.1.groups.lookup name) ++ ·)
        apply List.flatMap_congr
        intro other hOther
        have hKey : other.1 ∈ rest.keys := List.mem_map_of_mem hOther
        rw [hLookup other.1, if_neg (ne_of_mem_of_not_mem hKey hFresh)]

/-- **The state of a family after one call.** -/
theorem lookup_update (t : LeakTracker) (procs : List Process) (p : LeakGuardConfig)
    (now : Instant) (key : String) :
    (t.update procs p now).1.groups.lookup key =
      stateAfter p now (familyOf procs key)
        (kept p (familyOf procs key) (t.groups.lookup key)) := by
  unfold LeakTracker.update
  dsimp only
  rw [(foldl_visitGroup_spec (currentGroups procs).nodupKeys _).1 key]
  have hMembers : ((currentGroups procs).entries.dlookup key).getD [] = familyOf procs key :=
    getD_lookup_currentGroups procs key
  rw [hMembers, lookup_retain_key, getD_lookup_currentGroups]
  unfold kept
  simp only [decide_eq_true_eq]

/-- The family is leaking by its record and this call. -/
def leakingNow (p : LeakGuardConfig) (now : Instant) (members : List Process)
    (old : Option GroupState) : Bool :=
  let samples := prune p.windowSec now
    ((old.map GroupState.samples).getD [] ++ [⟨members.length, now⟩])
  decide (p.minSamples ≤ samples.length) && neverShrunk samples &&
    grownEnough p.growthOverWindow samples &&
    decide (p.minGroupRss.val ≤ (Kb.sum (members.map Process.rssKb)).val)

def coolingDown (now : Instant) (old : Option GroupState) : Bool :=
  (old.bind GroupState.cooldownUntil).any fun t => decide (now < t)

/-- The family is to be reaped, if its first member is not excluded. -/
def due (p : LeakGuardConfig) (now : Instant) (members : List Process)
    (old : Option GroupState) : Bool :=
  decide (p.minGroupCount ≤ members.length) && leakingNow p now members old &&
    !coolingDown now old

theorem decisionsOf_cons (representative : Process) (rest : List Process)
    (old : Option GroupState) :
    decisionsOf p now (representative :: rest) old =
      if due p now (representative :: rest) old = true ∧ isExcluded p representative = false then
        staleMembers p.keepNewest (displayOf representative) (representative :: rest)
      else [] := by
  unfold decisionsOf due
  dsimp only
  by_cases hFloor : (representative :: rest).length < p.minGroupCount
  · simp only [hFloor, Nat.not_le_of_gt hFloor, decide_true, decide_false, Bool.true_or,
      Bool.false_and, Bool.false_eq_true, false_and, if_true, if_false]
  · cases hExcluded : isExcluded p representative with
    | true => simp
    | false =>
        have hRecord : (visited p now (representative :: rest) representative old).2 =
            if (leakingNow p now (representative :: rest) old && !coolingDown now old) = true then
              staleMembers p.keepNewest (displayOf representative) (representative :: rest)
            else [] := by
          cases old with
          | none => rfl
          | some state => rfl
        rw [hRecord]
        simp only [hFloor, Nat.le_of_not_lt hFloor, decide_true, decide_false, Bool.or_self,
          Bool.true_and, Bool.false_eq_true, if_false, and_true]

/-- Below the floor there is nothing to decide, so a lost state does not matter. -/
theorem decisionsOf_kept (p : LeakGuardConfig) (now : Instant) (members : List Process)
    (old : Option GroupState) :
    decisionsOf p now members (kept p members old) = decisionsOf p now members old := by
  unfold kept
  split
  · rfl
  · next hBelow =>
      cases members with
      | nil => rfl
      | cons representative rest =>
          rw [decisionsOf_cons, decisionsOf_cons]
          simp only [due, hBelow, decide_false, Bool.false_and, Bool.false_eq_true, false_and,
            if_false]

/-- Below the floor the state is lost. -/
theorem stateAfter_below {members : List Process} (h : ¬ p.minGroupCount ≤ members.length)
    (old : Option GroupState) : stateAfter p now members (kept p members old) = none := by
  unfold kept stateAfter
  rw [if_neg h]
  cases members with
  | nil => rfl
  | cons representative rest =>
      dsimp only
      rw [decide_eq_true (Nat.lt_of_not_le h), Bool.true_or, if_pos rfl]

/-- A family that is skipped keeps its state as it is. -/
theorem stateAfter_skipped {members : List Process} (hFloor : p.minGroupCount ≤ members.length)
    (hSkip : skipped p members = true) (old : Option GroupState) :
    stateAfter p now members (kept p members old) = old := by
  unfold kept stateAfter
  unfold skipped at hSkip
  rw [if_pos hFloor]
  cases members with
  | nil => rfl
  | cons representative rest =>
      dsimp only at hSkip ⊢
      rw [hSkip, Bool.or_true, if_pos rfl]

theorem stateAfter_taken {members : List Process} (hFloor : p.minGroupCount ≤ members.length)
    (hTake : skipped p members = false) (old : Option GroupState) :
    ∃ representative, stateAfter p now members (kept p members old) =
      some (visited p now members representative old).1 := by
  unfold kept stateAfter
  unfold skipped at hTake
  rw [if_pos hFloor]
  cases members with
  | nil => cases hTake
  | cons representative rest =>
      dsimp only at hTake ⊢
      rw [hTake, decide_eq_false (Nat.not_lt_of_le hFloor), Bool.or_self,
        if_neg Bool.false_ne_true]
      exact ⟨representative, rfl⟩

/-- The sample of the call is taken, and old ones leave. -/
theorem samples_visited (members : List Process) (representative : Process)
    (old : Option GroupState) :
    (visited p now members representative old).1.samples =
      prune p.windowSec now ((old.map GroupState.samples).getD [] ++ [⟨members.length, now⟩]) := by
  cases old with
  | none => rfl
  | some state => rfl

/-- The cooldown starts with the verdict. -/
theorem cooldownUntil_visited (members : List Process) (representative : Process)
    (old : Option GroupState) :
    (visited p now members representative old).1.cooldownUntil =
      if (leakingNow p now members old && !coolingDown now old) = true then
        some (now + p.cooldownSec * nanosPerSec)
      else old.bind GroupState.cooldownUntil := by
  cases old with
  | none => rfl
  | some state => rfl

/-- **The decisions of one call**, family by family. -/
theorem decisions_update (t : LeakTracker) (procs : List Process) (p : LeakGuardConfig)
    (now : Instant) :
    (t.update procs p now).2 = (currentGroups procs).keys.flatMap fun key =>
      decisionsOf p now (familyOf procs key) (t.groups.lookup key) := by
  unfold LeakTracker.update
  dsimp only
  rw [(foldl_visitGroup_spec (currentGroups procs).nodupKeys _).2, List.nil_append]
  have hKeys : (currentGroups procs).keys = (currentGroups procs).entries.map Sigma.fst := rfl
  rw [hKeys, List.flatMap_map]
  apply List.flatMap_congr
  intro group hGroup
  obtain ⟨key, members⟩ := group
  have hMembers := (mem_currentGroups_iff.mp hGroup).1
  have hKept := decisionsOf_kept p now members (t.groups.lookup key)
  unfold kept at hKept
  dsimp only
  rw [lookup_retain_key, getD_lookup_currentGroups, hMembers, ← hKept]
  simp only [decide_eq_true_eq]

theorem mem_decisions_iff {d : LeakDecision} :
    d ∈ (t.update procs p now).2 ↔
      ∃ key, d ∈ decisionsOf p now (familyOf procs key) (t.groups.lookup key) := by
  rw [decisions_update, List.mem_flatMap]
  constructor
  · intro h
    obtain ⟨key, -, hd⟩ := h
    exact ⟨key, hd⟩
  · intro h
    obtain ⟨key, hd⟩ := h
    refine ⟨key, mem_keys_currentGroups.mpr fun hNone => ?_, hd⟩
    rw [hNone] at hd
    cases hd

/-- What a decision says of its family. -/
theorem of_mem_decisionsOf {members : List Process} {old : Option GroupState} {d : LeakDecision}
    (h : d ∈ decisionsOf p now members old) :
    due p now members old = true ∧ p.keepNewest < members.length ∧
      ∃ representative rest, members = representative :: rest ∧
        isExcluded p representative = false ∧
        ∃ q ∈ members, d = ⟨q.pid, q.name, displayOf representative⟩ := by
  cases members with
  | nil => cases h
  | cons representative rest =>
      rw [decisionsOf_cons] at h
      split at h
      · next hReaped =>
          unfold staleMembers at h
          obtain ⟨q, hq, hDecision⟩ := List.mem_map.mp h
          have hMany := List.length_pos_of_mem hq
          rw [List.length_drop, (sortDesc_perm _ _).length_eq] at hMany
          refine ⟨hReaped.1, by omega, representative, rest, rfl, hReaped.2, q, ?_, hDecision.symm⟩
          exact mem_sortDesc.mp (List.mem_of_mem_drop hq)
      · cases h

/-- A family that is due, of more than the members to keep, is reaped. -/
theorem decisionsOf_ne_nil_iff {members : List Process} {old : Option GroupState} :
    decisionsOf p now members old ≠ [] ↔
      due p now members old = true ∧ skipped p members = false ∧
        p.keepNewest < members.length := by
  cases members with
  | nil => simp [decisionsOf, skipped]
  | cons representative rest =>
      constructor
      · intro h
        obtain ⟨d, hd⟩ := List.exists_mem_of_ne_nil _ h
        obtain ⟨hDue, hMany, first, others, hMembers, hFree, -⟩ := of_mem_decisionsOf hd
        obtain ⟨rfl, -⟩ := List.cons.inj hMembers
        exact ⟨hDue, hFree, hMany⟩
      · intro h
        obtain ⟨hDue, hFree, hMany⟩ := h
        rw [decisionsOf_cons, if_pos ⟨hDue, hFree⟩]
        unfold staleMembers
        apply List.ne_nil_of_length_pos
        rw [List.length_map, List.length_drop, (sortDesc_perm _ _).length_eq]
        omega

/-! ## Another order of the list -/

theorem due_perm (p : LeakGuardConfig) (now : Instant) {members members' : List Process}
    (h : members.Perm members') (old : Option GroupState) :
    due p now members old = due p now members' old := by
  have hRss : (Kb.sum (members.map Process.rssKb)).val =
      (Kb.sum (members'.map Process.rssKb)).val := by
    rw [Kb.sum_val, Kb.sum_val, ((h.map Process.rssKb).map Kb.val).sum_eq]
  unfold due leakingNow
  rw [h.length_eq, hRss]

theorem familyOf_perm {procs procs' : List Process} (h : procs.Perm procs') (key : String) :
    (familyOf procs key).Perm (familyOf procs' key) := h.filter _

theorem staleMembers_perm {members members' : List Process} (h : members.Perm members')
    (hDistinct : (members.map Process.pid).Nodup) (keepNewest : Nat) (display : String) :
    staleMembers keepNewest display members = staleMembers keepNewest display members' := by
  have hNumbers : (members.map fun q => q.pid.val.toNat).Nodup := by
    have hInjective : Function.Injective fun pid : Pid => pid.val.toNat := by
      intro a b hab
      exact congrArg Pid.mk (UInt32.toNat_inj.mp hab)
    have hMapped := hDistinct.map hInjective
    rw [List.map_map] at hMapped
    exact hMapped
  unfold staleMembers
  rw [sortDesc_eq_of_perm h hNumbers]

/-- A decision about a PID of the list is about the family of its process. -/
theorem mem_own_decisions {d : LeakDecision} (hDistinct : (procs.map Process.pid).Nodup)
    (hd : d ∈ (t.update procs p now).2) {q : Process} (hq : q ∈ procs) (hPid : q.pid = d.pid) :
    d ∈ decisionsOf p now (familyOf procs (groupKey q)) (t.groups.lookup (groupKey q)) := by
  obtain ⟨key, hKey⟩ := mem_decisions_iff.mp hd
  obtain ⟨-, -, _, _, -, -, q', hq', hDecision⟩ := of_mem_decisionsOf hKey
  obtain ⟨hMem, hFamily⟩ := mem_familyOf.mp hq'
  have hSame : q' = q :=
    List.inj_on_of_nodup_map hDistinct hMem hq (by rw [hPid, hDecision])
  rw [← hSame, hFamily]
  exact hKey

end Families

/-! ## Exclusion -/

/-- A process list as `/proc` gives it: a PID is listed once. -/
structure Listing where
  procs : List Process
  distinct : (procs.map Process.pid).Nodup

section Exclusion

variable (p : LeakGuardConfig) (now : Instant) (t : LeakTracker) (l : Listing)

/-- In whatever order the list comes, no decision names a process that `exclude`
matches, and the decisions are the same. -/
def SparesExcluded : Prop :=
  ∀ procs', procs'.Perm l.procs →
    (∀ d ∈ (t.update procs' p now).2, ∀ q ∈ procs', q.pid = d.pid → isExcluded p q = false) ∧
      (t.update procs' p now).2.Perm (t.update l.procs p now).2

/-- `exclude` matches all members or none, and they go by one name. -/
def Uniform (members : List Process) : Prop :=
  (∀ q ∈ members, isExcluded p q = true) ∨
    ∃ display, ∀ q ∈ members, isExcluded p q = false ∧ displayOf q = display

/-- The families to be reaped are uniform. -/
def UniformWhenDue : Prop :=
  ∀ key, due p now (familyOf l.procs key) (t.groups.lookup key) = true →
    p.keepNewest < (familyOf l.procs key).length → Uniform p (familyOf l.procs key)

end Exclusion

section ExclusionLemmas

variable {p : LeakGuardConfig} {now : Instant} {t : LeakTracker}

theorem familyOf_head (procs : List Process) (u : Process) :
    familyOf (u :: procs) (groupKey u) = u :: familyOf procs (groupKey u) := by
  unfold familyOf
  rw [List.filter_cons_of_pos (by simp)]

/-- A member put first. -/
theorem decisionsOf_head {procs : List Process} {u : Process} :
    decisionsOf p now (familyOf (u :: procs) (groupKey u)) (t.groups.lookup (groupKey u)) =
      if due p now (familyOf (u :: procs) (groupKey u)) (t.groups.lookup (groupKey u)) = true ∧
          isExcluded p u = false then
        staleMembers p.keepNewest (displayOf u) (familyOf (u :: procs) (groupKey u))
      else [] := by
  rw [familyOf_head, decisionsOf_cons]

theorem uniformWhenDue_of_spares {l : Listing} (h : SparesExcluded p now t l) :
    UniformWhenDue p now t l := by
  intro key hDue hMany
  by_cases hAll : ∀ q ∈ familyOf l.procs key, isExcluded p q = true
  · exact Or.inl hAll
  · obtain ⟨u, hu, hFree⟩ : ∃ u ∈ familyOf l.procs key, isExcluded p u = false := by
      by_contra hNone
      exact hAll fun q hq => by
        by_contra hq'
        exact hNone ⟨q, hq, Bool.eq_false_of_not_eq_true hq'⟩
    obtain ⟨hMemU, hKeyU⟩ := mem_familyOf.mp hu
    have hPermU : (u :: l.procs.erase u).Perm l.procs := (List.perm_cons_erase hMemU).symm
    have hFamilyU := familyOf_perm hPermU key
    subst hKeyU
    -- with `u` first the family is reaped, under the name of `u`
    have hDueU := (due_perm p now hFamilyU _).trans hDue
    have hReaped : decisionsOf p now (familyOf (u :: l.procs.erase u) (groupKey u))
        (t.groups.lookup (groupKey u)) ≠ [] := by
      rw [decisionsOf_ne_nil_iff, hFamilyU.length_eq, familyOf_head]
      rw [familyOf_head] at hDueU
      exact ⟨hDueU, hFree, hMany⟩
    obtain ⟨d, hd⟩ := List.exists_mem_of_ne_nil _ hReaped
    obtain ⟨-, -, _, _, -, -, q, hq, hDecision⟩ := of_mem_decisionsOf hd
    have hGroupU : d.group = displayOf u := by
      rw [decisionsOf_head, if_pos ⟨hDueU, hFree⟩] at hd
      obtain ⟨q', -, hd'⟩ := List.mem_map.mp hd
      rw [← hd']
    have hMemQ : q ∈ l.procs := hPermU.mem_iff.mp (mem_familyOf.mp hq).1
    have hKeyQ := (mem_familyOf.mp hq).2
    refine Or.inr ⟨displayOf u, fun v hv => ?_⟩
    obtain ⟨hMemV, hKeyV⟩ := mem_familyOf.mp hv
    have hPermV : (v :: l.procs.erase v).Perm l.procs := (List.perm_cons_erase hMemV).symm
    -- the same decision with `v` first
    have hAgain : d ∈ (t.update (v :: l.procs.erase v) p now).2 := by
      have hBoth := ((h _ hPermV).2.trans (h _ hPermU).2.symm)
      exact hBoth.mem_iff.mpr (mem_decisions_iff.mpr ⟨groupKey u, hd⟩)
    have hDistinctV : ((v :: l.procs.erase v).map Process.pid).Nodup :=
      ((hPermV.map Process.pid).nodup_iff).mpr l.distinct
    have hOwn := mem_own_decisions hDistinctV hAgain (hPermV.mem_iff.mpr hMemQ)
      (by rw [hDecision])
    rw [hKeyQ, ← hKeyV, decisionsOf_head] at hOwn
    split at hOwn
    · next hFreeV =>
        obtain ⟨q', -, hd'⟩ := List.mem_map.mp hOwn
        refine ⟨hFreeV.2, ?_⟩
        rw [← hGroupU, ← hd']
    · cases hOwn

/-- An excluded family is left alone. -/
theorem decisionsOf_of_excluded {members : List Process} {old : Option GroupState}
    (h : ∀ q ∈ members, isExcluded p q = true) : decisionsOf p now members old = [] := by
  cases members with
  | nil => rfl
  | cons representative rest =>
      have hFirst := h representative List.mem_cons_self
      rw [decisionsOf_cons, hFirst]
      exact if_neg fun hBoth => Bool.noConfusion hBoth.2

/-- One that goes by one name is reaped under it. -/
theorem decisionsOf_of_named {members : List Process} {old : Option GroupState} {display : String}
    (hDue : due p now members old = true) (hSome : members ≠ [])
    (h : ∀ q ∈ members, isExcluded p q = false ∧ displayOf q = display) :
    decisionsOf p now members old = staleMembers p.keepNewest display members := by
  cases members with
  | nil => exact absurd rfl hSome
  | cons representative rest =>
      obtain ⟨hFree, hName⟩ := h representative List.mem_cons_self
      rw [decisionsOf_cons, if_pos ⟨hDue, hFree⟩, hName]

/-- A uniform family is reaped alike in every order. -/
theorem decisionsOf_perm {members members' : List Process} {old : Option GroupState}
    (hPerm : members'.Perm members) (hDistinct : (members'.map Process.pid).Nodup)
    (h : due p now members old = true → p.keepNewest < members.length → Uniform p members) :
    decisionsOf p now members' old = decisionsOf p now members old := by
  have hDue := due_perm p now hPerm old
  by_cases hReap : due p now members old = true ∧ p.keepNewest < members.length
  · cases h hReap.1 hReap.2 with
    | inl hAll =>
        rw [decisionsOf_of_excluded hAll,
          decisionsOf_of_excluded fun q hq => hAll q (hPerm.mem_iff.mp hq)]
    | inr hNamed =>
        obtain ⟨display, hNamed⟩ := hNamed
        have hSome : members ≠ [] := List.ne_nil_of_length_pos (Nat.zero_lt_of_lt hReap.2)
        have hSome' : members' ≠ [] := fun hNil => hSome (hPerm.symm.trans (hNil ▸ .refl _)).eq_nil
        rw [decisionsOf_of_named hReap.1 hSome hNamed,
          decisionsOf_of_named (hDue.trans hReap.1) hSome' fun q hq =>
            hNamed q (hPerm.mem_iff.mp hq)]
        exact staleMembers_perm hPerm hDistinct _ _
  · have hNone : decisionsOf p now members old = [] := by
      by_contra hSome
      obtain ⟨hD, -, hMany⟩ := decisionsOf_ne_nil_iff.mp hSome
      exact hReap ⟨hD, hMany⟩
    have hNone' : decisionsOf p now members' old = [] := by
      by_contra hSome
      obtain ⟨hD, -, hMany⟩ := decisionsOf_ne_nil_iff.mp hSome
      exact hReap ⟨hDue.symm.trans hD, hPerm.length_eq ▸ hMany⟩
    rw [hNone, hNone']

theorem spares_of_uniformWhenDue {l : Listing} (h : UniformWhenDue p now t l) :
    SparesExcluded p now t l := by
  intro procs' hPerm
  have hDistinct : (procs'.map Process.pid).Nodup :=
    ((hPerm.map Process.pid).nodup_iff).mpr l.distinct
  constructor
  · intro d hd q hq hPid
    have hOwn := mem_own_decisions hDistinct hd hq hPid
    have hFamily := familyOf_perm hPerm (groupKey q)
    obtain ⟨hDue, hMany, first, rest, hMembers, hFree, -⟩ := of_mem_decisionsOf hOwn
    rw [due_perm p now hFamily] at hDue
    rw [hFamily.length_eq] at hMany
    cases h (groupKey q) hDue hMany with
    | inl hAll =>
        have hFirst : first ∈ familyOf procs' (groupKey q) := by
          rw [hMembers]
          exact List.mem_cons_self
        rw [hAll first (hFamily.mem_iff.mp hFirst)] at hFree
        cases hFree
    | inr hNamed =>
        obtain ⟨display, hNamed⟩ := hNamed
        exact (hNamed q (hFamily.mem_iff.mp (mem_familyOf.mpr ⟨hq, rfl⟩))).1
  · have hSame : ∀ key, decisionsOf p now (familyOf procs' key) (t.groups.lookup key) =
        decisionsOf p now (familyOf l.procs key) (t.groups.lookup key) := by
      intro key
      refine decisionsOf_perm (familyOf_perm hPerm key) ?_ (h key)
      exact hDistinct.sublist (List.filter_sublist.map _)
    have hKeys : (currentGroups procs').keys.Perm (currentGroups l.procs).keys := by
      refine (List.perm_ext_iff_of_nodup (currentGroups procs').keys_nodup
        (currentGroups l.procs).keys_nodup).mpr fun key => ?_
      rw [mem_keys_currentGroups, mem_keys_currentGroups, not_iff_not]
      constructor
      · intro hNil
        exact ((familyOf_perm hPerm key).symm.trans (hNil ▸ .refl _)).eq_nil
      · intro hNil
        exact ((familyOf_perm hPerm key).trans (hNil ▸ .refl _)).eq_nil
    rw [decisions_update, decisions_update, List.flatMap_congr fun key _ => hSame key]
    exact hKeys.flatMap_right _

end ExclusionLemmas

/--
**When `exclude` spares whom it names.**  For every process list and
configuration, and whatever the tracker remembers: no order of the list makes a
decision name a process that `exclude` matches, and the decisions do not depend
on the order, exactly when every family to be reaped is uniform: `exclude`
matches all its members, or none and they all go by one name.
-/
theorem exclude_spares_iff (p : LeakGuardConfig) (now : Instant) (t : LeakTracker) (l : Listing) :
    SparesExcluded p now t l ↔ UniformWhenDue p now t l :=
  ⟨uniformWhenDue_of_spares, spares_of_uniformWhenDue⟩

/-! ## A thread that renamed itself -/

/-- One of the workers goes by another name, which is excluded. -/
def renamed : Process := { worker 0 with name := "browser", exeBasename := some "browser" }

def mixedFamily : Listing where
  procs := worker 13 :: renamed :: (List.range 12).map fun n => worker (n + 1)
  distinct := by decide

def sparesBrowser : LeakGuardConfig :=
  { LeakGuardConfig.default with exclude := [Regex.exact "browser"] }

/-- Three cycles of a growing family. -/
def grownTracker : LeakTracker :=
  [(5, 8), (10, 10), (15, 12)].foldl
    (fun t (secs, count) =>
      (t.update ((List.range count).map worker) sparesBrowser (Instant.ofSecs secs)).1)
    .new

/-- In the fourth the excluded worker is terminated with the others, as another
one is listed first. -/
theorem excluded_worker_terminated :
    ¬ SparesExcluded sparesBrowser (Instant.ofSecs 20) grownTracker mixedFamily := by
  intro h
  have hSpared := (h mixedFamily.procs (.refl _)).1 ⟨⟨1000⟩, "browser", "mcp-server"⟩
    (by decide +kernel) renamed (by decide +kernel) rfl
  exact absurd hSpared (by decide +kernel)

end Mgd.LeakFamilies
