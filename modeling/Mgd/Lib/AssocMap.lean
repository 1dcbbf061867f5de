import Mathlib.Algebra.GroupWithZero.Nat
import Mathlib.Data.List.AList
import Mathlib.Data.List.Induction

/-!
# Finite maps with a filter

`Mathlib`'s `AList` is an association list that carries the proof that its
keys are distinct.  This module names the non-dependent case `Map` and adds
what a hash map offers and `AList` lacks: `retain`, which drops the entries a
test rejects, `adjust`, which rewrites the entry of one key, `insertAll`, which
makes one entry for each element of a list, and the list of `values`.  What a
client needs to know is read through `lookup`: no statement depends on the order
of the entries.
-/

namespace Mgd.Lib.AssocMap

universe u v

/-- A finite map from `α` to `β`. -/
abbrev Map (α : Type u) (β : Type v) := AList (fun _ : α => β)

variable {α : Type u} {β : Type v}

/-- The values of the map, one per key. -/
def values (m : Map α β) : List β := m.entries.map Sigma.snd

/-- Keep the entries the test accepts. -/
def retain (keep : α → β → Bool) (m : Map α β) : Map α β :=
  ⟨m.entries.filter (fun e => keep e.1 e.2),
    m.nodupKeys.sublist List.filter_sublist⟩

variable [DecidableEq α]

/-- Rewrite the value of one key; a missing key stays missing. -/
def adjust (a : α) (f : β → β) (m : Map α β) : Map α β :=
  match m.lookup a with
  | none => m
  | some b => m.insert a (f b)

/-- One entry for each element, the later ones overwriting the earlier. -/
def insertAll {γ : Type*} (key : γ → α) (val : γ → β) (m : Map α β) (xs : List γ) :
    Map α β :=
  xs.foldl (fun m x => m.insert (key x) (val x)) m

theorem lookup_eq_some_iff {m : Map α β} {a : α} {b : β} :
    m.lookup a = some b ↔ (⟨a, b⟩ : Sigma fun _ : α => β) ∈ m.entries :=
  AList.mem_lookup_iff

theorem mem_iff_lookup {m : Map α β} {a : α} :
    a ∈ m ↔ ∃ b, m.lookup a = some b := by
  rw [← AList.lookup_isSome, Option.isSome_iff_exists]

theorem mem_values_iff {m : Map α β} {b : β} :
    b ∈ values m ↔ ∃ a, m.lookup a = some b := by
  simp only [values, List.mem_map, lookup_eq_some_iff]
  constructor
  · intro h
    obtain ⟨⟨a, b'⟩, hmem, hval⟩ := h
    have hb : b' = b := hval
    subst hb
    exact ⟨a, hmem⟩
  · intro h
    obtain ⟨a, hmem⟩ := h
    exact ⟨⟨a, b⟩, hmem, rfl⟩

theorem mem_keys_iff {m : Map α β} {a : α} :
    a ∈ m.keys ↔ ∃ b, m.lookup a = some b := by
  rw [← AList.mem_keys, mem_iff_lookup]

theorem lookup_retain_eq_some_iff {keep : α → β → Bool} {m : Map α β} {a : α}
    {b : β} :
    (retain keep m).lookup a = some b ↔ m.lookup a = some b ∧ keep a b = true := by
  rw [lookup_eq_some_iff, lookup_eq_some_iff]
  simp [retain, List.mem_filter]

/-- Reading a retained map filters what the map reads. -/
theorem lookup_retain (keep : α → β → Bool) (m : Map α β) (a : α) :
    (retain keep m).lookup a = (m.lookup a).filter (keep a) := by
  ext b
  rw [lookup_retain_eq_some_iff]
  cases h : m.lookup a with
  | none => simp
  | some c =>
      constructor
      · intro h
        obtain ⟨hc, hkeep⟩ := h
        cases hc
        simp [Option.filter, hkeep]
      · intro hmem
        obtain ⟨hc, hkeep⟩ := Option.filter_eq_some_iff.mp hmem
        cases hc
        exact ⟨rfl, hkeep⟩

/-- When the test only looks at keys, retaining keeps a key's entry or drops
it. -/
theorem lookup_retain_key (keep : α → Bool) (m : Map α β) (a : α) :
    (retain (fun k _ => keep k) m).lookup a =
      if keep a then m.lookup a else none := by
  rw [lookup_retain]
  cases hkeep : keep a <;> cases m.lookup a <;> simp [Option.filter]

/-- Insertion read at any key. -/
theorem lookup_insert_eq (a a' : α) (b : β) (m : Map α β) :
    (m.insert a b).lookup a' = if a' = a then some b else m.lookup a' := by
  by_cases h : a' = a
  · subst h
    rw [if_pos rfl]
    exact AList.lookup_insert m
  · rw [if_neg h]
    exact AList.lookup_insert_ne h

/-- Erasure read at any key. -/
theorem lookup_erase_eq (a a' : α) (m : Map α β) :
    (m.erase a).lookup a' = if a' = a then none else m.lookup a' := by
  by_cases h : a' = a
  · subst h
    rw [if_pos rfl]
    exact AList.lookup_erase a' m
  · rw [if_neg h]
    exact AList.lookup_erase_ne h

/-- Adjustment read at any key. -/
theorem lookup_adjust_eq (a a' : α) (f : β → β) (m : Map α β) :
    (adjust a f m).lookup a' = if a' = a then (m.lookup a).map f else m.lookup a' := by
  unfold adjust
  cases h : m.lookup a with
  | none =>
      by_cases ha : a' = a
      · rw [if_pos ha, ha]
        exact h
      · rw [if_neg ha]
  | some b => exact lookup_insert_eq a a' (f b) m

/-- The values of a map, one of them taken out. -/
theorem sum_values_erase {m : Map α β} {a : α} {b : β} (h : m.lookup a = some b) (f : β → Nat) :
    ((values m).map f).sum = f b + ((values (m.erase a)).map f).sum := by
  have hKey : a ∈ m.entries.keys := mem_keys_iff.mpr ⟨b, h⟩
  obtain ⟨b', before, after, -, hEntries, hErased⟩ := List.exists_of_kerase hKey
  have hMem : (⟨a, b'⟩ : Sigma fun _ : α => β) ∈ m.entries := by
    rw [hEntries]
    simp
  have hSame : b' = b := by
    rw [lookup_eq_some_iff.mpr hMem] at h
    exact Option.some.inj h
  have hRest : (m.erase a).entries = before ++ after := hErased
  unfold values
  rw [hRest, hEntries, hSame]
  simp only [List.map_append, List.map_cons, List.sum_append, List.sum_cons]
  omega

/-- A value of a map rewritten. -/
theorem sum_values_adjust {m : Map α β} {a : α} {b : β} (h : m.lookup a = some b) (g : β → β)
    (f : β → Nat) :
    ((values (adjust a g m)).map f).sum = f (g b) + ((values (m.erase a)).map f).sum := by
  unfold adjust
  rw [h]
  rfl

/-- When each value of a map has a larger one under the same key of another,
its sum is no larger. -/
theorem sum_values_le {m m' : Map α β} {f g : β → Nat}
    (h : ∀ a b', m'.lookup a = some b' → f b' = 0 ∨ ∃ b, m.lookup a = some b ∧ f b' ≤ g b) :
    ((values m').map f).sum ≤ ((values m).map g).sum := by
  -- the first entry of the smaller map leaves both, with its key
  induction hLen : m'.entries.length generalizing m m' with
  | zero =>
      have hEmpty : m'.entries = [] := List.eq_nil_of_length_eq_zero hLen
      simp [values, hEmpty]
  | succ n ih =>
      rcases List.exists_cons_of_length_eq_add_one hLen with ⟨⟨a, b'⟩, rest, hEntries⟩
      have hHere : m'.lookup a = some b' := by
        refine lookup_eq_some_iff.mpr ?_
        rw [hEntries]
        exact List.mem_cons_self
      have hShorter : (m'.erase a).entries.length = n := by
        have hRest : (m'.erase a).entries = rest := by
          show m'.entries.kerase a = rest
          rw [hEntries]
          exact List.kerase_cons_eq rfl
        rw [hRest]
        rw [hEntries, List.length_cons] at hLen
        omega
      rw [sum_values_erase hHere f]
      cases h a b' hHere with
      | inl hZero =>
          have hOthers := ih (m := m) (fun k c hk => h k c (by
            rw [lookup_erase_eq] at hk
            split at hk
            · cases hk
            · exact hk)) hShorter
          omega
      | inr hLarger =>
          rcases hLarger with ⟨b, hb, hLe⟩
          have hOthers := ih (m := m.erase a) (fun k c hk => by
            rw [lookup_erase_eq] at hk ⊢
            split at hk
            · cases hk
            · next hOther =>
                rw [if_neg hOther]
                exact h k c hk) hShorter
          rw [sum_values_erase hb g]
          omega

section InsertAll

variable {γ : Type*} {key : γ → α} {val : γ → β}

@[simp] theorem insertAll_nil (m : Map α β) : insertAll key val m [] = m := rfl

@[simp] theorem insertAll_cons (m : Map α β) (x : γ) (xs : List γ) :
    insertAll key val m (x :: xs) = insertAll key val (m.insert (key x) (val x)) xs := rfl

theorem insertAll_append (m : Map α β) (xs ys : List γ) :
    insertAll key val m (xs ++ ys) = insertAll key val (insertAll key val m xs) ys :=
  List.foldl_append

/-- An entry was there before, or an element of the list made it. -/
theorem insertAll_origin {xs : List γ} {m : Map α β} {a : α} {b : β}
    (h : (insertAll key val m xs).lookup a = some b) :
    m.lookup a = some b ∨ ∃ x ∈ xs, key x = a ∧ val x = b := by
  induction xs generalizing m with
  | nil => exact Or.inl h
  | cons x xs ih =>
      cases ih h with
      | inl hHere =>
          rw [lookup_insert_eq] at hHere
          by_cases ha : a = key x
          · rw [if_pos ha] at hHere
            have hval : val x = b := Option.some.inj hHere
            exact Or.inr ⟨x, List.mem_cons_self, ha.symm, hval⟩
          · rw [if_neg ha] at hHere
            exact Or.inl hHere
      | inr hMade =>
          obtain ⟨y, hy, hRest⟩ := hMade
          exact Or.inr ⟨y, List.mem_cons_of_mem x hy, hRest⟩

/-- The key of every element has an entry, made by an element of that key. -/
theorem insertAll_of_mem {xs : List γ} {x : γ} (hx : x ∈ xs) (m : Map α β) :
    ∃ y ∈ xs, key y = key x ∧ (insertAll key val m xs).lookup (key x) = some (val y) := by
  induction xs using List.reverseRecOn with
  | nil => cases hx
  | append_singleton xs last ih =>
      simp only [insertAll_append, insertAll_cons, insertAll_nil]
      by_cases hLast : key x = key last
      · have hLookup : ((insertAll key val m xs).insert (key last) (val last)).lookup (key x) =
            some (val last) := by
          rw [hLast]
          exact AList.lookup_insert _
        exact ⟨last, by simp, hLast.symm, hLookup⟩
      · have hBefore : x ∈ xs := by
          rw [List.mem_append, List.mem_singleton] at hx
          exact hx.resolve_right (fun h => hLast (congrArg key h))
        obtain ⟨y, hy, hKey, hLookup⟩ := ih hBefore
        refine ⟨y, List.mem_append_left _ hy, hKey, ?_⟩
        rw [lookup_insert_eq, if_neg hLast]
        exact hLookup

end InsertAll

end Mgd.Lib.AssocMap
