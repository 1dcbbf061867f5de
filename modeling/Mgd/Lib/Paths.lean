import Mathlib.Data.List.Basic

/-!
# Paths and trees of directories

A path as a text and as its components, and a file system as a kernel walks it:
nodes at the paths of a tree, links followed on the way.

* `components_prefix_iff` : when the text of a path starts with the text of
  another, it is below it as a path exactly when the text goes on at a
  component boundary.
* `resolve_canonical` : what a walk ends at is reached from the root without
  a link, so resolving it again changes nothing.
* `canonicalize_concat` : a name that is no link stays below the canonical path
  it is looked up in.
-/

namespace Mgd.Lib.Paths

abbrev Name := List Char

/-! ## Texts -/

/-- The components of a text, `cur` being what has been read of the first. -/
def componentsFrom : Name → List Char → List Name
  | cur, [] => if cur.isEmpty then [] else [cur]
  | cur, c :: rest =>
      if c = '/' then (if cur.isEmpty then [] else [cur]) ++ componentsFrom [] rest
      else componentsFrom (cur ++ [c]) rest

/-- What stands between the slashes of a text. -/
def components (text : List Char) : List Name := componentsFrom [] text

/-- The text of an absolute path. -/
def pathText : List Name → List Char
  | [] => ['/']
  | [n] => '/' :: n
  | n :: m :: rest => '/' :: n ++ pathText (m :: rest)

/-- The text goes on at a boundary: it ends there, or a slash stands on either
side. -/
def Boundary (start rest : List Char) : Prop :=
  rest = [] ∨ rest.head? = some '/' ∨ start = [] ∨ start.getLast? = some '/'

instance (start rest : List Char) : Decidable (Boundary start rest) :=
  inferInstanceAs (Decidable (_ ∨ _ ∨ _ ∨ _))

theorem componentsFrom_append_slash (cur a b : List Char) :
    componentsFrom cur (a ++ '/' :: b) = componentsFrom cur a ++ components b := by
  induction a generalizing cur with
  | nil => simp [componentsFrom, components]
  | cons c a ih =>
      by_cases hSlash : c = '/'
      · rw [List.cons_append, componentsFrom, componentsFrom, if_pos hSlash, if_pos hSlash, ih,
          List.append_assoc]
      · rw [List.cons_append, componentsFrom, componentsFrom, if_neg hSlash, if_neg hSlash, ih]

theorem components_append_slash (a b : List Char) :
    components (a ++ '/' :: b) = components a ++ components b :=
  componentsFrom_append_slash [] a b

/-- A component without a slash stays one. -/
theorem componentsFrom_name {name : Name} (h : '/' ∉ name) (cur : Name) :
    componentsFrom cur name = if (cur ++ name).isEmpty then [] else [cur ++ name] := by
  induction name generalizing cur with
  | nil => rw [componentsFrom, List.append_nil]
  | cons c name ih =>
      rw [List.mem_cons, not_or] at h
      rw [componentsFrom, if_neg (Ne.symm h.1), ih h.2, List.append_assoc]
      rfl

/-- A name of a path. -/
def IsName (name : Name) : Prop := name ≠ [] ∧ '/' ∉ name

theorem components_name {name : Name} (h : IsName name) : components name = [name] := by
  unfold components
  rw [componentsFrom_name h.2, List.nil_append, if_neg]
  rw [List.isEmpty_iff]
  exact h.1

theorem isName_of_mem_componentsFrom {cur : Name} (hCur : '/' ∉ cur) {text : List Char} :
    ∀ n ∈ componentsFrom cur text, IsName n := by
  induction text generalizing cur with
  | nil =>
      intro n hn
      rw [componentsFrom] at hn
      split at hn
      · cases hn
      · next hNonempty =>
          rw [List.mem_singleton.mp hn]
          exact ⟨fun hNil => hNonempty (List.isEmpty_iff.mpr hNil), hCur⟩
  | cons c rest ih =>
      intro n hn
      rw [componentsFrom] at hn
      split at hn
      · cases List.mem_append.mp hn with
        | inl hHere =>
            split at hHere
            · cases hHere
            · next hNonempty =>
                rw [List.mem_singleton.mp hHere]
                exact ⟨fun hNil => hNonempty (List.isEmpty_iff.mpr hNil), hCur⟩
        | inr hLater => exact ih List.not_mem_nil n hLater
      · next hSlash =>
          refine ih ?_ n hn
          rw [List.mem_append, not_or]
          exact ⟨hCur, fun hIn => hSlash (List.mem_singleton.mp hIn).symm⟩

theorem isName_of_mem_components {text : List Char} : ∀ n ∈ components text, IsName n :=
  isName_of_mem_componentsFrom List.not_mem_nil

/-- The text of a path has its components. -/
theorem components_pathText {path : List Name} (h : ∀ n ∈ path, IsName n) :
    components (pathText path) = path := by
  have hSlash : ∀ text, components ('/' :: text) = components text :=
    fun text => components_append_slash [] text
  induction path with
  | nil => rfl
  | cons n rest ih =>
      rw [List.forall_mem_cons] at h
      cases rest with
      | nil => rw [pathText, hSlash, components_name h.1]
      | cons m rest =>
          obtain ⟨tail, hTail⟩ : ∃ tail, pathText (m :: rest) = '/' :: tail := by
            cases rest with
            | nil => exact ⟨m, rfl⟩
            | cons k rest => exact ⟨m ++ pathText (k :: rest), rfl⟩
          have hRest := ih h.2
          rw [hTail, hSlash] at hRest
          rw [pathText, List.cons_append, hSlash, hTail, components_append_slash,
            components_name h.1, hRest]
          rfl

/-- What has been read of a component is how it begins. -/
theorem componentsFrom_head {cur : Name} (hCur : cur ≠ []) (text : List Char) :
    ∃ more rest, componentsFrom cur text = (cur ++ more) :: rest := by
  induction text generalizing cur with
  | nil => exact ⟨[], [], by rw [componentsFrom, if_neg (by simp [hCur]), List.append_nil]⟩
  | cons c text ih =>
      by_cases hSlash : c = '/'
      · refine ⟨[], components text, ?_⟩
        rw [componentsFrom, if_pos hSlash, if_neg (by simp [hCur]), List.append_nil]
        rfl
      · have hNonempty : cur ++ [c] ≠ [] := by simp
        obtain ⟨more, rest, hMore⟩ := ih hNonempty
        refine ⟨c :: more, rest, ?_⟩
        rw [componentsFrom, if_neg hSlash, hMore, List.append_assoc]
        rfl

/-- A component that goes on is another one. -/
theorem not_prefix_of_inside {cur a b : List Char} {x : Char} (hx : x ≠ '/')
    (hEnd : a = [] → cur ≠ []) (hLast : a.getLast? ≠ some '/') :
    ¬ componentsFrom cur a <+: componentsFrom cur (a ++ x :: b) := by
  induction a generalizing cur with
  | nil =>
      have hCur := hEnd rfl
      have hNonempty : cur ++ [x] ≠ [] := by simp
      obtain ⟨more, rest, hMore⟩ := componentsFrom_head hNonempty b
      rw [List.nil_append, componentsFrom, componentsFrom, if_neg (by simp [hCur]), if_neg hx,
        hMore]
      intro hPrefix
      have hSame : cur = cur ++ [x] ++ more := (List.cons_prefix_cons.mp hPrefix).1
      have hLength := congrArg List.length hSame
      simp only [List.length_append, List.length_singleton] at hLength
      omega
  | cons c a ih =>
      rw [List.cons_append, componentsFrom, componentsFrom]
      by_cases hSlash : c = '/'
      · rw [if_pos hSlash, if_pos hSlash, List.prefix_append_right_inj]
        have hMore : a ≠ [] := by
          intro hNil
          rw [hNil, hSlash] at hLast
          exact hLast rfl
        apply ih (fun hNil => absurd hNil hMore)
        rwa [List.getLast?_cons_of_ne_nil hMore] at hLast
      · rw [if_neg hSlash, if_neg hSlash]
        apply ih (fun _ => by simp)
        cases a with
        | nil => simp
        | cons y a => rwa [List.getLast?_cons_cons] at hLast

/-- **Below as a path**: the text goes on at a boundary. -/
theorem components_prefix_iff (start rest : List Char) :
    components start <+: components (start ++ rest) ↔ Boundary start rest := by
  constructor
  · intro h
    unfold Boundary
    by_contra hNot
    simp only [not_or] at hNot
    obtain ⟨hRest, hHead, hStart, hLast⟩ := hNot
    cases rest with
    | nil => exact hRest rfl
    | cons x rest =>
        have hx : x ≠ '/' := by
          intro hSlash
          rw [hSlash] at hHead
          exact hHead rfl
        exact not_prefix_of_inside hx (fun hNil => absurd hNil hStart) hLast h
  · rintro (hRest | hHead | hStart | hLast)
    · exact ⟨[], by rw [hRest, List.append_nil, List.append_nil]⟩
    · obtain ⟨tail, hTail⟩ := List.head?_eq_some_iff.mp hHead
      rw [hTail, components_append_slash]
      exact List.prefix_append _ _
    · rw [hStart]
      exact List.nil_prefix
    · obtain ⟨init, hInit⟩ := List.getLast?_eq_some_iff.mp hLast
      rw [hInit, List.append_assoc, List.singleton_append, components_append_slash,
        components_append_slash]
      exact List.prefix_append_right_inj _ |>.mpr List.nil_prefix

/-! ## Trees -/

inductive Node
  | dir (owner : Nat)
  | file (owner : Nat)
  | link (target : List Char)

/-- What stands at each path, the links themselves included, and how many steps
a walk may take. -/
structure Tree where
  node : List Name → Option Node
  limit : Nat

def dot : Name := ['.']

def dotDot : Name := ['.', '.']

/-- A walk from the directory `cur`. -/
def Tree.walk (t : Tree) : Nat → List Name → List Name → Option (List Name)
  | _, cur, [] => some cur
  | 0, _, _ :: _ => none
  | fuel + 1, cur, n :: rest =>
      if n = dot then t.walk fuel cur rest
      else if n = dotDot then t.walk fuel cur.dropLast rest
      else
        match t.node (cur ++ [n]) with
        | none => none
        | some (.link target) =>
            t.walk fuel (if target.head? = some '/' then [] else cur) (components target ++ rest)
        | some (.file _) => if rest = [] then some (cur ++ [n]) else none
        | some (.dir _) => t.walk fuel (cur ++ [n]) rest

/-- The path a text resolves to, seen from the directory `cwd`.  A path longer
than the limit is an error, as is the empty text. -/
def Tree.resolve (t : Tree) (cwd : List Name) (text : List Char) : Option (List Name) :=
  if text = [] then none
  else
    (t.walk t.limit (if text.head? = some '/' then [] else cwd) (components text)).filter
      fun path => decide (path.length ≤ t.limit)

/-- Who owns what stands at the path. -/
def Tree.ownerAt (t : Tree) (path : List Name) : Option Nat :=
  match t.node path with
  | some (.dir owner) => some owner
  | some (.file owner) => some owner
  | _ => none

/-- A name that a walk takes as one. -/
def Plain (n : Name) : Prop := IsName n ∧ n ≠ dot ∧ n ≠ dotDot

/-- Every directory on the way is one, under a plain name. -/
def Tree.Dirs (t : Tree) (path : List Name) : Prop :=
  ∀ init n tail, path = init ++ n :: tail →
    Plain n ∧ ∃ owner, t.node (init ++ [n]) = some (.dir owner)

/-- A path without links: directories, and a directory or a file at its end. -/
def Tree.Canonical (t : Tree) (path : List Name) : Prop :=
  t.Dirs path ∨
    ∃ init n owner, path = init ++ [n] ∧ t.Dirs init ∧ Plain n ∧
      t.node path = some (.file owner)

variable {t : Tree}

theorem dirs_nil : t.Dirs [] := by
  intro init n tail h
  cases init <;> cases h

theorem Tree.Dirs.dropLast {path : List Name} (h : t.Dirs path) : t.Dirs path.dropLast := by
  intro init n tail hEq
  cases path with
  | nil =>
      rw [List.dropLast_nil] at hEq
      cases init <;> cases hEq
  | cons m rest =>
      have hNonempty := List.cons_ne_nil m rest
      apply h init n (tail ++ [(m :: rest).getLast hNonempty])
      rw [← List.cons_append, ← List.append_assoc, ← hEq, List.dropLast_concat_getLast]

theorem Tree.Dirs.concat {path : List Name} (h : t.Dirs path) {n : Name} (hn : Plain n)
    {owner : Nat} (hDir : t.node (path ++ [n]) = some (.dir owner)) : t.Dirs (path ++ [n]) := by
  intro init m tail hEq
  cases List.eq_nil_or_concat tail with
  | inl hNil =>
      rw [hNil] at hEq
      obtain ⟨hInit, hName⟩ := List.append_inj' hEq rfl
      cases hName
      rw [← hInit]
      exact ⟨hn, owner, hDir⟩
  | inr hConcat =>
      obtain ⟨front, last, hTail⟩ := hConcat
      have hPath : path = init ++ m :: front := by
        rw [hTail, List.concat_eq_append, ← List.cons_append, ← List.append_assoc] at hEq
        exact (List.append_inj' hEq rfl).1
      exact h init m front hPath

/-- **A walk ends at a path without links.** -/
theorem canonical_walk {fuel : Nat} {cur rest path : List Name} (hCur : t.Dirs cur)
    (hNames : ∀ n ∈ rest, IsName n) (h : t.walk fuel cur rest = some path) : t.Canonical path := by
  induction fuel generalizing cur rest with
  | zero =>
      cases rest with
      | nil =>
          rw [Tree.walk] at h
          cases h
          exact Or.inl hCur
      | cons n rest => cases h
  | succ fuel ih =>
      cases rest with
      | nil =>
          rw [Tree.walk] at h
          cases h
          exact Or.inl hCur
      | cons n rest =>
          rw [List.forall_mem_cons] at hNames
          rw [Tree.walk] at h
          split at h
          · exact ih hCur hNames.2 h
          next hDot =>
            split at h
            · exact ih hCur.dropLast hNames.2 h
            next hDotDot =>
              have hPlain : Plain n := ⟨hNames.1, hDot, hDotDot⟩
              split at h
              · cases h
              · next target hLink =>
                  refine ih ?_ ?_ h
                  · split
                    · exact dirs_nil
                    · exact hCur
                  · intro m hm
                    cases List.mem_append.mp hm with
                    | inl hTarget => exact isName_of_mem_components m hTarget
                    | inr hRest => exact hNames.2 m hRest
              · next owner hFile =>
                  split at h
                  · cases h
                    exact Or.inr ⟨cur, n, owner, rfl, hCur, hPlain, hFile⟩
                  · cases h
              · next owner hDir => exact ih (hCur.concat hPlain hDir) hNames.2 h

/-- Over directories a walk goes straight on. -/
theorem walk_dirs {cur rest : List Name} (tail : List Name) (fuel : Nat)
    (h : t.Dirs (cur ++ rest)) :
    t.walk (rest.length + fuel) cur (rest ++ tail) = t.walk fuel (cur ++ rest) tail := by
  induction rest generalizing cur with
  | nil => simp
  | cons n rest ih =>
      obtain ⟨⟨-, hDot, hDotDot⟩, owner, hDir⟩ := h cur n rest rfl
      have hFuel : (n :: rest).length + fuel = (rest.length + fuel) + 1 := by
        rw [List.length_cons]
        omega
      rw [hFuel, List.cons_append, Tree.walk, if_neg hDot, if_neg hDotDot, hDir]
      dsimp only
      rw [ih (by rwa [List.append_assoc]), List.append_assoc]
      rfl

/-- A path without links is walked to from the root. -/
theorem walk_canonical {path : List Name} (h : t.Canonical path) {fuel : Nat}
    (hFuel : path.length ≤ fuel) : t.walk fuel [] path = some path := by
  cases h with
  | inl hDirs =>
      have hRoot : t.Dirs ([] ++ path) := hDirs
      have hWalk := walk_dirs [] (fuel - path.length) hRoot
      rw [List.append_nil, Nat.add_sub_cancel' hFuel] at hWalk
      rw [hWalk, Tree.walk]
      rfl
  | inr hFile =>
      obtain ⟨init, n, owner, hPath, hDirs, ⟨-, hDot, hDotDot⟩, hNode⟩ := hFile
      have hLength : fuel = init.length + (fuel - init.length - 1 + 1) := by
        rw [hPath, List.length_append, List.length_singleton] at hFuel
        omega
      have hRoot : t.Dirs ([] ++ init) := hDirs
      have hWalk := walk_dirs [n] (fuel - init.length - 1 + 1) hRoot
      rw [← hLength] at hWalk
      rw [hPath, hWalk, Tree.walk, if_neg hDot, if_neg hDotDot, List.nil_append, ← hPath, hNode]
      rfl

theorem isName_of_dirs {path : List Name} (h : t.Dirs path) : ∀ n ∈ path, IsName n := by
  intro n hn
  obtain ⟨init, tail, hPath⟩ := List.append_of_mem hn
  exact (h init n tail hPath).1.1

theorem isName_of_canonical {path : List Name} (h : t.Canonical path) : ∀ n ∈ path, IsName n := by
  cases h with
  | inl hDirs => exact isName_of_dirs hDirs
  | inr hFile =>
      obtain ⟨init, m, owner, hPath, hDirs, hPlain, -⟩ := hFile
      intro n hn
      rw [hPath] at hn
      cases List.mem_append.mp hn with
      | inl hInit => exact isName_of_dirs hDirs n hInit
      | inr hLast => rw [List.mem_singleton.mp hLast]; exact hPlain.1

theorem head?_pathText (path : List Name) : (pathText path).head? = some '/' := by
  cases path with
  | nil => rfl
  | cons n rest => cases rest <;> rfl

theorem canonical_resolve {cwd path : List Name} {text : List Char} (hCwd : t.Dirs cwd)
    (h : t.resolve cwd text = some path) : t.Canonical path ∧ path.length ≤ t.limit := by
  unfold Tree.resolve at h
  split at h
  · cases h
  · obtain ⟨hWalk, hLength⟩ := Option.filter_eq_some_iff.mp h
    refine ⟨canonical_walk ?_ isName_of_mem_components hWalk, of_decide_eq_true hLength⟩
    split
    · exact dirs_nil
    · exact hCwd

/-- **A resolved path resolves to itself**, whatever the directory. -/
theorem resolve_canonical {path : List Name} (h : t.Canonical path)
    (hLength : path.length ≤ t.limit) (cwd : List Name) :
    t.resolve cwd (pathText path) = some path := by
  have hNonempty : pathText path ≠ [] := by
    intro hNil
    have hHead := head?_pathText path
    rw [hNil] at hHead
    cases hHead
  unfold Tree.resolve
  rw [if_neg hNonempty, if_pos (head?_pathText path), components_pathText (isName_of_canonical h),
    walk_canonical h hLength]
  exact Option.filter_eq_some_iff.mpr ⟨rfl, decide_eq_true hLength⟩

/-! ## Going on from a path -/

/-- A path goes on into a directory that lies below its first part only by the
names that lead there. -/
theorem prefix_append_iff {top front back : List Name} :
    top <+: front ++ back ↔ top <+: front ∨ ∃ gap, top = front ++ gap ∧ gap <+: back := by
  constructor
  · intro h
    cases List.prefix_or_prefix_of_prefix h (List.prefix_append front back) with
    | inl hFront => exact Or.inl hFront
    | inr hBelow =>
        obtain ⟨gap, hGap⟩ := hBelow
        rw [← hGap, List.prefix_append_right_inj] at h
        exact Or.inr ⟨gap, hGap.symm, h⟩
  · rintro (hFront | ⟨gap, rfl, hGap⟩)
    · exact hFront.trans (List.prefix_append front back)
    · rwa [List.prefix_append_right_inj]

/-- The canonical path of one given by its components. -/
def Tree.canonicalize (t : Tree) (path : List Name) : Option (List Name) := t.walk t.limit [] path

/-- A walk goes through where its first part ends. -/
theorem walk_append {fuel : Nat} {cur front back path : List Name}
    (h : t.walk fuel cur (front ++ back) = some path) :
    ∃ mid, t.walk fuel cur front = some mid ∧ ∃ fuel', t.walk fuel' mid back = some path := by
  induction fuel generalizing cur front with
  | zero =>
      cases front with
      | nil => exact ⟨cur, by rw [Tree.walk], 0, h⟩
      | cons n rest => cases h
  | succ fuel ih =>
      cases front with
      | nil => exact ⟨cur, by rw [Tree.walk], fuel + 1, h⟩
      | cons n rest =>
          rw [List.cons_append, Tree.walk] at h
          rw [Tree.walk]
          by_cases hDot : n = dot
          · rw [if_pos hDot] at h ⊢
            exact ih h
          rw [if_neg hDot] at h ⊢
          by_cases hDotDot : n = dotDot
          · rw [if_pos hDotDot] at h ⊢
            exact ih h
          rw [if_neg hDotDot] at h ⊢
          cases hNode : t.node (cur ++ [n]) with
          | none =>
              rw [hNode] at h
              cases h
          | some node =>
              rw [hNode] at h
              cases node with
              | dir owner => exact ih h
              | file owner =>
                  dsimp only at h ⊢
                  split at h
                  · next hNil =>
                      obtain ⟨hRest, hBack⟩ := List.append_eq_nil_iff.mp hNil
                      rw [if_pos hRest, hBack]
                      exact ⟨_, rfl, 0, by rw [Tree.walk]; exact h⟩
                  · cases h
              | link target =>
                  dsimp only at h ⊢
                  rw [← List.append_assoc] at h
                  exact ih h

/-- One name further, where no link stands. -/
theorem walk_name {fuel : Nat} {cur path : List Name} {n : Name} (hn : Plain n)
    (hLink : ∀ target, t.node (cur ++ [n]) ≠ some (.link target))
    (h : t.walk fuel cur [n] = some path) : path = cur ++ [n] := by
  cases fuel with
  | zero => cases h
  | succ fuel =>
      rw [Tree.walk, if_neg hn.2.1, if_neg hn.2.2] at h
      cases hNode : t.node (cur ++ [n]) with
      | none =>
          rw [hNode] at h
          cases h
      | some node =>
          rw [hNode] at h
          cases node with
          | dir owner =>
              dsimp only at h
              rw [Tree.walk] at h
              exact (Option.some.inj h).symm
          | file owner =>
              dsimp only at h
              rw [if_pos rfl] at h
              exact (Option.some.inj h).symm
          | link target => exact absurd hNode (hLink target)

/-- **A name that is no link** stays below the canonical path it is looked up
in. -/
theorem canonicalize_concat {path result : List Name} {n : Name} (hn : Plain n)
    (hLink : ∀ mid ∈ t.canonicalize path, ∀ target, t.node (mid ++ [n]) ≠ some (.link target))
    (h : t.canonicalize (path ++ [n]) = some result) :
    ∃ mid ∈ t.canonicalize path, result = mid ++ [n] := by
  obtain ⟨mid, hMid, fuel, hName⟩ := walk_append h
  exact ⟨mid, hMid, walk_name hn (hLink mid hMid) hName⟩

end Mgd.Lib.Paths
