import Mathlib.Data.List.Forall2
import Mathlib.Data.List.Induction
import Mathlib.Data.List.TakeWhile
import Mgd.CacheDrop

/-!
# Where the page-cache drop goes

The walk enters no link, but the expansion of a pattern does, and files that
cannot be advised cost nothing.

* `canonicalize_below` : a file stays below the canonical path of the match it
  is found under.
* `bounded_and_confined_iff` : on which trees and patterns a call opens no more
  files than its budget, and advises none outside the configured tree.
-/

namespace Mgd.CacheDrop

open Mgd.Lib.Budget Mgd.Lib.Paths

variable {d : Disk}

/-! ## Below a match -/

theorem symlinkMetadata_concat {path : Path} {n : Name} (hn : Plain n) :
    d.symlinkMetadata (path ++ [n]) =
      (d.tree.canonicalize path).bind fun parent =>
        if d.fileType parent = some .dir then d.fileType (parent ++ [n]) else none := by
  have hNot : ¬ (n = dot ∨ n = dotDot) := not_or.mpr hn.2
  unfold Disk.symlinkMetadata
  rw [List.getLast?_concat, List.dropLast_concat]
  exact if_neg hNot

theorem fileType_link {path : Path} {n : Name} {target : List Char}
    (h : d.tree.node (path ++ [n]) = some (.link target)) :
    d.fileType (path ++ [n]) = some .symlink := by
  unfold Disk.fileType
  rw [if_neg (by simp), h]

/-- A name that is seen, and is no link, is looked up where its directory is. -/
theorem canonicalize_entry {path result : Path} {n : Name} (hn : Plain n) {type : FileType}
    (hType : d.symlinkMetadata (path ++ [n]) = some type) (hLink : type ≠ .symlink)
    (h : d.tree.canonicalize (path ++ [n]) = some result) :
    ∃ canonical ∈ d.tree.canonicalize path, result = canonical ++ [n] := by
  apply canonicalize_concat hn _ h
  intro mid hMid target hNode
  rw [symlinkMetadata_concat hn, Option.mem_def.mp hMid, Option.bind_some] at hType
  split at hType
  · rw [fileType_link hNode] at hType
    exact hLink (Option.some.inj hType).symm
  · cases hType

/-- What has regular files below it is one, or a directory. -/
theorem type_of_mem_regularFiles {levels : Nat} {path below : Path}
    (h : below ∈ d.regularFiles levels path) :
    ∃ type, d.symlinkMetadata path = some type ∧ type ≠ .symlink := by
  cases levels with
  | zero => exact absurd h List.not_mem_nil
  | succ levels =>
      rw [Disk.regularFiles] at h
      split at h
      · next hFile => exact ⟨.file, hFile, by decide⟩
      · next hDir => exact ⟨.dir, hDir, by decide⟩
      · exact absurd h List.not_mem_nil

/-- **A file stays below its match**: no link is on the way. -/
theorem canonicalize_below {levels : Nat} {path below result : Path}
    (h : below ∈ d.regularFiles levels path)
    (hResult : d.tree.canonicalize (path ++ below) = some result) :
    ∃ canonical ∈ d.tree.canonicalize path, result = canonical ++ below := by
  induction levels generalizing path below with
  | zero => exact absurd h List.not_mem_nil
  | succ levels ih =>
      rw [Disk.regularFiles] at h
      split at h
      · rw [List.mem_singleton] at h
        rw [h, List.append_nil] at hResult
        exact ⟨result, hResult, by rw [h, List.append_nil]⟩
      · obtain ⟨entry, -, hEntry⟩ := List.mem_flatMap.mp h
        obtain ⟨rest, hRest, hBelow⟩ := List.mem_map.mp hEntry
        have hPath : path ++ below = path ++ [entry.1] ++ rest := by
          rw [← hBelow, List.append_assoc]
          rfl
        rw [hPath] at hResult
        obtain ⟨inner, hInner, hEnd⟩ := ih hRest hResult
        obtain ⟨type, hType, hLink⟩ := type_of_mem_regularFiles hRest
        obtain ⟨canonical, hCanonical, hName⟩ := canonicalize_entry entry.2 hType hLink hInner
        refine ⟨canonical, hCanonical, ?_⟩
        rw [hEnd, hName, ← hBelow, List.append_assoc]
        rfl
      · exact absurd h List.not_mem_nil

/-! ## The configured tree -/

variable (d)

/-- The segments of a pattern before the first with a star. -/
def Disk.leading (pattern : List Char) : Path :=
  (d.segments pattern).takeWhile fun seg => decide ('*' ∉ seg)

/-- The canonical path is inside the directory that the leading segments name. -/
def Disk.Inside (pattern : List Char) (path : Path) : Prop :=
  ∃ top ∈ d.tree.canonicalize (d.leading pattern), ∃ canonical ∈ d.tree.canonicalize path,
    top <+: canonical

instance (pattern : List Char) (path : Path) : Decidable (d.Inside pattern path) :=
  inferInstanceAs (Decidable (∃ top ∈ _, ∃ canonical ∈ _, _))

/-- The match resolves to a path inside that directory, or else to one above it,
and the names that lead from the match to the file go into the directory. -/
def Found.Stays (f : Found) : Prop :=
  ∃ top ∈ d.tree.canonicalize (d.leading f.pattern), ∃ canonical ∈ d.tree.canonicalize f.root,
    top <+: canonical ∨ ∃ gap, top = canonical ++ gap ∧ gap <+: f.below

variable {d}

theorem below_of_mem_candidates {patterns : List (List Char)} {f : Found}
    (h : f ∈ d.candidates patterns) : f.below ∈ d.regularFiles (MAX_DEPTH + 1) f.root := by
  obtain ⟨pattern, -, hPattern⟩ := List.mem_flatMap.mp h
  obtain ⟨root, -, hRoot⟩ := List.mem_flatMap.mp hPattern
  obtain ⟨below, hBelow, rfl⟩ := List.mem_map.mp hRoot
  exact hBelow

/-- An advised file is inside exactly when its match stays. -/
theorem inside_iff_stays {patterns : List (List Char)} {f : Found} (h : f ∈ d.candidates patterns)
    (hAdvised : d.Advisable f.path) : d.Inside f.pattern f.path ↔ f.Stays d := by
  obtain ⟨path, hPath, -⟩ := hAdvised
  obtain ⟨canonical, hCanonical, hEnd⟩ := canonicalize_below (below_of_mem_candidates h) hPath
  unfold Disk.Inside Found.Stays
  simp only [Option.mem_def] at hPath hCanonical ⊢
  rw [hPath, hCanonical]
  simp only [Option.some.injEq, exists_eq_left']
  rw [hEnd]
  simp only [prefix_append_iff]

/-! ## Matches that stay -/

/-- A match has the segments of its pattern, each without a star as it is. -/
theorem forall₂_of_mem_expandFrom {frontier : List Path} {segs : List Name} {root : Path}
    (h : root ∈ d.expandFrom frontier segs) :
    ∃ base ∈ frontier, ∃ names, root = base ++ names ∧
      List.Forall₂ (fun seg name => '*' ∉ seg → name = seg) segs names := by
  induction segs generalizing frontier with
  | nil => exact ⟨root, h, [], (List.append_nil root).symm, List.Forall₂.nil⟩
  | cons seg segs ih =>
      rw [Disk.expandFrom] at h
      have hNext : root ∈ d.expandFrom (frontier.flatMap (d.expandSegment seg)) segs := by
        split at h
        · next hEmpty =>
            rw [List.isEmpty_iff.mp hEmpty] at h
            exact absurd h List.not_mem_nil
        · exact h
      obtain ⟨step, hStep, names, hRoot, hNames⟩ := ih hNext
      obtain ⟨base, hBase, hSegment⟩ := List.mem_flatMap.mp hStep
      have hName : ∃ name, step = base ++ [name] ∧ ('*' ∉ seg → name = seg) := by
        unfold Disk.expandSegment at hSegment
        split at hSegment
        · next hStar =>
            split at hSegment
            · exact absurd hSegment List.not_mem_nil
            · obtain ⟨name, -, rfl⟩ := List.mem_map.mp hSegment
              exact ⟨name, rfl, fun hNot => absurd hStar hNot⟩
        · split at hSegment
          · exact ⟨seg, List.mem_singleton.mp hSegment, fun _ => rfl⟩
          · exact absurd hSegment List.not_mem_nil
      obtain ⟨name, rfl, hLiteral⟩ := hName
      exact ⟨base, hBase, name :: names, by rw [hRoot, List.append_assoc]; rfl,
        List.Forall₂.cons hLiteral hNames⟩

/-- **A match begins with the leading segments** of its pattern. -/
theorem leading_append {pattern : List Char} {root : Path} (h : root ∈ d.expandPath pattern) :
    ∃ later, root = d.leading pattern ++ later ∧
      (d.leading pattern).length + later.length = (d.segments pattern).length := by
  obtain ⟨base, hBase, names, hRoot, hNames⟩ := forall₂_of_mem_expandFrom h
  rw [List.mem_singleton.mp hBase, List.nil_append] at hRoot
  rw [hRoot]
  clear hRoot
  unfold Disk.leading
  generalize d.segments pattern = segs at hNames ⊢
  induction hNames with
  | nil => exact ⟨[], rfl, rfl⟩
  | @cons seg name segs names hLiteral hRest ih =>
      rw [List.takeWhile_cons]
      by_cases hStar : '*' ∈ seg
      · have hSame : names.length = segs.length := hRest.length_eq.symm
        rw [if_neg (by simpa using hStar)]
        exact ⟨name :: names, rfl, by simp [hSame]⟩
      · obtain ⟨later, hLater, hLength⟩ := ih
        rw [if_pos (by simpa using hStar), hLiteral hStar, hLater]
        refine ⟨later, rfl, ?_⟩
        rw [List.length_cons, List.length_cons]
        omega

/-- **Where no link is on the way** from the leading segments, the match stays. -/
theorem stays_of_no_link {f : Found} {later : Path} (hRoot : f.root = d.leading f.pattern ++ later)
    (hPlain : ∀ n ∈ later, Plain n)
    (hLink : ∀ init n tail, later = init ++ n :: tail →
      ∃ type, d.symlinkMetadata (d.leading f.pattern ++ init ++ [n]) = some type ∧
        type ≠ .symlink)
    {canonical : Path} (h : d.tree.canonicalize f.root = some canonical) : f.Stays d := by
  have hBelow : ∃ top ∈ d.tree.canonicalize (d.leading f.pattern), top <+: canonical := by
    rw [hRoot] at h
    clear hRoot
    induction later using List.reverseRecOn generalizing canonical with
    | nil => exact ⟨canonical, by rwa [List.append_nil] at h, List.prefix_rfl⟩
    | append_singleton init n ih =>
        obtain ⟨type, hType, hNot⟩ := hLink init n [] rfl
        have hName : Plain n := hPlain n (by simp)
        rw [← List.append_assoc] at h
        obtain ⟨parent, hParent, hEnd⟩ := canonicalize_entry hName hType hNot h
        obtain ⟨top, hTop, hPrefix⟩ :=
          ih (fun m hm => hPlain m (List.mem_append_left [n] hm))
            (fun front m tail hFront => hLink front m (tail ++ [n]) (by simp [hFront])) hParent
        rw [hEnd]
        exact ⟨top, hTop, hPrefix.trans (List.prefix_append parent [n])⟩
  obtain ⟨top, hTop, hPrefix⟩ := hBelow
  exact ⟨top, hTop, canonical, h, Or.inl hPrefix⟩

/-- A pattern without a star leads nowhere else. -/
theorem stays_of_literal {pattern : List Char} {root below canonical : Path}
    (hLiteral : ∀ seg ∈ d.segments pattern, '*' ∉ seg) (hRoot : root ∈ d.expandPath pattern)
    (h : d.tree.canonicalize root = some canonical) : Found.Stays d ⟨pattern, root, below⟩ := by
  obtain ⟨later, hLater, hLength⟩ := leading_append hRoot
  have hLeading : d.leading pattern = d.segments pattern :=
    List.takeWhile_eq_self_iff.mpr fun seg hSeg => decide_eq_true (hLiteral seg hSeg)
  have hNil : later = [] := by
    rw [hLeading] at hLength
    exact List.length_eq_zero_iff.mp (by omega)
  apply stays_of_no_link hLater _ _ h
  · rw [hNil]
    exact fun n hn => absurd hn List.not_mem_nil
  · intro init n tail hSplit
    rw [hNil] at hSplit
    cases init <;> cases hSplit

/-! ## A call -/

variable (d)

/-- **The contract of the cache walk.**  A call ends, as every function does
here; it tries to open at most `MAX_FILES` files, and each it advises is inside
the directory that the leading segments of its pattern name. -/
def Disk.BoundedAndConfined (patterns : List (List Char)) : Prop :=
  (d.trace MAX_FILES patterns).length ≤ MAX_FILES ∧
    ∀ t ∈ d.trace MAX_FILES patterns, t.2.advised.isSome = true → d.Inside t.1 t.2.path

/-- There are no more regular files than the budget allows for, or each of the
first of them can be advised. -/
def Disk.Affordable (patterns : List (List Char)) : Prop :=
  (d.candidates patterns).length ≤ MAX_FILES ∨
    ∀ f ∈ (d.candidates patterns).take MAX_FILES, d.Advisable f.path

/-- The matches below which the first of the files can be advised all stay. -/
def Disk.Staying (patterns : List (List Char)) : Prop :=
  ∀ f ∈ (d.candidates patterns).take MAX_FILES, d.Advisable f.path → f.Stays d

variable {d}

theorem pays_iff {f : Found} : f.pays d = true ↔ d.Advisable f.path := isSome_adviseDropFile

theorem length_trace_le_iff {patterns : List (List Char)} :
    (d.trace MAX_FILES patterns).length ≤ MAX_FILES ↔ d.Affordable patterns := by
  rw [trace_eq, List.length_map, length_reached_le_iff]
  unfold Disk.Affordable
  simp only [pays_iff]

/-- A call within its budget has tried the first of the files. -/
theorem trace_eq_take {patterns : List (List Char)} (h : d.Affordable patterns) :
    d.trace MAX_FILES patterns =
      ((d.candidates patterns).take MAX_FILES).map fun f => (f.pattern, f.attempt d) := by
  have hBudget : (d.candidates patterns).length ≤ MAX_FILES ∨
      ∀ f ∈ (d.candidates patterns).take MAX_FILES, f.pays d = true := by
    simp only [pays_iff]
    exact h
  rw [trace_eq, reached_eq_take _ hBudget]

theorem confined_iff {patterns : List (List Char)} (h : d.Affordable patterns) :
    (∀ t ∈ d.trace MAX_FILES patterns, t.2.advised.isSome = true → d.Inside t.1 t.2.path) ↔
      d.Staying patterns := by
  rw [trace_eq_take h]
  unfold Disk.Staying
  rw [List.forall_mem_map]
  apply forall₂_congr
  intro f hf
  have hAdvised : (f.attempt d).advised.isSome = true ↔ d.Advisable f.path := pays_iff
  constructor
  · intro hInside hFile
    exact (inside_iff_stays (List.mem_of_mem_take hf) hFile).mp (hInside (hAdvised.mpr hFile))
  · intro hStays hFile
    have hAdvisable := hAdvised.mp hFile
    exact (inside_iff_stays (List.mem_of_mem_take hf) hAdvisable).mpr (hStays hAdvisable)

/-- **The walk is bounded and confined** exactly when the files that cannot be
advised do not stand before others, and no match leads out. -/
theorem bounded_and_confined_iff (d : Disk) (patterns : List (List Char)) :
    d.BoundedAndConfined patterns ↔ d.Affordable patterns ∧ d.Staying patterns := by
  unfold Disk.BoundedAndConfined
  rw [length_trace_le_iff]
  exact and_congr_right confined_iff

/-! ## Two calls that fail it -/

def text (s : String) : List Char := s.toList

/-- `~/proj/old` is a link to `/mnt`, which has a directory `target`. -/
def projects : Disk where
  tree :=
    { node := fun path =>
        if path = [text "home"] ∨ path = [text "home", text "proj"] ∨ path = [text "mnt"] ∨
            path = [text "mnt", text "target"] then some (.dir 0)
        else if path = [text "home", text "proj", text "old"] then some (.link (text "/mnt"))
        else if path = [text "mnt", text "target", text "db"] then some (.file 0)
        else none
      limit := 40 }
  entries := fun path =>
    if path = [text "home", text "proj"] then
      some [⟨text "old", ⟨by decide, by decide⟩, by decide, by decide⟩]
    else if path = [text "mnt", text "target"] then
      some [⟨text "db", ⟨by decide, by decide⟩, by decide, by decide⟩]
    else none
  isRegular := fun _ => true
  open_ := fun _ => some { len := 4096, ret := 0 }
  home := some (text "/home")

/-- The file `db` of the link's target. -/
def db : Path := [text "home", text "proj", text "old", text "target", text "db"]

theorem not_inside_projects :
    (text "~/proj/*/target", (⟨db, some 4096⟩ : Attempt)) ∈
        projects.trace MAX_FILES [text "~/proj/*/target"] ∧
      ¬ projects.Inside (text "~/proj/*/target") db := by
  decide +kernel

def build : Name := text "build"

/-- A directory with files in it. -/
def buildTree : Tree where
  node := fun path =>
    if path = [build] then some (.dir 0) else if path.length = 2 then some (.file 0) else none
  limit := 40

/-- The names are `f0`, `f1` and so on. -/
theorem plain_numbered (k : Nat) : Plain ('f' :: Nat.toDigits 10 k) := by
  refine ⟨⟨List.cons_ne_nil _ _, ?_⟩, by simp [dot], by simp [dotDot]⟩
  rw [List.mem_cons, not_or]
  refine ⟨by decide, fun hSlash => ?_⟩
  have hDigit := Nat.isDigit_of_mem_toDigits (by decide) (by decide) hSlash
  exact absurd hDigit (by decide)

def numbered (k : Nat) : {n : Name // Plain n} := ⟨'f' :: Nat.toDigits 10 k, plain_numbered k⟩

/-- None of the files can be opened. -/
def locked (count : Nat) : Disk where
  tree := buildTree
  entries := fun path => if path = [build] then some ((List.range count).map numbered) else none
  isRegular := fun _ => true
  open_ := fun _ => none
  home := none

theorem canonicalize_build : buildTree.canonicalize [build] = some [build] := by decide +kernel

theorem regularFiles_locked (count levels : Nat) (n : {n : Name // Plain n}) :
    (locked count).regularFiles (levels + 1) ([build] ++ [n.1]) = [[]] := by
  have hType : (locked count).symlinkMetadata ([build] ++ [n.1]) = some .file := by
    rw [symlinkMetadata_concat n.2]
    show (buildTree.canonicalize [build]).bind _ = _
    rw [canonicalize_build]
    simp [Disk.fileType, locked, buildTree]
  rw [Disk.regularFiles, hType]

theorem expandPath_locked (count : Nat) :
    (locked count).expandPath (text "/build") = [[build]] := by
  have hSegments : (locked count).segments (text "/build") = [build] := by
    show components (text "/build") = [build]
    decide +kernel
  have hExists : (locked count).exists_ ([] ++ [build]) = true := by
    show (buildTree.canonicalize [build]).isSome = true
    rw [canonicalize_build, Option.isSome_some]
  have hStep : (locked count).expandSegment build [] = [[build]] := by
    unfold Disk.expandSegment
    rw [if_neg (by decide), if_pos hExists, List.nil_append]
  unfold Disk.expandPath
  rw [hSegments, Disk.expandFrom]
  simp [hStep, Disk.expandFrom]

theorem length_candidates_locked (count : Nat) :
    ((locked count).candidates [text "/build"]).length = count := by
  have hType : (locked count).symlinkMetadata [build] = some .dir := by
    have hPlain : Plain build := ⟨⟨by decide, by decide⟩, by decide, by decide⟩
    have hConcat : (locked count).symlinkMetadata ([] ++ [build]) = _ :=
      symlinkMetadata_concat hPlain
    rw [List.nil_append] at hConcat
    rw [hConcat]
    simp [Disk.fileType, locked, buildTree, Tree.canonicalize, Tree.walk]
  have hRead : (locked count).readDir [build] =
      some ((List.range count).map numbered) := by
    unfold Disk.readDir
    show (buildTree.canonicalize [build]).bind _ = _
    rw [canonicalize_build]
    simp [Disk.fileType, locked, buildTree]
  have hFiles : (locked count).regularFiles (MAX_DEPTH + 1) [build] =
      (List.range count).map fun k => [(numbered k).1] := by
    unfold MAX_DEPTH
    rw [Disk.regularFiles, hType]
    dsimp only
    rw [hRead, Option.getD_some, List.flatMap_map, List.map_eq_flatMap]
    simp only [regularFiles_locked, List.map_singleton]
  unfold Disk.candidates
  rw [List.flatMap_cons, List.flatMap_nil, List.append_nil, expandPath_locked, List.flatMap_cons,
    List.flatMap_nil, List.append_nil, hFiles, List.length_map, List.length_map, List.length_range]

/-- **Files that cannot be opened** are all tried, however many they are. -/
theorem locked_not_affordable {count : Nat} (h : MAX_FILES < count) :
    ¬ (locked count).Affordable [text "/build"] := by
  have hLength := length_candidates_locked count
  rintro (hFew | hAll)
  · omega
  · have hFirst : ((locked count).candidates [text "/build"]).take MAX_FILES ≠ [] := by
      apply List.ne_nil_of_length_pos
      rw [List.length_take, hLength]
      unfold MAX_FILES at h ⊢
      omega
    obtain ⟨f, hf⟩ := List.exists_mem_of_ne_nil _ hFirst
    obtain ⟨canonical, -, file, hFile, -⟩ := hAll f hf
    cases hFile

/-- **Neither bound holds**: 50 001 files without read permission are all tried,
and a file is advised through the link of a project. -/
theorem unbounded_and_escaping :
    ¬ (locked 50001).BoundedAndConfined [text "/build"] ∧
      ¬ projects.BoundedAndConfined [text "~/proj/*/target"] := by
  constructor
  · intro h
    exact locked_not_affordable (by decide) (length_trace_le_iff.mp h.1)
  · intro h
    obtain ⟨hTried, hOutside⟩ := not_inside_projects
    exact hOutside (h.2 _ hTried rfl)

end Mgd.CacheDrop
