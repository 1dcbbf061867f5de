import Mathlib.Algebra.BigOperators.Group.List.Basic
import Mathlib.Algebra.Order.Ring.Nat
import Mgd.Lib.Budget
import Mgd.Lib.Paths

/-!
# The page-cache drop

Before it freezes anything the daemon advises the kernel to drop the cached
pages of the files under configured patterns.  A pattern is expanded first, and
then each match is walked.

A name and a text are their bytes, each the character of its number.  The file
system does not change during a call.

* `trace_eq` : a call is one loop over the regular files below the matches, as
  long as the budget lasts.
* `filesAdvised_le` : it never counts more files than `MAX_FILES`.
-/

namespace Mgd.CacheDrop

open Mgd.Lib.Budget Mgd.Lib.Paths

abbrev Path := List Name

def MAX_DEPTH : Nat := 8

def MAX_FILES : Nat := 50000

/-! ## The file system -/

inductive FileType
  | file
  | dir
  | symlink
  /-- a socket, a pipe or a device -/
  | other
deriving DecidableEq

/-- A file that can be opened and looked at: its length, and what
`posix_fadvise` returns for it. -/
structure Opened where
  len : Nat
  ret : Int

/-- What the process sees.  The listings and the files are given at canonical
paths. -/
structure Disk where
  tree : Tree
  /-- the names `read_dir` lists, in its order, without the entries that fail;
  `none` when the directory cannot be read -/
  entries : Path → Option (List {n : Name // Plain n})
  isRegular : Path → Bool
  open_ : Path → Option Opened
  /-- the variable `HOME`, when it is text -/
  home : Option (List Char)

variable (d : Disk)

def Disk.fileType (path : Path) : Option FileType :=
  if path = [] then some .dir
  else
    match d.tree.node path with
    | some (.dir _) => some .dir
    | some (.file _) => if d.isRegular path then some .file else some .other
    | some (.link _) => some .symlink
    | none => none

/-- `lstat`: the last name is not followed. -/
def Disk.symlinkMetadata (path : Path) : Option FileType :=
  match path.getLast? with
  | none => some .dir
  | some n =>
      if n = dot ∨ n = dotDot then (d.tree.canonicalize path).bind d.fileType
      else
        (d.tree.canonicalize path.dropLast).bind fun parent =>
          if d.fileType parent = some .dir then d.fileType (parent ++ [n]) else none

def Disk.readDir (path : Path) : Option (List {n : Name // Plain n}) :=
  (d.tree.canonicalize path).bind fun canonical =>
    if d.fileType canonical = some .dir then d.entries canonical else none

def Disk.exists_ (path : Path) : Bool := (d.tree.canonicalize path).isSome

/-! ## Path expansion -/

/-- How many bytes follow the first of a character, and the least and the
greatest that the next may be. -/
def following (lead : Nat) : Option (Nat × Nat × Nat) :=
  if 0xC2 ≤ lead ∧ lead ≤ 0xDF then some (1, 0x80, 0xBF)
  else if lead = 0xE0 then some (2, 0xA0, 0xBF)
  else if lead = 0xED then some (2, 0x80, 0x9F)
  else if 0xE1 ≤ lead ∧ lead ≤ 0xEF then some (2, 0x80, 0xBF)
  else if lead = 0xF0 then some (3, 0x90, 0xBF)
  else if 0xF1 ≤ lead ∧ lead ≤ 0xF3 then some (3, 0x80, 0xBF)
  else if lead = 0xF4 then some (3, 0x80, 0x8F)
  else none

/-- The bytes of U+FFFD. -/
def replacement : List Char := [Char.ofNat 0xEF, Char.ofNat 0xBF, Char.ofNat 0xBD]

/-- `pending` has been read of a character; `need` more bytes belong to it, the
next of them between `lo` and `hi`. -/
def lossyFrom : List Char → Nat → Nat → Nat → List Char → List Char
  | pending, _, _, _, [] => if pending.isEmpty then [] else replacement
  | pending, need, lo, hi, b :: rest =>
      if ¬ pending.isEmpty ∧ lo ≤ b.toNat ∧ b.toNat ≤ hi then
        if need = 1 then pending ++ b :: lossyFrom [] 0 0 0 rest
        else lossyFrom (pending ++ [b]) (need - 1) 0x80 0xBF rest
      else
        (if pending.isEmpty then [] else replacement) ++
          if b.toNat < 0x80 then b :: lossyFrom [] 0 0 0 rest
          else
            match following b.toNat with
            | some (need, lo, hi) => lossyFrom [b] need lo hi rest
            | none => replacement ++ lossyFrom [] 0 0 0 rest

def toStringLossy (name : Name) : Name := lossyFrom [] 0 0 0 name

/-- What stands before and after the first separator. -/
def splitOnce (sep : Char) : List Char → Option (List Char × List Char)
  | [] => none
  | c :: rest =>
      if c = sep then some ([], rest)
      else (splitOnce sep rest).map fun (before, after) => (c :: before, after)

def segmentMatches (pattern name : Name) : Bool :=
  match splitOnce '*' pattern with
  | none => pattern == name
  | some (start, suffix) =>
      decide (start.length + suffix.length ≤ name.length) && start.isPrefixOf name &&
        suffix.isSuffixOf name

def Disk.homeDir : List Char := d.home.getD "/tmp".toList

/-- `Path::join`. -/
def join (base rest : List Char) : List Char :=
  if rest.head? = some '/' then rest
  else if base = [] ∨ base.getLast? = some '/' then base ++ rest
  else base ++ '/' :: rest

def Disk.expandTilde (pattern : List Char) : List Char :=
  if pattern = ['~'] then d.homeDir
  else
    match pattern with
    | '~' :: '/' :: rest => join d.homeDir rest
    | _ => pattern

def Disk.segments (pattern : List Char) : List Name := components (d.expandTilde pattern)

/-- What one path of the frontier becomes at a segment. -/
def Disk.expandSegment (seg : Name) (base : Path) : List Path :=
  if '*' ∈ seg then
    match d.readDir base with
    | none => []
    | some entries =>
        ((entries.map fun entry => toStringLossy entry.1).filter fun name =>
          segmentMatches seg name).map fun name => base ++ [name]
  else if d.exists_ (base ++ [seg]) then [base ++ [seg]]
  else []

def Disk.expandFrom : List Path → List Name → List Path
  | frontier, [] => frontier
  | frontier, seg :: segs =>
      let next := frontier.flatMap (d.expandSegment seg)
      if next.isEmpty then next else Disk.expandFrom next segs

def Disk.expandPath (pattern : List Char) : List Path := d.expandFrom [[]] (d.segments pattern)

/-! ## The walk -/

/-- A file that was opened, or tried, and what came of it. -/
structure Attempt where
  path : Path
  advised : Option Nat
deriving DecidableEq

/-- The counters of a walk, and what it has tried. -/
structure Walk where
  budget : Nat
  files : Nat
  bytes : Nat
  log : List Attempt

def Disk.adviseDropFile (path : Path) : Option Nat :=
  ((d.tree.canonicalize path).bind d.open_).bind fun file =>
    if file.len = 0 then some 0 else if file.ret = 0 then some file.len else none

def Disk.attempt (path : Path) : Attempt := ⟨path, d.adviseDropFile path⟩

/-- The counters after an attempt. -/
def record (a : Attempt) (w : Walk) : Walk :=
  match a.advised with
  | some n =>
      { budget := w.budget - 1
        files := w.files + 1
        bytes := (w.bytes + n) % 2 ^ 64
        log := w.log ++ [a] }
  | none => { w with log := w.log ++ [a] }

def spent (w : Walk) : Bool := w.budget == 0

/-- `levels` is `MAX_DEPTH + 1 - depth`. -/
def Disk.adviseTree : Nat → Path → Walk → Walk
  | 0, _, w => w
  | levels + 1, path, w =>
      if spent w then w
      else
        match d.symlinkMetadata path with
        | some .file => record (d.attempt path) w
        | some .dir =>
            match d.readDir path with
            | none => w
            | some entries =>
                loop spent (Disk.adviseTree levels) (entries.map fun entry => path ++ [entry.1]) w
        | _ => w

/-- The walks of one pattern. -/
def Disk.dropPattern (budget : Nat) (pattern : List Char) : Walk :=
  loop spent (d.adviseTree (MAX_DEPTH + 1)) (d.expandPath pattern)
    { budget := budget, files := 0, bytes := 0, log := [] }

/-- What is done for each pattern, with the budget the ones before it leave. -/
def Disk.passes : Nat → List (List Char) → List (List Char × Walk)
  | _, [] => []
  | budget, pattern :: rest =>
      (pattern, d.dropPattern budget pattern) ::
        Disk.passes (d.dropPattern budget pattern).budget rest

structure CacheDropResult where
  pattern : List Char
  filesAdvised : Nat
  bytesAdvised : Nat

def Disk.dropCaches (patterns : List (List Char)) : List CacheDropResult :=
  (d.passes MAX_FILES patterns).map fun pass =>
    { pattern := pass.1, filesAdvised := pass.2.files, bytesAdvised := pass.2.bytes }

/-! ## One loop -/

/-- The regular files at most `levels - 1` names below a path, as the names that
lead to them from it, in the order of the listings.  No link is entered. -/
def Disk.regularFiles : Nat → Path → List Path
  | 0, _ => []
  | levels + 1, path =>
      match d.symlinkMetadata path with
      | some .file => [[]]
      | some .dir =>
          ((d.readDir path).getD []).flatMap fun entry =>
            (Disk.regularFiles levels (path ++ [entry.1])).map fun below => entry.1 :: below
      | _ => []

/-- A regular file found below a match of a pattern. -/
structure Found where
  pattern : List Char
  root : Path
  below : Path

def Found.path (f : Found) : Path := f.root ++ f.below

/-- What the patterns select, in order, were there no budget. -/
def Disk.candidates (patterns : List (List Char)) : List Found :=
  patterns.flatMap fun pattern =>
    (d.expandPath pattern).flatMap fun root =>
      (d.regularFiles (MAX_DEPTH + 1) root).map fun below => ⟨pattern, root, below⟩

def Found.attempt (f : Found) : Attempt := d.attempt f.path

/-- The file can be opened and looked at, and is empty or the kernel takes the
advice. -/
def Disk.Advisable (path : Path) : Prop :=
  ∃ canonical ∈ d.tree.canonicalize path, ∃ file ∈ d.open_ canonical, file.len = 0 ∨ file.ret = 0

variable {d}

theorem isSome_adviseDropFile {path : Path} :
    (d.adviseDropFile path).isSome = true ↔ d.Advisable path := by
  unfold Disk.adviseDropFile Disk.Advisable
  cases hCanonical : d.tree.canonicalize path with
  | none => simp
  | some canonical =>
      cases hOpen : d.open_ canonical with
      | none => simp [hOpen]
      | some file =>
          by_cases hLen : file.len = 0 <;> by_cases hRet : file.ret = 0 <;>
            simp [hOpen, hLen, hRet]

/-- **A walk is a loop** over the regular files. -/
theorem adviseTree_eq (levels : Nat) (path : Path) (w : Walk) :
    d.adviseTree levels path w =
      loop spent record
        ((d.regularFiles levels path).map fun below => d.attempt (path ++ below)) w := by
  induction levels generalizing path w with
  | zero => rfl
  | succ levels ih =>
      rw [Disk.adviseTree, Disk.regularFiles]
      by_cases hSpent : spent w = true
      · rw [if_pos hSpent, loop_of_spent spent record _ hSpent]
      · rw [if_neg hSpent]
        cases hType : d.symlinkMetadata path with
        | none => rfl
        | some type =>
            cases type with
            | file =>
                dsimp only
                rw [List.map_singleton, List.append_nil, loop, if_neg hSpent, loop]
            | dir =>
                dsimp only
                cases hDir : d.readDir path with
                | none => rfl
                | some entries =>
                    have hBody : Disk.adviseTree d levels = fun path =>
                        loop spent record
                          ((d.regularFiles levels path).map fun below =>
                            d.attempt (path ++ below)) :=
                      funext fun path => funext fun w => ih path w
                    dsimp only
                    rw [hBody, loop_flatMap, Option.getD_some, List.flatMap_map, List.map_flatMap]
                    congr 2
                    funext entry
                    rw [List.map_map]
                    apply List.map_congr_left
                    intro below _
                    rw [List.append_assoc]
                    rfl
            | symlink => rfl
            | other => rfl

theorem dropPattern_eq (budget : Nat) (pattern : List Char) :
    d.dropPattern budget pattern =
      loop spent record ((d.candidates [pattern]).map (Found.attempt d))
        { budget := budget, files := 0, bytes := 0, log := [] } := by
  have hBody : d.adviseTree (MAX_DEPTH + 1) = fun path =>
      loop spent record
        ((d.regularFiles (MAX_DEPTH + 1) path).map fun below => d.attempt (path ++ below)) :=
    funext fun path => funext fun w => adviseTree_eq _ path w
  unfold Disk.dropPattern Disk.candidates
  rw [hBody, loop_flatMap, List.flatMap_cons, List.flatMap_nil, List.append_nil, List.map_flatMap]
  congr 2
  funext root
  rw [List.map_map]
  rfl

/-- The attempt is paid for. -/
def Attempt.pays (a : Attempt) : Bool := a.advised.isSome

theorem log_record (a : Attempt) (w : Walk) : (record a w).log = w.log ++ [a] := by
  unfold record
  split <;> rfl

theorem budget_record (a : Attempt) (w : Walk) :
    (record a w).budget = if a.pays then w.budget - 1 else w.budget := by
  unfold record Attempt.pays
  cases a.advised <;> rfl

/-- The budget of a call is for this file. -/
def Found.pays (d : Disk) (f : Found) : Bool := (f.attempt d).pays

theorem log_dropPattern (budget : Nat) (pattern : List Char) :
    (d.dropPattern budget pattern).log =
        (reached (Found.pays d) budget (d.candidates [pattern])).map (Found.attempt d) ∧
      (d.dropPattern budget pattern).budget =
        left (Found.pays d) budget (d.candidates [pattern]) := by
  have hLoop := loop_reached Attempt.pays log_record budget_record
    ((d.candidates [pattern]).map (Found.attempt d))
    { budget := budget, files := 0, bytes := 0, log := [] }
  rw [List.nil_append, reached_map, left_map] at hLoop
  rw [dropPattern_eq]
  exact hLoop

/-- The attempts of a call, each with the pattern it is made for. -/
def Disk.trace (d : Disk) (budget : Nat) (patterns : List (List Char)) :
    List (List Char × Attempt) :=
  (d.passes budget patterns).flatMap fun pass => pass.2.log.map fun a => (pass.1, a)

theorem pattern_of_mem_candidates {pattern : List Char} {f : Found}
    (h : f ∈ d.candidates [pattern]) : f.pattern = pattern := by
  unfold Disk.candidates at h
  simp only [List.flatMap_cons, List.flatMap_nil, List.append_nil, List.mem_flatMap,
    List.mem_map] at h
  obtain ⟨root, -, below, -, rfl⟩ := h
  rfl

/-- **A call is one loop** over the candidates. -/
theorem trace_eq (budget : Nat) (patterns : List (List Char)) :
    d.trace budget patterns =
      (reached (Found.pays d) budget (d.candidates patterns)).map fun f =>
        (f.pattern, f.attempt d) := by
  unfold Disk.trace
  induction patterns generalizing budget with
  | nil => rfl
  | cons pattern rest ih =>
      obtain ⟨hLog, hBudget⟩ := log_dropPattern (d := d) budget pattern
      have hSplit :
          d.candidates (pattern :: rest) = d.candidates [pattern] ++ d.candidates rest := by
        unfold Disk.candidates
        rw [List.flatMap_cons, List.flatMap_cons, List.flatMap_nil, List.append_nil]
      rw [Disk.passes, List.flatMap_cons, ih, hLog, hBudget, hSplit, reached_append,
        List.map_append, List.map_map]
      congr 1
      apply List.map_congr_left
      intro f hf
      rw [Function.comp_apply, ← pattern_of_mem_candidates (mem_of_mem_reached _ hf)]

theorem files_record {a : Attempt} {w : Walk} (h : w.files = w.log.countP Attempt.pays) :
    (record a w).files = (record a w).log.countP Attempt.pays := by
  rw [log_record, List.countP_append, List.countP_singleton, ← h]
  unfold record Attempt.pays
  cases a.advised <;> rfl

/-- The files counted for a pattern, and the budget left after it. -/
theorem files_dropPattern (budget : Nat) (pattern : List Char) :
    (d.dropPattern budget pattern).files + (d.dropPattern budget pattern).budget = budget := by
  obtain ⟨hLog, hBudget⟩ := log_dropPattern (d := d) budget pattern
  have hFiles : (d.dropPattern budget pattern).files =
      (d.dropPattern budget pattern).log.countP Attempt.pays := by
    rw [dropPattern_eq]
    exact loop_invariant (p := fun w => w.files = w.log.countP Attempt.pays) spent
      (fun _ _ => files_record) _ rfl
  have hPaid : (d.dropPattern budget pattern).files =
      (reached (Found.pays d) budget (d.candidates [pattern])).countP (Found.pays d) := by
    rw [hFiles, hLog, List.countP_map]
    rfl
  have hLe := countP_reached_le (Found.pays d) budget (d.candidates [pattern])
  rw [hBudget, hPaid]
  unfold left
  omega

/-- **The files a call counts** are within its budget. -/
theorem filesAdvised_le (patterns : List (List Char)) :
    ((d.dropCaches patterns).map CacheDropResult.filesAdvised).sum ≤ MAX_FILES := by
  have hPasses : ∀ budget,
      ((d.passes budget patterns).map fun pass => pass.2.files).sum ≤ budget := by
    induction patterns with
    | nil => exact fun budget => Nat.zero_le budget
    | cons pattern rest ih =>
        intro budget
        have hHere := files_dropPattern (d := d) budget pattern
        have hRest := ih (d.dropPattern budget pattern).budget
        rw [Disk.passes, List.map_cons, List.sum_cons]
        show (d.dropPattern budget pattern).files + _ ≤ budget
        omega
  unfold Disk.dropCaches
  rw [List.map_map]
  exact hPasses MAX_FILES

end Mgd.CacheDrop
