import Mathlib.Logic.Function.Basic
import Mgd.Executor.Registry

/-!
# Snapshot directories

`executor/checkpoint.rs`, as far as the files under `snapshots/` are concerned.
A dump goes to the directory named after the PID and the name of the process, so
two dumps of one PID and name go to the same directory; those of different PIDs
never do.

The helper is a parameter: how a dump ended and whether a restore succeeded are
answers of the environment.
-/

namespace Mgd.Executor.Checkpoint

open Mgd.Types

/-! ## Names -/

/-- Where the directories are, and `char::is_alphanumeric`. -/
structure SnapshotPaths where
  home : String
  isAlphanumeric : Char → Bool

/-- `comm` may contain '/', which would escape the directory. -/
def SnapshotPaths.safeName (paths : SnapshotPaths) (name : String) : String :=
  String.ofList ((name.toList.map fun c =>
    if paths.isAlphanumeric c || c == '-' || c == '_' || c == '.' then c else '_').take 32)

def SnapshotPaths.snapshotDir (paths : SnapshotPaths) (pid : Pid) (name : String) : String :=
  paths.home ++ ("/.local/share/mgd/snapshots/" ++
    (pid.val.toNat.repr ++ ("_" ++ paths.safeName name)))

/-- What stands before the first underscore. -/
theorem takeWhile_append_underscore {digits : List Char} (rest : List Char) (h : '_' ∉ digits) :
    (digits ++ '_' :: rest).takeWhile (fun c => c ≠ '_') = digits := by
  induction digits with
  | nil => rfl
  | cons c digits ih =>
      simp only [List.mem_cons, not_or] at h
      have hFirst : c ≠ '_' := fun hEq => h.1 hEq.symm
      simp only [List.cons_append, List.takeWhile_cons]
      rw [if_pos (by simpa using hFirst), ih h.2]

/-- **A directory belongs to one PID.** -/
theorem SnapshotPaths.pid_of_snapshotDir {paths : SnapshotPaths} {pid pid' : Pid}
    {name name' : String} (h : paths.snapshotDir pid name = paths.snapshotDir pid' name') :
    pid = pid' := by
  unfold snapshotDir at h
  have hTail := (String.append_right_inj _).mp ((String.append_right_inj _).mp h)
  have hList : (pid.val.toNat.repr ++ ("_" ++ paths.safeName name)).toList =
      (pid'.val.toNat.repr ++ ("_" ++ paths.safeName name')).toList := by rw [hTail]
  simp only [String.toList_append, Nat.toList_repr] at hList
  have hDigits : Nat.toDigits 10 pid.val.toNat = Nat.toDigits 10 pid'.val.toNat := by
    rw [← takeWhile_append_underscore (paths.safeName name).toList
      (Nat.underscore_not_in_toDigits (n := pid.val.toNat))]
    rw [← takeWhile_append_underscore (paths.safeName name').toList
      (Nat.underscore_not_in_toDigits (n := pid'.val.toNat))]
    exact congrArg _ hList
  have hNat : pid.val.toNat = pid'.val.toNat := by
    have hRead := congrArg (fun digits => Nat.ofDigitChars 10 digits 0) hDigits
    simpa [Nat.ofDigitChars_toDigits] using hRead
  cases pid
  cases pid'
  exact congrArg Pid.mk (UInt32.toNat_inj.mp hNat)

/-! ## Contents -/

structure Disk where
  /-- The directory is there with a dump that can be restored. -/
  holds : String → Bool
  /-- Dumps made into the directory so far; it holds the last one. -/
  dumps : String → Nat

/-- How `checkpoint` ends. -/
inductive DumpEnd
  /-- The dump is there and the process is killed, or was already gone. -/
  | killed
  /-- The dump is there, but SIGKILL failed. -/
  | notKilled
  /-- No helper, or the dump failed: the directory is removed, unless that fails
  too and leaves what it held. -/
  | failed (left : Bool)
  /-- The directory could not be made, or the helper could not be run. -/
  | notRun
deriving DecidableEq

namespace Disk

variable {disk : Disk} {dir : String}

/-- A new dump in the directory. -/
def dump (disk : Disk) (dir : String) : Disk where
  holds := Function.update disk.holds dir true
  dumps := Function.update disk.dumps dir (disk.dumps dir + 1)

/-- `remove_dir_all`, whose failure is ignored. -/
def removeDirAll (disk : Disk) (dir : String) (removed : Bool) : Disk :=
  if removed then { disk with holds := Function.update disk.holds dir false } else disk

/-- `checkpoint`: what becomes of the directory. -/
def checkpoint (disk : Disk) (dir : String) : DumpEnd → Disk
  | .killed => disk.dump dir
  | .notKilled => disk.dump dir
  | .failed left => disk.removeDirAll dir !left
  | .notRun => disk

/-- `restore` succeeds; `ok` is the answer of the helper. -/
def restore (disk : Disk) (dir : String) (ok : Bool) : Bool := disk.holds dir && ok

@[simp] theorem dump_dumps_self : (disk.dump dir).dumps dir = disk.dumps dir + 1 :=
  Function.update_self _ _ _

@[simp] theorem dump_holds_self : (disk.dump dir).holds dir = true :=
  Function.update_self _ _ _

theorem dump_dumps_other {dir' : String} (h : dir' ≠ dir) :
    (disk.dump dir).dumps dir' = disk.dumps dir' :=
  Function.update_of_ne h _ _

theorem dump_holds_other {dir' : String} (h : dir' ≠ dir) :
    (disk.dump dir).holds dir' = disk.holds dir' :=
  Function.update_of_ne h _ _

@[simp] theorem removeDirAll_dumps (removed : Bool) :
    (disk.removeDirAll dir removed).dumps = disk.dumps := by
  unfold removeDirAll
  split <;> rfl

theorem removeDirAll_holds_other {dir' : String} (h : dir' ≠ dir) (removed : Bool) :
    (disk.removeDirAll dir removed).holds dir' = disk.holds dir' := by
  unfold removeDirAll
  split
  · exact Function.update_of_ne h _ _
  · rfl

/-- Dumps only become more. -/
theorem dumps_le_checkpoint (disk : Disk) (dir : String) (result : DumpEnd) (dir' : String) :
    disk.dumps dir' ≤ (disk.checkpoint dir result).dumps dir' := by
  have hDump : disk.dumps dir' ≤ (disk.dump dir).dumps dir' := by
    by_cases hDir : dir' = dir
    · rw [hDir, dump_dumps_self]
      omega
    · rw [dump_dumps_other hDir]
  cases result with
  | killed => exact hDump
  | notKilled => exact hDump
  | failed left => exact le_of_eq (by rw [checkpoint, removeDirAll_dumps])
  | notRun => exact Nat.le_refl _

/-- `checkpoint` keeps to its own directory. -/
theorem checkpoint_other (disk : Disk) {dir' : String} (h : dir' ≠ dir) (result : DumpEnd) :
    (disk.checkpoint dir result).holds dir' = disk.holds dir' ∧
      (disk.checkpoint dir result).dumps dir' = disk.dumps dir' := by
  cases result with
  | killed => exact ⟨dump_holds_other h, dump_dumps_other h⟩
  | notKilled => exact ⟨dump_holds_other h, dump_dumps_other h⟩
  | failed left =>
      exact ⟨removeDirAll_holds_other h _, by rw [checkpoint, removeDirAll_dumps]⟩
  | notRun => exact ⟨rfl, rfl⟩

end Disk

/-! ## One user's home -/

def home : SnapshotPaths where
  home := "/home/u"
  isAlphanumeric := Char.isAlphanum

/-- Nothing has been dumped yet. -/
def noSnapshots : Disk where
  holds := fun _ => false
  dumps := fun _ => 0

end Mgd.Executor.Checkpoint
