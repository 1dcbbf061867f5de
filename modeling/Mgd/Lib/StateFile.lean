/-!
# A value kept in a file

A program keeps a value in memory and rewrites a file with it after every
change.  What matters of the file is what reading it back gives: the value that
was written in whole, or nothing when the file is missing or holds only the
beginning of a text, which is not a text of the format.

A write truncates the file and then fills it.  It may fail to open the file,
which leaves the file as it was, and it may be cut short, by an error or because
the program is killed in the middle of it.
-/

namespace Mgd.Lib

universe u

/-- The contents of the file, up to what a reader makes of them. -/
inductive StateFile (α : Type u)
  | absent
  | whole (a : α)
  /-- a proper prefix of a written text, the empty one included -/
  | torn
deriving DecidableEq

/-- How a write ends. -/
inductive WriteResult
  | written
  | unopened
  | cutShort
deriving DecidableEq

namespace StateFile

variable {α : Type u}

/-- The value read back; `empty` when there is none. -/
def read (empty : α) : StateFile α → α
  | absent => empty
  | whole a => a
  | torn => empty

/-- The file after a write of `a`. -/
def write (f : StateFile α) (a : α) : WriteResult → StateFile α
  | .written => whole a
  | .unopened => f
  | .cutShort => torn

theorem read_write_written (empty : α) (f : StateFile α) (a : α) :
    (f.write a .written).read empty = a := rfl

/-- However a write ends, the file is read as the value written, as the one before or
as none: what holds of these three holds of what is read. -/
theorem read_write_of {p : α → Prop} {empty a : α} {f : StateFile α} (hEmpty : p empty)
    (hBefore : p (f.read empty)) (hNew : p a) (result : WriteResult) :
    p ((f.write a result).read empty) := by
  cases result with
  | written => exact hNew
  | unopened => exact hBefore
  | cutShort => exact hEmpty

end StateFile

end Mgd.Lib
