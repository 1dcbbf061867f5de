import Mgd.Lib.Serde
import Mgd.Lib.StateFile

/-!
# A value kept in a JSON file

`StateFile` says what a reader makes of a file without saying what is in it.
Here are the bytes: a write replaces them by the text of a value, or leaves them
alone, or ends after some of them.  `Models` relates the two, writes keep it
(`models_saveAll`), and reading the bytes is reading the `StateFile`
(`loaded_of_models`).

A value may have several texts, as the entries of a hash map come in any order;
`Layout` says which, and what is rebuilt from each.
-/

namespace Mgd.Lib.JsonFile

open Mgd.Lib.Json Mgd.Lib.Serde Mgd.Lib.Utf8

universe u v w

variable {F : Type u} {floats : Floats F} {β : Type v} {α : Type w}

abbrev Bytes := List UInt8

/-- How a value is laid out as one that has a text. -/
structure Layout (codec : Codec floats β) (α : Type w) where
  /-- one of the ways to write the value down -/
  Lists : α → β → Prop
  rebuild : β → α
  /-- indistinguishable values -/
  Same : α → α → Prop
  same_refl : ∀ a, Same a a
  sendable : ∀ {a b}, Lists a b → codec.Sendable b
  same_rebuild : ∀ {a b}, Lists a b → Same (rebuild b) a

/-- How a write ends; `cutShort n` after `n` bytes, if there are more. -/
inductive Ending
  | written
  | unopened
  | cutShort (n : Nat)

section Files

variable (codec : Codec floats β)

def bytesOf (b : β) : Bytes := encode (codec.toText b)

/-- `read_to_string` and `from_str`. -/
def readBytes (bytes : Bytes) : Option β := (decode bytes).bind codec.fromText

/-- The file after a write, `none` when there is none. -/
def write (file : Option Bytes) (b : β) : Ending → Option Bytes
  | .written => some (bytesOf codec b)
  | .unopened => file
  | .cutShort n => some ((bytesOf codec b).take n)

def Ending.result (b : β) : Ending → WriteResult
  | .written => .written
  | .unopened => .unopened
  | .cutShort n => if n < (bytesOf codec b).length then .cutShort else .written

variable {codec}

theorem readBytes_bytesOf {b : β} (h : codec.Sendable b) :
    readBytes codec (bytesOf codec b) = some b := by
  rw [readBytes, bytesOf, decode_encode]
  exact Codec.fromText_toText h

/-- The first bytes of a text are read as nothing, also when they end within a
character. -/
theorem readBytes_take {b : β} (h : codec.Sendable b) {n : Nat}
    (hShort : n < (bytesOf codec b).length) :
    readBytes codec ((bytesOf codec b).take n) = none := by
  rw [readBytes]
  cases hText : decode ((bytesOf codec b).take n) with
  | none => rfl
  | some text =>
      have hStart := decode_eq_some_iff.mp hText
      have hWhole : decode (bytesOf codec b) =
          (decode ((bytesOf codec b).drop n)).map (text ++ ·) := by
        rw [← decode_append_left, ← hStart, List.take_append_drop]
      rw [bytesOf, decode_encode] at hWhole
      obtain ⟨more, hMore, hAll⟩ := Option.map_eq_some_iff.mp hWhole.symm
      refine Codec.fromText_prefix h hAll ?_
      rintro rfl
      have hEmpty := congrArg List.length (decode_eq_some_iff.mp hMore)
      rw [← bytesOf, List.length_drop] at hEmpty
      have hNone : (encode ([] : List Char)).length = 0 := rfl
      omega

variable (layout : Layout codec α)

/-- What a start makes of the file. -/
def load (empty : α) (file : Option Bytes) : α :=
  ((file.bind (readBytes codec)).map layout.rebuild).getD empty

/-- The bytes are such as the state says. -/
def Models (file : Option Bytes) : StateFile α → Prop
  | .absent => file = none
  | .whole a => ∃ b, layout.Lists a b ∧ file = some (bytesOf codec b)
  | .torn => ∃ b n, codec.Sendable b ∧ n < (bytesOf codec b).length ∧
      file = some ((bytesOf codec b).take n)

theorem models_absent : Models layout none .absent := rfl

variable {layout}

theorem loaded_of_models {file : Option Bytes} {state : StateFile α}
    (h : Models layout file state) (empty : α) :
    layout.Same (load layout empty file) (state.read empty) := by
  cases state with
  | absent =>
      have hNone : file = none := h
      rw [hNone]
      exact layout.same_refl empty
  | whole a =>
      obtain ⟨b, hLists, rfl⟩ := h
      rw [load, Option.bind_some, readBytes_bytesOf (layout.sendable hLists)]
      exact layout.same_rebuild hLists
  | torn =>
      obtain ⟨b, n, hSendable, hShort, rfl⟩ := h
      rw [load, Option.bind_some, readBytes_take hSendable hShort]
      exact layout.same_refl empty

theorem models_write {file : Option Bytes} {state : StateFile α} (h : Models layout file state)
    {a : α} {b : β} (hLists : layout.Lists a b) (ending : Ending) :
    Models layout (write codec file b ending) (state.write a (ending.result codec b)) := by
  cases ending with
  | written => exact ⟨b, hLists, rfl⟩
  | unopened => exact h
  | cutShort n =>
      rw [Ending.result]
      split
      · next hShort => exact ⟨b, n, layout.sendable hLists, hShort, rfl⟩
      · next hShort =>
          exact ⟨b, hLists, congrArg some (List.take_of_length_le (Nat.le_of_not_lt hShort))⟩

/-! ## Runs of writes -/

/-- A write of a value, in the order `listing`. -/
structure Save (α : Type w) (β : Type v) where
  value : α
  listing : β
  ending : Ending

variable (codec) in
def saveAll (file : Option Bytes) (saves : List (Save α β)) : Option Bytes :=
  saves.foldl (fun file s => write codec file s.listing s.ending) file

variable (codec) in
def stateAfter (state : StateFile α) (saves : List (Save α β)) : StateFile α :=
  saves.foldl (fun state s => state.write s.value (s.ending.result codec s.listing)) state

theorem models_saveAll {file : Option Bytes} {state : StateFile α} (h : Models layout file state)
    {saves : List (Save α β)} (hSaves : ∀ s ∈ saves, layout.Lists s.value s.listing) :
    Models layout (saveAll codec file saves) (stateAfter codec state saves) := by
  induction saves generalizing file state with
  | nil => exact h
  | cons s saves ih =>
      rw [List.forall_mem_cons] at hSaves
      exact ih (models_write h hSaves.1 s.ending) hSaves.2

end Files

end Mgd.Lib.JsonFile
