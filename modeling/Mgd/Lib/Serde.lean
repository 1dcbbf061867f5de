import Mgd.Lib.JsonCuts
import Mgd.Lib.LineStream

/-!
# Data as JSON

What derived serializers make of strings, words, sequences, structs and enums,
and how they read them back: the members of an object may come in any order,
unknown ones are skipped, one name may not come twice, and an optional one may
be missing.

A `Codec` whose values are objects or arrays gives messages of one line each.
-/

namespace Mgd.Lib.Serde

open Mgd.Lib.Json Mgd.Lib.LineStream

universe u v

variable {F : Type u} {α : Type v}

/-! ## Readers of values -/

def readText : Value F → Option String
  | .str s => some s
  | _ => none

/-- An unsigned word up to `max`. -/
def readWord (max : Nat) : Value F → Option Nat
  | .nat n => if n ≤ max then some n else none
  | _ => none

def readBool : Value F → Option Bool
  | .bool b => some b
  | _ => none

def readAll (read : Value F → Option α) : List (Value F) → Option (List α)
  | [] => some []
  | item :: rest => (read item).bind fun a => (readAll read rest).map fun more => a :: more

def readList (read : Value F → Option α) : Value F → Option (List α)
  | .arr items => readAll read items
  | _ => none

def readMembers : Value F → Option (List (String × Value F))
  | .obj members => some members
  | _ => none

/-- The member of a name, if there is one; a second one is an error. -/
def field (name : String) (members : List (String × Value F)) : Option (Option (Value F)) :=
  match members.filter fun m => m.1 == name with
  | [] => some none
  | [m] => some (some m.2)
  | _ => none

def required (read : Value F → Option α) (name : String) (members : List (String × Value F)) :
    Option α :=
  (field name members).bind fun v => v.bind read

/-- A missing member and `null` are nothing. -/
def readOption (read : Value F → Option α) : Value F → Option (Option α)
  | .null => some none
  | v => (read v).map some

def optional (read : Value F → Option α) (name : String) (members : List (String × Value F)) :
    Option (Option α) :=
  (field name members).bind fun v => (v.map (readOption read)).getD (some none)

/-- An optional value; nothing is `null`. -/
def writeOption (write : α → Value F) : Option α → Value F
  | none => .null
  | some a => write a

theorem required_single (read : Value F → Option α) (name : String) (v : Value F) :
    required read name [(name, v)] = read v := by
  have hField : field name [(name, v)] = some (some v) := by simp [field]
  rw [required, hField]
  rfl

theorem readAll_map {write : α → Value F} {read : Value F → Option α} {as : List α}
    (h : ∀ a ∈ as, read (write a) = some a) : readAll read (as.map write) = some as := by
  induction as with
  | nil => rfl
  | cons a as ih =>
      rw [List.forall_mem_cons] at h
      rw [List.map_cons, readAll, h.1, Option.bind_some, ih h.2]
      rfl

theorem readOption_write {write : α → Value F} {read : Value F → Option α} {a : Option α}
    (hNull : read .null = none) (h : ∀ a, read (write a) = some a) :
    readOption read (writeOption write a) = some a := by
  cases a with
  | none => rfl
  | some a =>
      show readOption read (write a) = _
      unfold readOption
      split
      · next hWrite =>
          have hRead := h a
          rw [hWrite, hNull] at hRead
          cases hRead
      · rw [h a]
        rfl

theorem fitItems_map {floats : Floats F} {depth : Nat} {write : α → Value F} {as : List α}
    (h : ∀ a ∈ as, Fits floats depth (write a)) : FitItems floats depth (as.map write) := by
  induction as with
  | nil => exact trivial
  | cons a as ih =>
      rw [List.forall_mem_cons] at h
      rw [List.map_cons, FitItems]
      exact ⟨h.1, ih h.2⟩

theorem fits_writeOption {floats : Floats F} {depth : Nat} {write : α → Value F} {a : Option α}
    (h : ∀ a, Fits floats depth (write a)) : Fits floats depth (writeOption write a) := by
  cases a with
  | none =>
      rw [writeOption, Fits]
      exact trivial
  | some a => exact h a

/-! ## Codecs -/

/-- Values that are read back from their JSON.  `Sendable` are those all of whose
floating-point numbers have a literal. -/
structure Codec (floats : Floats F) (α : Type v) where
  encode : α → Value F
  decode : Value F → Option α
  Sendable : α → Prop
  fits : ∀ {a}, Sendable a → Fits floats 127 (encode a)
  isGroup : ∀ a, IsGroup (encode a)
  decode_encode : ∀ {a}, Sendable a → decode (encode a) = some a

namespace Codec

variable {floats : Floats F} (codec : Codec floats α)

/-- `to_string` -/
def toText (a : α) : List Char := render floats (codec.encode a)

/-- `from_str` -/
def fromText (text : List Char) : Option α := (parse floats text).bind codec.decode

variable {codec}

theorem fromText_toText_spaces {a : α} (h : codec.Sendable a) {gap : List Char}
    (hGap : ∀ c ∈ gap, isSpace c = true) : codec.fromText (codec.toText a ++ gap) = some a := by
  rw [fromText, toText, parse_render_spaces (codec.fits h) hGap, Option.bind_some,
    codec.decode_encode h]

theorem fromText_toText {a : α} (h : codec.Sendable a) :
    codec.fromText (codec.toText a) = some a := by
  rw [fromText, toText, parse_render (codec.fits h), Option.bind_some, codec.decode_encode h]

theorem toText_ne_nil (codec : Codec floats α) (a : α) : codec.toText a ≠ [] := by
  obtain ⟨c, more, hRender, -⟩ :
      ∃ c rest, render floats (codec.encode a) = c :: rest ∧ (c = '[' ∨ c = '\x7b') :=
    render_bracket (codec.isGroup a)
  rw [toText, hRender]
  exact List.cons_ne_nil c more

/-- A text without its end is read as nothing. -/
theorem fromText_prefix {a : α} (h : codec.Sendable a) {text more : List Char}
    (hText : text ++ more = codec.toText a) (hMore : more ≠ []) : codec.fromText text = none := by
  rw [fromText, parse_prefix (codec.fits h) (codec.isGroup a) hText hMore]
  rfl

theorem isSpace_newline : ∀ c ∈ ['\n'], isSpace c = true := by
  intro c hc
  rw [List.mem_singleton.mp hc]
  rfl

variable (codec)

/-- One line for each value. -/
def lineFormat : LineFormat α where
  write := codec.toText
  read := codec.fromText
  Sendable := codec.Sendable
  write_ne_nil := codec.toText_ne_nil
  noBreak := fun _ hMem => code_render _ _ hMem (by decide)
  read_write := fromText_toText
  read_line := fun h => fromText_toText_spaces h isSpace_newline
  read_prefix := fun h hText hMore => fromText_prefix h hText hMore
  read_suffix := fun h hText hStart hGap => by
    have hSpaces := fun c hc => isSpace_newline c (hGap.subset hc)
    rw [fromText, parse_suffix (codec.fits h) (codec.isGroup _) hText hStart hSpaces]
    rfl

end Codec

end Mgd.Lib.Serde
