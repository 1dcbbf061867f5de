import Mathlib.Logic.Function.Basic
import Mgd.Lib.TomlLines

/-!
# TOML by its expressions

A TOML document is a sequence of expressions: headers of tables, keys with their
values, empty lines and comments.  Most take one line, a value may take several.
`Parser` is a parser of such documents with what TOML says of them: how the
lines of a text fall into expressions, what a few plain lines mean, and what may
be changed in a document or added to it.

`Reading` is how a parser reads a text.  A `Cut` is a document that is being
edited: it moves on by `Cut.next`, and `Cut.add` and `Cut.set` are the edits.
-/

namespace Mgd.Lib.Toml

open Mgd.Lib.Text Mgd.Lib.TomlLines

universe u

variable {V : Type u}

/-! ## Documents -/

/-- A key, without its quotes. -/
abbrev Name := List Char

/-- A step down from a table: to a key, or to an element of an array of tables. -/
inductive Step
  | name (key : Name)
  | index (i : Nat)
deriving DecidableEq

inductive Node (V : Type u)
  | table
  /-- of tables -/
  | array
  /-- also an inline table, or an array that is written as a value -/
  | value (v : V)
deriving DecidableEq

/-- What is at each place under the root table. -/
abbrev Doc (V : Type u) := List Step → Option (Node V)

/-- What an expression says. -/
inductive Meaning (V : Type u)
  | nothing
  | table (path : List Name)
  | arrayTable (path : List Name)
  /-- `path` has more than one key when it is dotted -/
  | entry (path : List Name) (value : V)
deriving DecidableEq

/-- An expression and its lines. -/
structure Stmt (V : Type u) where
  lines : List (List Char)
  meaning : Meaning V

def linesOf (stmts : List (Stmt V)) : List (List Char) := stmts.flatMap Stmt.lines

def meanings (stmts : List (Stmt V)) : List (Meaning V) := stmts.map Stmt.meaning

/-- The header that the next expression stands under. -/
inductive Section
  | root
  | table (path : List Name)
  | arrayTable (path : List Name)
deriving DecidableEq

def Section.next (sec : Section) : Meaning V → Section
  | .table path => .table path
  | .arrayTable path => .arrayTable path
  | _ => sec

def sectionFrom (sec : Section) (ms : List (Meaning V)) : Section := ms.foldl Section.next sec

/-- No expression takes the name in the root table.  Headers of its subtables
leave it free. -/
def Untaken (name : Name) : Section → List (Meaning V) → Prop
  | _, [] => True
  | sec, m :: rest =>
      (match m with
        | .nothing => True
        | .table path => path ≠ [name]
        | .arrayTable path => path ≠ [name]
        | .entry path _ => sec = .root → path.head? ≠ some name) ∧
        Untaken name (sec.next m) rest

instance decidableUntaken (name : Name) :
    ∀ (sec : Section) (ms : List (Meaning V)), Decidable (Untaken name sec ms)
  | _, [] => inferInstanceAs (Decidable True)
  | sec, m :: rest =>
      have := decidableUntaken name (sec.next m) rest
      match m with
      | .nothing => inferInstanceAs (Decidable (True ∧ _))
      | .table _ => inferInstanceAs (Decidable (_ ≠ _ ∧ _))
      | .arrayTable _ => inferInstanceAs (Decidable (_ ≠ _ ∧ _))
      | .entry _ _ => inferInstanceAs (Decidable ((_ → _) ∧ _))

@[simp] theorem linesOf_nil : linesOf ([] : List (Stmt V)) = [] := rfl

@[simp] theorem linesOf_cons (s : Stmt V) (stmts : List (Stmt V)) :
    linesOf (s :: stmts) = s.lines ++ linesOf stmts := rfl

@[simp] theorem linesOf_append (xs ys : List (Stmt V)) :
    linesOf (xs ++ ys) = linesOf xs ++ linesOf ys := List.flatMap_append

@[simp] theorem meanings_cons (s : Stmt V) (stmts : List (Stmt V)) :
    meanings (s :: stmts) = s.meaning :: meanings stmts := rfl

@[simp] theorem meanings_append (xs ys : List (Stmt V)) :
    meanings (xs ++ ys) = meanings xs ++ meanings ys := List.map_append

theorem sectionFrom_append (sec : Section) (xs ys : List (Meaning V)) :
    sectionFrom sec (xs ++ ys) = sectionFrom (sectionFrom sec xs) ys := List.foldl_append

/-- The next expression stands under the header of the one before it, or under it. -/
theorem section_append_singleton (zs : List (Stmt V)) (s : Stmt V) :
    sectionFrom .root (meanings (zs ++ [s])) =
      (sectionFrom .root (meanings zs)).next s.meaning := by
  rw [meanings_append, sectionFrom_append]
  rfl

/-! ## Readings -/

/-- The lines of each expression mean what it says; the flag marks the first one
of a file, which may have a byte order mark. -/
def Reads (expression : Bool → List (List Char) → Option (Meaning V)) :
    Bool → List (Stmt V) → Prop
  | _, [] => True
  | first, s :: rest => expression first s.lines = some s.meaning ∧ Reads expression false rest

instance decidableReads [DecidableEq V]
    (expression : Bool → List (List Char) → Option (Meaning V)) :
    ∀ (first : Bool) (stmts : List (Stmt V)), Decidable (Reads expression first stmts)
  | _, [] => inferInstanceAs (Decidable True)
  | _, _ :: rest =>
      have := decidableReads expression false rest
      inferInstanceAs (Decidable (_ ∧ _))

theorem reads_append {expression : Bool → List (List Char) → Option (Meaning V)} {first : Bool}
    (xs ys : List (Stmt V)) :
    Reads expression first (xs ++ ys) ↔
      Reads expression first xs ∧ Reads expression (first && xs.isEmpty) ys := by
  induction xs generalizing first with
  | nil => simp [Reads]
  | cons x xs ih => simp [Reads, ih, and_assoc]

/-! ## Values -/

/-- A decimal number with one digit behind the point. -/
def decimalText (negative : Bool) (whole tenth : Nat) : List Char :=
  (if negative then ['-'] else []) ++ ((toString whole).toList ++ '.' :: (toString tenth).toList)

def decimalValue (negative : Bool) (whole tenth : Nat) : ℚ :=
  (if negative then -1 else 1) * ((whole : ℚ) + (tenth : ℚ) / 10)

def infinityText (negative : Bool) : List Char :=
  (if negative then ['-'] else []) ++ ['i', 'n', 'f']

def IsBareKey (name : Name) : Prop := name ≠ [] ∧ ∀ c ∈ name, isBareKeyChar c = true

instance (name : Name) : Decidable (IsBareKey name) :=
  decidable_of_iff (name ≠ [] ∧ name.all isBareKeyChar = true)
    (and_congr_right fun _ => List.all_eq_true)

/-- A key and a value on a line. -/
def entryLine (key : Name) (pad : Nat) (value : List Char) : List Char :=
  key ++ (List.replicate pad ' ' ++ '=' :: ' ' :: value)

def headerLine (name : Name) : List Char := '[' :: name ++ [']']

/-! ## The parser -/

/-- A parser of TOML. -/
structure Parser (V : Type u) where
  expression : Bool → List (List Char) → Option (Meaning V)
  /-- what the expressions say together, unless they define something twice -/
  build : List (Meaning V) → Option (Doc V)
  parse : List Char → Option (Doc V)
  decimal : ℚ → V
  infinity : Bool → V
  /-- The lines of a text fall into expressions; a line break is a line feed or a
  carriage return and a line feed. -/
  parse_eq_some_iff : ∀ (text : List Char) (d : Doc V), parse text = some d ↔
    ∃ stmts, Reads expression true stmts ∧ linesOf stmts = Text.lines text ∧
      build (meanings stmts) = some d
  /-- Line breaks stand between lines only. -/
  noBreak : ∀ {first ls m}, expression first ls = some m →
    ∀ line ∈ ls, '\n' ∉ line ∧ '\r' ∉ line
  someLine : ∀ first, expression first [] = none
  /-- An expression ends at the first line where it can. -/
  ends : ∀ {first ls more m m'}, expression first ls = some m →
    expression first (ls ++ more) = some m' → more = []
  blank : ∀ first, expression first [[]] = some .nothing
  header : ∀ {name}, IsBareKey name → expression false [headerLine name] = some (.table [name])
  decimalLine : ∀ {key} pad negative whole {tenth}, IsBareKey key → tenth < 10 →
    expression false [entryLine key pad (decimalText negative whole tenth)] =
      some (.entry [key] (decimal (decimalValue negative whole tenth)))
  infinityLine : ∀ {key} pad negative, IsBareKey key →
    expression false [entryLine key pad (infinityText negative)] =
      some (.entry [key] (infinity negative))
  /-- TOML writes `nan`. -/
  nanLine : ∀ {key} pad more, IsBareKey key →
    expression false (entryLine key pad ['N', 'a', 'N'] :: more) = none
  build_nothing : ∀ xs ys, build (xs ++ .nothing :: ys) = build (xs ++ ys)
  /-- What may be defined does not depend on values. -/
  set_value : ∀ {xs ys table key v d} (w : V),
    build (xs ++ .entry [key] v :: ys) = some d → sectionFrom .root xs = .table [table] →
      build (xs ++ .entry [key] w :: ys) =
        some (Function.update d [.name table, .name key] (some (.value w)))
  /-- A key may be added to a table that does not have it. -/
  add_key : ∀ {xs ys table key d} (w : V),
    build (xs ++ ys) = some d → sectionFrom .root xs = .table [table] →
      d [.name table, .name key] = none →
      build (xs ++ .entry [key] w :: ys) =
        some (Function.update d [.name table, .name key] (some (.value w)))
  /-- A key is defined once, and no rule needs it to be. -/
  drop_key : ∀ {xs ys table key v d'},
    build (xs ++ .entry [key] v :: ys) = some d' → sectionFrom .root xs = .table [table] →
      ∃ d, build (xs ++ ys) = some d ∧ d [.name table, .name key] = none
  /-- A table may be added that is not defined, and one that only its subtables
  imply. -/
  add_table : ∀ {xs name d}, build xs = some d → Untaken name .root xs →
    (∀ v, d [.name name] ≠ some (.value v)) ∧
      build (xs ++ [.table [name]]) = some (Function.update d [.name name] (some .table))
  table_untaken : ∀ {xs ys name d}, build (xs ++ .table [name] :: ys) = some d →
    Untaken name .root xs
  /-- A table has one header. -/
  header_once : ∀ {xs ys path d}, build (xs ++ .table path :: ys) = some d → .table path ∉ ys

namespace Parser

variable (P : Parser V)

/-- A reading of the text. -/
structure Reading (text : List Char) (stmts : List (Stmt V)) (d : Doc V) : Prop where
  reads : Reads P.expression true stmts
  lines : linesOf stmts = Text.lines text
  build : P.build (meanings stmts) = some d

variable {P}

theorem exists_reading {text : List Char} {d : Doc V} (h : P.parse text = some d) :
    ∃ stmts, P.Reading text stmts d := by
  obtain ⟨stmts, hReads, hLines, hBuild⟩ := (P.parse_eq_some_iff text d).mp h
  exact ⟨stmts, hReads, hLines, hBuild⟩

theorem Reading.parse {text : List Char} {stmts : List (Stmt V)} {d : Doc V}
    (h : P.Reading text stmts d) : P.parse text = some d :=
  (P.parse_eq_some_iff text d).mpr ⟨stmts, h.reads, h.lines, h.build⟩

theorem lines_ne_nil {first : Bool} {s : Stmt V} (h : P.expression first s.lines = some s.meaning) :
    s.lines ≠ [] := by
  intro hNil
  rw [hNil, P.someLine] at h
  cases h

/-- Two readings of one text fall into the same expressions as far as both go. -/
theorem reads_prefix {first : Bool} {xs ys : List (Stmt V)} {more : List (List Char)}
    (hXs : Reads P.expression first xs) (hYs : Reads P.expression first ys)
    (hLines : linesOf ys = linesOf xs ++ more) : ∃ rest, ys = xs ++ rest := by
  induction xs generalizing first ys with
  | nil => exact ⟨ys, rfl⟩
  | cons x xs ih =>
      cases ys with
      | nil =>
          simp [lines_ne_nil hXs.1] at hLines
      | cons y ys =>
          rw [linesOf_cons, linesOf_cons, List.append_assoc] at hLines
          have hSame : x.lines = y.lines := by
            cases List.append_eq_append_iff.mp hLines with
            | inl hLong =>
                obtain ⟨tail, hTail, -⟩ := hLong
                have hEnd := P.ends hYs.1 (hTail ▸ hXs.1)
                rw [hTail, hEnd, List.append_nil]
            | inr hLong =>
                obtain ⟨tail, hTail, -⟩ := hLong
                have hEnd := P.ends hXs.1 (hTail ▸ hYs.1)
                rw [hTail, hEnd, List.append_nil]
          have hMeaning : x.meaning = y.meaning := by
            have hx := hXs.1
            rw [hSame, hYs.1, Option.some_inj] at hx
            exact hx.symm
          rw [hSame, List.append_cancel_left_eq] at hLines
          have hStmt : x = y := by
            cases x
            cases y
            exact congrArg₂ Stmt.mk hSame hMeaning
          obtain ⟨rest, hRest⟩ := ih hXs.2 hYs.2 hLines
          exact ⟨rest, by rw [hStmt, hRest, List.cons_append]⟩

/-- A line that is an expression by itself is the first of a reading. -/
theorem reads_line {first : Bool} {ys : List (Stmt V)} {line : List Char} {m : Meaning V}
    {more : List (List Char)} (hYs : Reads P.expression first ys)
    (hLines : linesOf ys = line :: more) (hLine : P.expression first [line] = some m) :
    ∃ rest, ys = ⟨[line], m⟩ :: rest ∧ Reads P.expression false rest ∧ linesOf rest = more := by
  have hXs : Reads P.expression first [(⟨[line], m⟩ : Stmt V)] := ⟨hLine, trivial⟩
  obtain ⟨rest, rfl⟩ := reads_prefix hXs hYs hLines
  exact ⟨rest, rfl, hYs.2, (List.cons.inj hLines).2⟩

theorem noBreak_linesOf {first : Bool} {stmts : List (Stmt V)}
    (h : Reads P.expression first stmts) :
    ∀ line ∈ linesOf stmts, '\n' ∉ line ∧ '\r' ∉ line := by
  induction stmts generalizing first with
  | nil => exact fun line hLine => by cases hLine
  | cons s rest ih =>
      intro line hLine
      cases List.mem_append.mp hLine with
      | inl hHere => exact P.noBreak h.1 line hHere
      | inr hRest => exact ih h.2 line hRest

/-! ### Edits -/

variable (P) in
/-- A document in two parts: the expressions written so far, and those to come. -/
structure Cut (zs ys : List (Stmt V)) (d : Doc V) : Prop where
  written : Reads P.expression true zs
  rest : Reads P.expression zs.isEmpty ys
  build : P.build (meanings (zs ++ ys)) = some d

variable {zs ys : List (Stmt V)} {s : Stmt V} {d : Doc V} {table key : Name} {v w : V}
  {line : List Char}

theorem Reading.cut {text : List Char} {stmts : List (Stmt V)} (h : P.Reading text stmts d) :
    P.Cut [] stmts d where
  written := trivial
  rest := h.reads
  build := h.build

/-- The text of all that is written. -/
theorem Cut.reading (h : P.Cut zs [] d) : P.Reading (unlines (linesOf zs)) zs d where
  reads := h.written
  lines := (lines_unlines (noBreak_linesOf h.written)).symm
  build := by
    have hBuild := h.build
    rw [List.append_nil] at hBuild
    exact hBuild

theorem isEmpty_append (xs ys : List (Stmt V)) :
    (xs ++ ys).isEmpty = (xs.isEmpty && ys.isEmpty) := by
  cases xs <;> rfl

theorem Cut.append {xs : List (Stmt V)} (h : P.Cut zs (xs ++ ys) d) : P.Cut (zs ++ xs) ys d := by
  obtain ⟨hXs, hYs⟩ := (reads_append xs ys).mp h.rest
  refine ⟨(reads_append zs xs).mpr ⟨h.written, by rw [Bool.true_and]; exact hXs⟩, ?_, ?_⟩
  · rw [isEmpty_append]
    exact hYs
  · rw [List.append_assoc]
    exact h.build

theorem Cut.next (h : P.Cut zs (s :: ys) d) : P.Cut (zs ++ [s]) ys d := h.append

theorem Cut.rest_of_ne_nil (h : P.Cut zs ys d) (hNonempty : zs ≠ []) :
    Reads P.expression false ys := by
  have hRest := h.rest
  rw [List.isEmpty_eq_false_iff.mpr hNonempty] at hRest
  exact hRest

theorem Cut.written_append (h : P.Cut zs ys d) (hNonempty : zs ≠ [])
    (hHere : P.expression false s.lines = some s.meaning) :
    Reads P.expression true (zs ++ [s]) := by
  refine (reads_append zs [s]).mpr ⟨h.written, ?_⟩
  rw [List.isEmpty_eq_false_iff.mpr hNonempty]
  exact ⟨hHere, trivial⟩

/-- A new key is written. -/
theorem Cut.add (h : P.Cut zs ys d) (hNonempty : zs ≠ [])
    (hLine : P.expression false [line] = some (.entry [key] w))
    (hSection : sectionFrom .root (meanings zs) = .table [table])
    (hNone : d [.name table, .name key] = none) :
    P.Cut (zs ++ [⟨[line], .entry [key] w⟩]) ys
      (Function.update d [.name table, .name key] (some (.value w))) := by
  refine ⟨h.written_append hNonempty hLine, ?_, ?_⟩
  · rw [isEmpty_append, List.isEmpty_cons, Bool.and_false]
    exact h.rest_of_ne_nil hNonempty
  · have hBuild := h.build
    rw [meanings_append] at hBuild
    rw [List.append_assoc, meanings_append]
    exact P.add_key w hBuild hSection hNone

/-- The entry of a key is written with another value. -/
theorem Cut.set (h : P.Cut zs (s :: ys) d) (hNonempty : zs ≠ [])
    (hOld : s.meaning = .entry [key] v)
    (hLine : P.expression false [line] = some (.entry [key] w))
    (hSection : sectionFrom .root (meanings zs) = .table [table]) :
    P.Cut (zs ++ [⟨[line], .entry [key] w⟩]) ys
      (Function.update d [.name table, .name key] (some (.value w))) := by
  refine ⟨h.written_append hNonempty hLine, ?_, ?_⟩
  · rw [isEmpty_append, List.isEmpty_cons, Bool.and_false]
    exact (h.rest_of_ne_nil hNonempty).2
  · have hBuild := h.build
    rw [meanings_append, meanings_cons, hOld] at hBuild
    rw [List.append_assoc, meanings_append]
    exact P.set_value w hBuild hSection

end Parser

end Mgd.Lib.Toml
