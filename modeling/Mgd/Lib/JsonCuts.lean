import Mgd.Lib.Json

/-!
# Pieces of JSON text

The text of an array or an object shows where it starts and where it ends.  What
is left of it without its end (`parse_prefix`) or without its beginning
(`parse_suffix`) is no text of a value, so a reader that comes upon a piece of a
message takes it for none.
-/

namespace Mgd.Lib.Json

open Mgd.Lib.Text Mgd.Lib.TomlBasic

universe u v

/-! ## Texts whose end is missing -/

section Append

variable {α : Type u} {read : Reader α} {close : Char}

/-- Once something is left, more of it makes no difference. -/
def Stable (read : Reader α) : Prop :=
  ∀ {text a rest}, read text = some (a, rest) → rest ≠ [] →
    ∀ more, read (text ++ more) = some (a, rest ++ more)

theorem onNext_eq_some {read : Char → Reader α} {text rest : List Char} {a : α}
    (h : onNext read text = some (a, rest)) :
    ∃ c tail, skip text = c :: tail ∧ read c tail = some (a, rest) := by
  unfold onNext at h
  split at h
  · cases h
  · next c tail hSkip => exact ⟨c, tail, hSkip, h⟩

theorem onNext_append {read : Char → Reader α} {text tail : List Char} {c : Char}
    (h : skip text = c :: tail) (more : List Char) :
    onNext read (text ++ more) = read c (tail ++ more) := by
  have hSkip : skip (text ++ more) = c :: (tail ++ more) := by
    unfold skip at h ⊢
    rw [List.dropWhile_append, h]
    rfl
  unfold onNext
  rw [hSkip]

theorem readClose_nil (fuel : Nat) : readClose read close fuel [] = none := by
  cases fuel <;> rfl

theorem readClose_append (hRead : Stable read) {fuel fuel' : Nat} {text rest : List Char}
    {items : List α} (h : readClose read close fuel text = some (items, rest))
    (hFuel : fuel ≤ fuel') (more : List Char) :
    readClose read close fuel' (text ++ more) = some (items, rest ++ more) := by
  induction fuel generalizing fuel' text items with
  | zero => cases h
  | succ fuel ih =>
      obtain ⟨fuel', rfl⟩ : ∃ n, fuel' = n + 1 := ⟨fuel' - 1, by omega⟩
      obtain ⟨c, tail, hSkip, hNext⟩ := onNext_eq_some h
      rw [readClose, onNext_append hSkip]
      split at hNext
      · next hClose =>
          cases hNext
          exact if_pos hClose
      · next hClose =>
          split at hNext
          · next hComma =>
              obtain ⟨⟨part, left⟩, hPart, hMore⟩ := Option.bind_eq_some_iff.mp hNext
              obtain ⟨⟨parts, rest'⟩, hParts, hEq⟩ := Option.map_eq_some_iff.mp hMore
              cases hEq
              have hLeft : left ≠ [] := by
                rintro rfl
                rw [readClose_nil] at hParts
                cases hParts
              rw [if_neg hClose, if_pos hComma, hRead hPart hLeft more, Option.bind_some,
                ih hParts (by omega)]
              rfl
          · cases hNext

theorem readGroup_append (hRead : Stable read) {text rest : List Char} {items : List α}
    (h : readGroup read close text = some (items, rest)) (more : List Char) :
    readGroup read close (text ++ more) = some (items, rest ++ more) := by
  obtain ⟨c, tail, hSkip, hNext⟩ := onNext_eq_some h
  rw [readGroup, onNext_append hSkip]
  split at hNext
  · next hClose =>
      cases hNext
      exact if_pos hClose
  · next hClose =>
      obtain ⟨⟨part, left⟩, hPart, hMore⟩ := Option.bind_eq_some_iff.mp hNext
      obtain ⟨⟨parts, rest'⟩, hParts, hEq⟩ := Option.map_eq_some_iff.mp hMore
      cases hEq
      have hLeft : left ≠ [] := by
        rintro rfl
        rw [readClose_nil] at hParts
        cases hParts
      have hLength : left.length + 1 ≤ (left ++ more).length + 1 := by
        rw [List.length_append]
        omega
      rw [if_neg hClose, ← List.cons_append, hRead hPart hLeft more, Option.bind_some,
        readClose_append hRead hParts hLength]
      rfl

theorem stable_member (hRead : Stable read) : Stable (readMember read) := by
  intro text a rest h hRest more
  obtain ⟨c, tail, hSkip, hNext⟩ := onNext_eq_some h
  rw [readMember, onNext_append hSkip]
  split at hNext
  · next hQuote =>
      obtain ⟨⟨name, left⟩, hName, hMore⟩ := Option.bind_eq_some_iff.mp hNext
      obtain ⟨c', tail', hSkip', hNext'⟩ := onNext_eq_some hMore
      split at hNext'
      · next hColon =>
          obtain ⟨⟨item, rest'⟩, hItem, hEq⟩ := Option.map_eq_some_iff.mp hNext'
          cases hEq
          rw [if_pos hQuote, readString_append hName, Option.bind_some, onNext_append hSkip',
            if_pos hColon, hRead hItem hRest more]
          rfl
      · cases hNext'
  · cases hNext

end Append

section Prefix

variable {F : Type u} {floats : Floats F}

theorem stable_keyword : Stable (readKeyword (F := F)) := by
  intro text v rest h _ more
  have hStart : ∀ {word w}, ((stripPrefix word text).map fun rest => (w, rest)) = some (v, rest) →
      text = word ++ rest ∧ w = v := by
    intro word w hWord
    obtain ⟨rest', hStrip, hEq⟩ := Option.map_eq_some_iff.mp hWord
    cases hEq
    exact ⟨stripPrefix_eq_some_iff.mp hStrip, rfl⟩
  rw [readKeyword, Option.or_eq_some_iff, Option.or_eq_some_iff] at h
  rcases h with hWord | ⟨-, hWord | ⟨-, hWord⟩⟩
  · obtain ⟨rfl, rfl⟩ := hStart hWord
    rfl
  · obtain ⟨rfl, rfl⟩ := hStart hWord
    rfl
  · obtain ⟨rfl, rfl⟩ := hStart hWord
    rfl

theorem numberOf_nil : numberOf floats [] = none := rfl

theorem stable_number : Stable (readNumber floats) := by
  intro text v rest h hRest more
  obtain ⟨n, hNumber, hEq⟩ := Option.map_eq_some_iff.mp h
  cases hEq
  have hDrop : (text ++ more).dropWhile isNumberChar = text.dropWhile isNumberChar ++ more := by
    rw [List.dropWhile_append, if_neg]
    rwa [List.isEmpty_iff]
  have hTake : (text ++ more).takeWhile isNumberChar = text.takeWhile isNumberChar := by
    have hAll := List.takeWhile_append_dropWhile (p := isNumberChar) (l := text ++ more)
    rw [hDrop, ← List.append_assoc] at hAll
    have hText := List.append_cancel_right hAll
    have hOwn := List.takeWhile_append_dropWhile (p := isNumberChar) (l := text)
    exact List.append_cancel_right (hText.trans hOwn.symm)
  rw [readNumber, hTake, hDrop, hNumber]
  rfl

/-- A number starts with a number character. -/
theorem readNumber_start {text rest : List Char} {v : Value F}
    (h : readNumber floats text = some (v, rest)) :
    ∃ c tail, text = c :: tail ∧ isNumberChar c = true := by
  obtain ⟨n, hNumber, hEq⟩ := Option.map_eq_some_iff.mp h
  cases text with
  | nil =>
      rw [List.takeWhile_nil, numberOf_nil] at hNumber
      cases hNumber
  | cons c tail =>
      refine ⟨c, tail, rfl, ?_⟩
      cases hChar : isNumberChar c with
      | true => rfl
      | false =>
          rw [List.takeWhile_cons, hChar, if_neg Bool.false_ne_true, numberOf_nil] at hNumber
          cases hNumber

theorem stable_atom : Stable (readAtom floats) := by
  intro text v rest h hRest more
  rw [readAtom] at h ⊢
  cases hKeyword : readKeyword (F := F) text with
  | some r =>
      rw [hKeyword] at h
      cases h
      rw [stable_keyword hKeyword hRest more]
      rfl
  | none =>
      rw [hKeyword] at h
      have hNumber : readNumber floats text = some (v, rest) := h
      obtain ⟨c, tail, rfl, hChar⟩ := readNumber_start hNumber
      rw [stable_number hNumber hRest more, List.cons_append, readKeyword_number hChar]
      rfl

/-- Arrays and objects: the values whose text shows where it ends. -/
def IsGroup : Value F → Prop
  | .arr _ => True
  | .obj _ => True
  | _ => False

theorem integer_not_group {token : List Char} {v : Value F} (h : integer token = some v) :
    ¬ IsGroup v := by
  unfold integer at h
  split at h
  · obtain ⟨n, -, rfl⟩ := Option.map_eq_some_iff.mp h
    exact id
  · obtain ⟨n, -, rfl⟩ := Option.map_eq_some_iff.mp h
    exact id

theorem numberOf_not_group {token : List Char} {v : Value F}
    (h : numberOf floats token = some v) : ¬ IsGroup v := by
  rw [numberOf, Option.or_eq_some_iff] at h
  rcases h with hInteger | ⟨-, hFloat⟩
  · exact integer_not_group hInteger
  · split at hFloat
    · obtain ⟨x, -, rfl⟩ := Option.map_eq_some_iff.mp hFloat
      exact id
    · cases hFloat

theorem readAtom_not_group {text rest : List Char} {v : Value F}
    (h : readAtom floats text = some (v, rest)) : ¬ IsGroup v := by
  rw [readAtom, readKeyword, Option.or_eq_some_iff, Option.or_eq_some_iff,
    Option.or_eq_some_iff] at h
  rcases h with (hWord | ⟨-, hWord | ⟨-, hWord⟩⟩) | ⟨-, hNumber⟩
  · obtain ⟨_, -, hEq⟩ := Option.map_eq_some_iff.mp hWord
    cases hEq
    exact id
  · obtain ⟨_, -, hEq⟩ := Option.map_eq_some_iff.mp hWord
    cases hEq
    exact id
  · obtain ⟨_, -, hEq⟩ := Option.map_eq_some_iff.mp hWord
    cases hEq
    exact id
  · obtain ⟨n, hValue, hEq⟩ := Option.map_eq_some_iff.mp hNumber
    cases hEq
    exact numberOf_not_group hValue

/-- Once something is left, or an array or an object has been read, more of the text
makes no difference. -/
theorem readValue_append {depth : Nat} {text rest : List Char} {v : Value F}
    (h : readValue floats depth text = some (v, rest)) (hRest : rest ≠ [] ∨ IsGroup v)
    (more : List Char) :
    readValue floats depth (text ++ more) = some (v, rest ++ more) := by
  induction depth generalizing text rest v more with
  | zero => cases h
  | succ depth ih =>
      have hStable : Stable (readValue floats depth) :=
        fun hInner hLeft more => ih hInner (Or.inl hLeft) more
      obtain ⟨c, tail, hSkip, hNext⟩ := onNext_eq_some h
      rw [readValue, onNext_append hSkip]
      split at hNext
      · next hQuote =>
          obtain ⟨⟨s, rest'⟩, hString, hEq⟩ := Option.map_eq_some_iff.mp hNext
          cases hEq
          rw [if_pos hQuote, readString_append hString]
          rfl
      next hQuote =>
      rw [if_neg hQuote]
      split at hNext
      · next hItems =>
          split at hNext
          · cases hNext
          · next hDepth =>
              obtain ⟨⟨items, rest'⟩, hGroup, hEq⟩ := Option.map_eq_some_iff.mp hNext
              cases hEq
              rw [if_pos hItems, if_neg hDepth, readGroup_append hStable hGroup]
              rfl
      next hItems =>
      rw [if_neg hItems]
      split at hNext
      · next hMembers =>
          split at hNext
          · cases hNext
          · next hDepth =>
              obtain ⟨⟨members, rest'⟩, hGroup, hEq⟩ := Option.map_eq_some_iff.mp hNext
              cases hEq
              rw [if_pos hMembers, if_neg hDepth, readGroup_append (stable_member hStable) hGroup]
              rfl
      next hMembers =>
      have hLeft : rest ≠ [] := hRest.resolve_right (readAtom_not_group hNext)
      rw [if_neg hMembers, ← List.cons_append, stable_atom hNext hLeft more]

/-- What begins with a bracket is an array or an object. -/
theorem isGroup_of_bracket {depth : Nat} {c : Char} {text rest : List Char} {v : Value F}
    (h : readValue floats depth (c :: text) = some (v, rest)) (hBracket : c = '[' ∨ c = '\x7b') :
    IsGroup v := by
  have hSpace : isSpace c = false := by
    cases hBracket with
    | inl hItems => rw [hItems]; rfl
    | inr hMembers => rw [hMembers]; rfl
  have hQuote : c ≠ quote := by
    cases hBracket with
    | inl hItems => rw [hItems]; decide
    | inr hMembers => rw [hMembers]; decide
  cases depth with
  | zero => cases h
  | succ depth =>
      rw [readValue, onNext_cons _ hSpace, if_neg hQuote] at h
      split at h
      · split at h
        · cases h
        · obtain ⟨_, -, hEq⟩ := Option.map_eq_some_iff.mp h
          cases hEq
          exact trivial
      · next hNot =>
          rw [if_pos (hBracket.resolve_left hNot)] at h
          split at h
          · cases h
          · obtain ⟨_, -, hEq⟩ := Option.map_eq_some_iff.mp h
            cases hEq
            exact trivial

theorem render_bracket {v : Value F} (h : IsGroup v) :
    ∃ c rest, render floats v = c :: rest ∧ (c = '[' ∨ c = '\x7b') := by
  cases v with
  | arr items => exact ⟨_, _, by rw [render], Or.inl rfl⟩
  | obj members => exact ⟨_, _, by rw [render], Or.inr rfl⟩
  | _ => exact h.elim

/-- The text of an array or an object without its end is no text of a value. -/
theorem parse_prefix {v : Value F} (hFits : Fits floats 127 v) (hGroup : IsGroup v)
    {text more : List Char} (hText : text ++ more = render floats v) (hMore : more ≠ []) :
    parse floats text = none := by
  rw [parse]
  cases hRead : readValue floats recursionLimit text with
  | none => rfl
  | some r =>
      exfalso
      obtain ⟨w, rest⟩ := r
      have hWhole : readValue floats recursionLimit (text ++ more) = some (v, []) := by
        have hRead := readValue_render v hFits [] fun _ hc => by cases hc
        rwa [List.append_nil, ← hText] at hRead
      obtain ⟨c, tail, hRender, hBracket⟩ : ∃ c rest, render floats v = c :: rest ∧ _ :=
        render_bracket hGroup
      cases text with
      | nil => cases hRead
      | cons c' text =>
          rw [hRender, List.cons_append, List.cons.injEq] at hText
          have hOpen := isGroup_of_bracket hRead (by rw [hText.1]; exact hBracket)
          rw [readValue_append hRead (Or.inr hOpen) more] at hWhole
          injection hWhole with hPair
          injection hPair with _ hRest
          exact hMore (List.append_eq_nil_iff.mp hRest).2

end Prefix

/-! ## Texts whose beginning is missing -/

inductive Place
  | outside
  | inside
  /-- in a string, after a backslash -/
  | escaped
deriving DecidableEq

/-- Through a text in which strings are closed and brackets match, with no backslash
outside of strings; `depth` brackets are open. -/
def walk : Place → Nat → List Char → Option (Place × Nat)
  | place, depth, [] => some (place, depth)
  | .outside, depth, c :: rest =>
      if c = '\\' then none
      else if c = quote then walk .inside depth rest
      else if c = '[' ∨ c = '\x7b' then walk .outside (depth + 1) rest
      else if c = ']' ∨ c = '\x7d' then
        if depth = 0 then none else walk .outside (depth - 1) rest
      else walk .outside depth rest
  | .inside, depth, c :: rest =>
      if c = '\\' then walk .escaped depth rest
      else if c = quote then walk .outside depth rest
      else walk .inside depth rest
  | .escaped, depth, _ :: rest => walk .inside depth rest

theorem walk_append (place : Place) (depth : Nat) (text more : List Char) :
    walk place depth (text ++ more) =
      (walk place depth text).bind fun r => walk r.1 r.2 more := by
  induction text generalizing place depth with
  | nil => 
      rw [walk]
      rfl
  | cons c text ih =>
      cases place <;> simp only [List.cons_append, walk, ih]
      · split
        · rfl
        split
        · rfl
        split
        · rfl
        split
        · split <;> rfl
        · rfl
      · split
        · rfl
        split <;> rfl

/-- More open brackets make no difference. -/
theorem walk_shift {place place' : Place} {depth depth' : Nat} {text : List Char}
    (h : walk place depth text = some (place', depth')) (more : Nat) :
    walk place (depth + more) text = some (place', depth' + more) := by
  induction text generalizing place depth with
  | nil =>
      rw [walk] at h ⊢
      cases h
      rfl
  | cons c text ih =>
      cases place with
      | escaped =>
          rw [walk] at h ⊢
          exact ih h
      | inside =>
          rw [walk] at h ⊢
          split at h
          · next hSlash =>
              rw [if_pos hSlash]
              exact ih h
          next hSlash =>
          rw [if_neg hSlash]
          split at h
          · next hQuote =>
              rw [if_pos hQuote]
              exact ih h
          next hQuote =>
          rw [if_neg hQuote]
          exact ih h
      | outside =>
          rw [walk] at h ⊢
          split at h
          · cases h
          next hSlash =>
          rw [if_neg hSlash]
          split at h
          · next hQuote =>
              rw [if_pos hQuote]
              exact ih h
          next hQuote =>
          rw [if_neg hQuote]
          split at h
          · next hOpen =>
              rw [if_pos hOpen, Nat.add_right_comm]
              exact ih h
          next hOpen =>
          rw [if_neg hOpen]
          split at h
          · next hClose =>
              split at h
              · cases h
              next hDepth =>
              rw [if_pos hClose, if_neg (by omega), Nat.sub_add_comm (by omega)]
              exact ih h
          next hClose =>
          rw [if_neg hClose]
          exact ih h

/-- Two walks that disagree on what is a string do not both end outside of one. -/
theorem walk_opposite {text : List Char} {d e d' e' : Nat}
    (hInside : walk .inside d text = some (.outside, d'))
    (hOutside : walk .outside e text = some (.outside, e')) : False := by
  induction text generalizing d e d' e' with
  | nil =>
      rw [walk] at hInside
      cases hInside
  | cons c text ih =>
      rw [walk] at hInside
      rw [walk] at hOutside
      split at hOutside
      · cases hOutside
      next hSlash =>
      rw [if_neg hSlash] at hInside
      split at hOutside
      · next hQuote =>
          rw [if_pos hQuote] at hInside
          exact ih hOutside hInside
      next hQuote =>
      rw [if_neg hQuote] at hInside
      split at hOutside
      · exact ih hInside hOutside
      split at hOutside
      · split at hOutside
        · cases hOutside
        · exact ih hInside hOutside
      · exact ih hInside hOutside

/-- Without a string that is left open and without a bracket that does not match. -/
def Balanced (text : List Char) : Prop := walk .outside 0 text = some (.outside, 0)

instance (text : List Char) : Decidable (Balanced text) := inferInstanceAs (Decidable (_ = _))

theorem Balanced.append {text more : List Char} (h : Balanced text) (hMore : Balanced more) :
    Balanced (text ++ more) := by
  unfold Balanced at h hMore ⊢
  rw [walk_append, h]
  exact hMore

theorem walk_plain {c : Char} (h : c ≠ '\\' ∧ c ≠ quote ∧ ¬ (c = '[' ∨ c = '\x7b') ∧
      ¬ (c = ']' ∨ c = '\x7d')) (depth : Nat) (text : List Char) :
    walk .outside depth (c :: text) = walk .outside depth text := by
  rw [walk, if_neg h.1, if_neg h.2.1, if_neg h.2.2.1, if_neg h.2.2.2]

/-- Characters with no meaning of their own outside of strings. -/
theorem balanced_plain {text : List Char}
    (h : ∀ c ∈ text,
      c ≠ '\\' ∧ c ≠ quote ∧ ¬ (c = '[' ∨ c = '\x7b') ∧ ¬ (c = ']' ∨ c = '\x7d')) :
    Balanced text := by
  unfold Balanced
  induction text with
  | nil => rfl
  | cons c text ih =>
      rw [List.forall_mem_cons] at h
      rw [walk_plain h.1, ih h.2]

theorem balanced_spaces {text : List Char} (h : ∀ c ∈ text, isSpace c = true) :
    Balanced text := by
  apply balanced_plain
  intro c hc
  have hSpace := h c hc
  have hNot : ∀ c', isSpace c' = false → c ≠ c' := by
    rintro c' hc' rfl
    rw [hSpace] at hc'
    cases hc'
  refine ⟨hNot _ rfl, hNot _ rfl, ?_, ?_⟩
  · rintro (hOpen | hOpen)
    · exact hNot _ rfl hOpen
    · exact hNot _ rfl hOpen
  · rintro (hClose | hClose)
    · exact hNot _ rfl hClose
    · exact hNot _ rfl hClose

section Consumes

variable {α : Type u} {read : Reader α} {close : Char}

/-- What is taken off the text is balanced. -/
def Consumes (read : Reader α) : Prop :=
  ∀ {text a rest}, read text = some (a, rest) → ∃ used, text = used ++ rest ∧ Balanced used

theorem skip_split (text : List Char) :
    ∃ spaces, text = spaces ++ skip text ∧ Balanced spaces :=
  ⟨text.takeWhile isSpace, List.takeWhile_append_dropWhile.symm,
    balanced_spaces fun _ hc => List.mem_takeWhile_imp hc⟩

/-- Where the walk is while the reader of a string is at a state. -/
def Lexer.place : Lexer → Place
  | .plain _ => .inside
  | .escaped _ => .escaped
  | .hex _ _ _ => .inside

theorem hexValue_plain {c : Char} {n : Nat} (h : hexValue c = some n) : c ≠ '\\' ∧ c ≠ quote := by
  constructor
  · rintro rfl
    cases h
  · rintro rfl
    cases h

def Move.place : Move → Place
  | .emit _ => .inside
  | .more state => state.place
  | _ => .outside

theorem place_endUnit {high : Option Nat} {unit : Nat} (h : endUnit high unit ≠ .fail) :
    (endUnit high unit).place = .inside := by
  revert h
  unfold endUnit
  split
  · split
    · exact fun _ => rfl
    split
    · exact fun h => absurd rfl h
    · exact fun _ => rfl
  · split
    · exact fun _ => rfl
    · exact fun h => absurd rfl h

/-- The walk goes where the reader goes. -/
theorem walk_lexer {state : Lexer} {c : Char} (h : state.step c ≠ .fail) (depth : Nat)
    (rest : List Char) :
    walk state.place depth (c :: rest) = walk (state.step c).place depth rest := by
  revert h
  cases state with
  | plain high =>
      rw [Lexer.place, walk, Lexer.step]
      split
      · exact fun _ => rfl
      split
      · exact fun h => absurd rfl h
      split
      · exact fun _ => rfl
      split
      · exact fun h => absurd rfl h
      · exact fun _ => rfl
  | escaped high =>
      rw [Lexer.place, walk, Lexer.step]
      split
      · exact fun _ => rfl
      split
      · exact fun h => absurd rfl h
      · cases simpleEscape c with
        | none => exact fun h => absurd rfl h
        | some c' => exact fun _ => rfl
  | hex high value missing =>
      rw [Lexer.place, walk, Lexer.step]
      cases hDigit : hexValue c with
      | none => exact fun h => absurd rfl h
      | some digit =>
          rw [if_neg (hexValue_plain hDigit).1, if_neg (hexValue_plain hDigit).2]
          show (if missing = 1 then endUnit high (16 * value + digit) else _) ≠ _ →
            _ = walk (if missing = 1 then endUnit high (16 * value + digit) else _).place depth rest
          split
          · intro h
            rw [place_endUnit h]
          · exact fun _ => rfl

theorem balanced_string {text s rest : List Char} {state : Lexer}
    (h : readString state text = some (s, rest)) :
    ∃ used, text = used ++ rest ∧ ∀ depth, walk state.place depth used = some (.outside, depth) := by
  induction text generalizing state s with
  | nil => cases h
  | cons c text ih =>
      rw [readString] at h
      have hWalk := @walk_lexer state c
      cases hMove : state.step c with
      | stop =>
          rw [hMove] at h hWalk
          cases h
          exact ⟨[c], rfl, fun depth => hWalk (fun hFail => by cases hFail) depth []⟩
      | emit c' =>
          rw [hMove] at h hWalk
          obtain ⟨⟨s', rest'⟩, hInner, hEq⟩ := Option.map_eq_some_iff.mp h
          cases hEq
          obtain ⟨used, hText, hUsed⟩ := ih hInner
          refine ⟨c :: used, by rw [hText]; rfl, fun depth => ?_⟩
          rw [hWalk (fun hFail => by cases hFail)]
          exact hUsed depth
      | more state' =>
          rw [hMove] at h hWalk
          obtain ⟨used, hText, hUsed⟩ := ih h
          refine ⟨c :: used, by rw [hText]; rfl, fun depth => ?_⟩
          rw [hWalk (fun hFail => by cases hFail)]
          exact hUsed depth
      | fail =>
          rw [hMove] at h
          cases h

/-- A string with its quotes. -/
theorem balanced_quoted {text s rest : List Char}
    (h : readString (.plain none) text = some (s, rest)) :
    ∃ used, text = used ++ rest ∧ Balanced (quote :: used) := by
  obtain ⟨used, hText, hUsed⟩ := balanced_string h
  refine ⟨used, hText, ?_⟩
  rw [Balanced, walk, if_neg (by decide), if_pos rfl]
  exact hUsed 0

theorem balanced_bracketed {inside : List Char} {o c : Char} (h : Balanced inside)
    (hOpen : o = '[' ∨ o = '\x7b') (hClose : c = ']' ∨ c = '\x7d') :
    Balanced (o :: (inside ++ [c])) := by
  have hInside := walk_shift h 1
  have hPlain : o ≠ '\\' ∧ o ≠ quote ∧ c ≠ '\\' ∧ c ≠ quote ∧ ¬ (c = '[' ∨ c = '\x7b') := by
    rcases hOpen with rfl | rfl <;> rcases hClose with rfl | rfl <;> decide
  obtain ⟨hSlash, hQuote, hSlash', hQuote', hNotOpen⟩ := hPlain
  rw [Balanced, walk, if_neg hSlash, if_neg hQuote, if_pos hOpen, walk_append, hInside,
    Option.bind_some, walk, if_neg hSlash', if_neg hQuote', if_neg hNotOpen, if_pos hClose,
    if_neg (Nat.succ_ne_zero 0), walk]
  rfl

/-- The parts of a group, without the bracket at its end. -/
def ConsumesParts {α : Type u} (read : Reader α) (close : Char) : Prop :=
  ∀ {text a rest}, read text = some (a, rest) →
    ∃ used, text = used ++ close :: rest ∧ Balanced used

theorem consumes_close (hRead : Consumes read) (fuel : Nat) :
    ConsumesParts (readClose read close fuel) close := by
  induction fuel with
  | zero => intro text a rest h; cases h
  | succ fuel ih =>
      intro text a rest h
      obtain ⟨c, tail, hSkip, hNext⟩ := onNext_eq_some h
      obtain ⟨spaces, hText, hSpaces⟩ := skip_split text
      rw [hSkip] at hText
      split at hNext
      · next hClose =>
          cases hNext
          exact ⟨spaces, by rw [hText, hClose], hSpaces⟩
      split at hNext
      · next hComma =>
          obtain ⟨⟨part, left⟩, hPart, hMore⟩ := Option.bind_eq_some_iff.mp hNext
          obtain ⟨⟨parts, rest'⟩, hParts, hEq⟩ := Option.map_eq_some_iff.mp hMore
          cases hEq
          obtain ⟨usedPart, hTail, hUsedPart⟩ := hRead hPart
          obtain ⟨usedParts, hLeft, hUsedParts⟩ := ih hParts
          have hLeft : left = usedParts ++ close :: rest' := hLeft
          have hFirst : Balanced [','] := by decide
          refine ⟨spaces ++ ([','] ++ (usedPart ++ usedParts)), ?_,
            hSpaces.append (hFirst.append (hUsedPart.append hUsedParts))⟩
          rw [hText, hTail, hLeft, hComma]
          simp
      · cases hNext

theorem consumes_group (hRead : Consumes read) : ConsumesParts (readGroup read close) close := by
  intro text a rest h
  obtain ⟨c, tail, hSkip, hNext⟩ := onNext_eq_some h
  obtain ⟨spaces, hText, hSpaces⟩ := skip_split text
  rw [hSkip] at hText
  split at hNext
  · next hClose =>
      cases hNext
      exact ⟨spaces, by rw [hText, hClose], hSpaces⟩
  · obtain ⟨⟨part, left⟩, hPart, hMore⟩ := Option.bind_eq_some_iff.mp hNext
    obtain ⟨⟨parts, rest'⟩, hParts, hEq⟩ := Option.map_eq_some_iff.mp hMore
    cases hEq
    obtain ⟨usedPart, hTail, hUsedPart⟩ := hRead hPart
    obtain ⟨usedParts, hLeft, hUsedParts⟩ := consumes_close hRead _ hParts
    have hLeft : left = usedParts ++ close :: rest' := hLeft
    refine ⟨spaces ++ (usedPart ++ usedParts), ?_, hSpaces.append (hUsedPart.append hUsedParts)⟩
    rw [hText, hTail, hLeft]
    simp

theorem consumes_member (hRead : Consumes read) : Consumes (readMember read) := by
  intro text a rest h
  obtain ⟨c, tail, hSkip, hNext⟩ := onNext_eq_some h
  obtain ⟨spaces, hText, hSpaces⟩ := skip_split text
  rw [hSkip] at hText
  split at hNext
  · next hQuote =>
      obtain ⟨⟨name, left⟩, hName, hMore⟩ := Option.bind_eq_some_iff.mp hNext
      obtain ⟨c', tail', hSkip', hNext'⟩ := onNext_eq_some hMore
      obtain ⟨spaces', hLeft, hSpaces'⟩ := skip_split left
      rw [hSkip'] at hLeft
      obtain ⟨usedName, hTail, hUsedName⟩ := balanced_quoted hName
      split at hNext'
      · next hColon =>
          obtain ⟨⟨item, rest'⟩, hItem, hEq⟩ := Option.map_eq_some_iff.mp hNext'
          cases hEq
          obtain ⟨usedItem, hTail', hUsedItem⟩ := hRead hItem
          have hMiddle : Balanced [':'] := by decide
          refine ⟨spaces ++ (quote :: usedName ++ (spaces' ++ ([':'] ++ usedItem))), ?_,
            hSpaces.append (hUsedName.append (hSpaces'.append (hMiddle.append hUsedItem)))⟩
          rw [hText, hQuote, hTail, hLeft, hColon, hTail']
          simp
      · cases hNext'
  · cases hNext

end Consumes

section Suffix

variable {F : Type u} {floats : Floats F}

theorem plain_of_number {c : Char} (h : isNumberChar c = true) :
    c ≠ '\\' ∧ c ≠ quote ∧ ¬ (c = '[' ∨ c = '\x7b') ∧ ¬ (c = ']' ∨ c = '\x7d') := by
  have hNot : ∀ c', isNumberChar c' = false → c ≠ c' := by
    rintro c' hc' rfl
    rw [h] at hc'
    cases hc'
  refine ⟨hNot _ rfl, hNot _ rfl, ?_, ?_⟩
  · rintro (hOpen | hOpen)
    · exact hNot _ rfl hOpen
    · exact hNot _ rfl hOpen
  · rintro (hClose | hClose)
    · exact hNot _ rfl hClose
    · exact hNot _ rfl hClose

theorem consumes_atom : Consumes (readAtom floats) := by
  intro text v rest h
  have hStart : ∀ {word} {w : Value F}, Balanced word →
      ((stripPrefix word text).map fun rest => (w, rest)) = some (v, rest) →
      ∃ used, text = used ++ rest ∧ Balanced used := by
    intro word w hWord hStrip
    obtain ⟨rest', hStrip, hEq⟩ := Option.map_eq_some_iff.mp hStrip
    cases hEq
    exact ⟨word, stripPrefix_eq_some_iff.mp hStrip, hWord⟩
  rw [readAtom, readKeyword, Option.or_eq_some_iff, Option.or_eq_some_iff,
    Option.or_eq_some_iff] at h
  rcases h with (hWord | ⟨-, hWord | ⟨-, hWord⟩⟩) | ⟨-, hNumber⟩
  · exact hStart (by decide) hWord
  · exact hStart (by decide) hWord
  · exact hStart (by decide) hWord
  · obtain ⟨n, -, hEq⟩ := Option.map_eq_some_iff.mp hNumber
    cases hEq
    exact ⟨text.takeWhile isNumberChar, List.takeWhile_append_dropWhile.symm,
      balanced_plain fun c hc => plain_of_number (List.mem_takeWhile_imp hc)⟩

theorem consumes_value (depth : Nat) : Consumes (readValue floats depth) := by
  induction depth with
  | zero => intro text v rest h; cases h
  | succ depth ih =>
      intro text v rest h
      obtain ⟨c, tail, hSkip, hNext⟩ := onNext_eq_some h
      obtain ⟨spaces, hText, hSpaces⟩ := skip_split text
      rw [hSkip] at hText
      split at hNext
      · next hQuote =>
          obtain ⟨⟨s, rest'⟩, hString, hEq⟩ := Option.map_eq_some_iff.mp hNext
          cases hEq
          obtain ⟨used, hTail, hUsed⟩ := balanced_quoted hString
          refine ⟨spaces ++ quote :: used, ?_, hSpaces.append hUsed⟩
          rw [hText, hQuote, hTail]
          simp
      split at hNext
      · next hItems =>
          split at hNext
          · cases hNext
          obtain ⟨⟨items, rest'⟩, hGroup, hEq⟩ := Option.map_eq_some_iff.mp hNext
          cases hEq
          obtain ⟨used, hTail, hUsed⟩ := consumes_group ih hGroup
          refine ⟨spaces ++ '[' :: (used ++ [']']), ?_,
            hSpaces.append (balanced_bracketed hUsed (Or.inl rfl) (Or.inl rfl))⟩
          rw [hText, hItems, hTail]
          simp
      split at hNext
      · next hMembers =>
          split at hNext
          · cases hNext
          obtain ⟨⟨members, rest'⟩, hGroup, hEq⟩ := Option.map_eq_some_iff.mp hNext
          cases hEq
          obtain ⟨used, hTail, hUsed⟩ := consumes_group (consumes_member ih) hGroup
          refine ⟨spaces ++ '\x7b' :: (used ++ ['\x7d']), ?_,
            hSpaces.append (balanced_bracketed hUsed (Or.inr rfl) (Or.inr rfl))⟩
          rw [hText, hMembers, hTail]
          simp
      · obtain ⟨used, hTail, hUsed⟩ := consumes_atom hNext
        refine ⟨spaces ++ used, ?_, hSpaces.append hUsed⟩
        rw [hText, hTail, List.append_assoc]

/-- A text that is one value is balanced. -/
theorem balanced_of_parse {text : List Char} {v : Value F} (h : parse floats text = some v) :
    Balanced text := by
  obtain ⟨⟨w, rest⟩, hRead, hEnd⟩ := Option.bind_eq_some_iff.mp h
  obtain ⟨used, hText, hUsed⟩ := consumes_value _ hRead
  split at hEnd
  · next hRest =>
      rw [List.isEmpty_iff] at hRest
      rw [hText]
      refine hUsed.append (balanced_spaces fun c hc => ?_)
      exact List.dropWhile_eq_nil_iff.mp hRest c hc
  · cases hEnd

/-- From the start of an array or an object to a place before its end, a bracket is open. -/
theorem open_of_prefix {v : Value F} (hFits : Fits floats 127 v) (hGroup : IsGroup v)
    {text more : List Char} (hText : text ++ more = render floats v) (hStart : text ≠ [])
    (hMore : more ≠ []) :
    ∃ place depth, walk .outside 0 text = some (place, depth + 1) := by
  obtain ⟨o, inside, c, hRender, hOpen, hInside⟩ : ∃ o inside c,
      render floats v = o :: (inside ++ [c]) ∧ (o = '[' ∨ o = '\x7b') ∧ Balanced inside := by
    have hRead := readValue_render v hFits [] fun _ hc => by cases hc
    rw [List.append_nil] at hRead
    cases v with
    | arr items =>
        rw [render] at hRead ⊢
        rw [readValue, onNext_cons _ rfl, if_neg (by decide), if_pos rfl, if_neg (by decide)] at hRead
        obtain ⟨⟨items, rest'⟩, hItems, hEq⟩ := Option.map_eq_some_iff.mp hRead
        cases hEq
        obtain ⟨used, hTail, hUsed⟩ := consumes_group (consumes_value _) hItems
        exact ⟨'[', used, ']', by rw [hTail], Or.inl rfl, hUsed⟩
    | obj members =>
        rw [render] at hRead ⊢
        rw [readValue, onNext_cons _ rfl, if_neg (by decide), if_neg (by decide), if_pos rfl,
          if_neg (by decide)] at hRead
        obtain ⟨⟨items, rest'⟩, hItems, hEq⟩ := Option.map_eq_some_iff.mp hRead
        cases hEq
        obtain ⟨used, hTail, hUsed⟩ := consumes_group (consumes_member (consumes_value _)) hItems
        exact ⟨'\x7b', used, '\x7d', by rw [hTail], Or.inr rfl, hUsed⟩
    | _ => exact hGroup.elim
  cases text with
  | nil => exact absurd rfl hStart
  | cons o' text =>
      rw [hRender, List.cons_append, List.cons.injEq] at hText
      obtain ⟨rfl, hText⟩ := hText
      obtain ⟨text', rfl⟩ : ∃ text', inside = text ++ text' := by
        have hLast := List.dropLast_append_getLast hMore
        rw [← hLast, ← List.append_assoc] at hText
        exact ⟨_, ((List.append_inj' hText rfl).1).symm⟩
      rw [Balanced, walk_append] at hInside
      obtain ⟨⟨place, depth⟩, hWalk, -⟩ := Option.bind_eq_some_iff.mp hInside
      have hNot : o' ≠ '\\' ∧ o' ≠ quote := by
        rcases hOpen with rfl | rfl <;> decide
      refine ⟨place, depth, ?_⟩
      rw [walk, if_neg hNot.1, if_neg hNot.2, if_pos hOpen]
      exact walk_shift hWalk 1

/-- From within an array or an object no balanced text leads to its end. -/
theorem not_balanced_of_open {place : Place} {depth : Nat} {text : List Char}
    (h : walk place (depth + 1) text = some (.outside, 0)) : ¬ Balanced text := by
  have hSame : ∀ {place text}, walk place (depth + 1) text = some (.outside, 0) →
      ¬ walk place 0 text = some (.outside, 0) := by
    intro place text h hZero
    have hShift := walk_shift hZero (depth + 1)
    rw [Nat.zero_add, h] at hShift
    injection hShift with hPair
    injection hPair with _ hDepth
    omega
  intro hBalanced
  cases place with
  | outside => exact hSame h hBalanced
  | inside => exact walk_opposite h hBalanced
  | escaped =>
      cases text with
      | nil => cases h
      | cons c text =>
          rw [walk] at h
          rw [Balanced, walk] at hBalanced
          split at hBalanced
          · cases hBalanced
          split at hBalanced
          · exact hSame h hBalanced
          split at hBalanced
          · exact walk_opposite h hBalanced
          split at hBalanced
          · cases hBalanced
          · exact walk_opposite h hBalanced

theorem parse_spaces {gap : List Char} (h : ∀ c ∈ gap, isSpace c = true) :
    parse floats gap = none := by
  rw [parse, show recursionLimit = 127 + 1 from rfl, readValue, onNext, skip,
    List.dropWhile_eq_nil_iff.mpr h]
  rfl

/-- The text of an array or an object without its beginning is no text of a value. -/
theorem parse_suffix {v : Value F} (hFits : Fits floats 127 v) (hGroup : IsGroup v)
    {text more gap : List Char} (hText : text ++ more = render floats v) (hStart : text ≠ [])
    (hGap : ∀ c ∈ gap, isSpace c = true) : parse floats (more ++ gap) = none := by
  by_cases hMore : more = []
  · rw [hMore, List.nil_append]
    exact parse_spaces hGap
  cases hParse : parse floats (more ++ gap) with
  | none => rfl
  | some w =>
      have hWhole := (balanced_of_parse (parse_render hFits)).append (balanced_spaces hGap)
      obtain ⟨place, depth, hWalk⟩ := open_of_prefix hFits hGroup hText hStart hMore
      rw [← hText, List.append_assoc, Balanced, walk_append, hWalk] at hWhole
      exact absurd (balanced_of_parse hParse) (not_balanced_of_open hWhole)

end Suffix

end Mgd.Lib.Json
