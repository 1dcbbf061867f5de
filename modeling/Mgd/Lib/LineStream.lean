import Mgd.Lib.Utf8

/-!
# Lines of a byte stream

One side writes each text with a line feed behind it.  The other side gets the
bytes in pieces that have nothing to do with the lines, and puts the lines
together in a buffer.

* `drainLines_eq` says that the pieces make no difference to the lines.
* `handover` says what a second reader of the same stream gets after a first one
  has taken a line and is dropped with its buffer.
* `messages_after` and `messages_before` say which messages arrive of a stream that
  lost its beginning or its end, when no piece of a message is a message.
-/

namespace Mgd.Lib.LineStream

open Mgd.Lib.Utf8

universe u

abbrev Bytes := List UInt8

def lineFeed : UInt8 := 10

/-! ## Readers -/

/-- The bytes up to and with the first line feed, and those after it. -/
def cut : Bytes → Option (Bytes × Bytes)
  | [] => none
  | b :: rest =>
      if b = lineFeed then some ([b], rest) else (cut rest).map fun r => (b :: r.1, r.2)

/-- `read_until` of a buffered reader whose buffer is the first piece and whose next
reads return the others: a line, and the pieces that are left.  At the end of the
stream the line has no line feed. -/
def readUntil : List Bytes → Bytes × List Bytes
  | [] => ([], [])
  | piece :: later =>
      match cut piece with
      | some (line, left) => (line, left :: later)
      | none => (piece ++ (readUntil later).1, (readUntil later).2)

/-- `read_line` until it fails or reads nothing.  It fails at bytes that are no text. -/
def drain : Nat → List Bytes → List (List Char)
  | 0, _ => []
  | fuel + 1, pieces =>
      if (readUntil pieces).1 = [] then []
      else
        match decode (readUntil pieces).1 with
        | none => []
        | some text => text :: drain fuel (readUntil pieces).2

/-- Every line but the empty one takes bytes off the stream. -/
def drainLines (pieces : List Bytes) : List (List Char) :=
  drain (pieces.flatten.length + 1) pieces

/-! ## The lines of the whole stream -/

/-- The lines with their line feeds, `cur` being what has been read of the first. -/
def linesFrom : Bytes → Bytes → List Bytes
  | cur, [] => if cur = [] then [] else [cur]
  | cur, b :: rest =>
      if b = lineFeed then (cur ++ [b]) :: linesFrom [] rest else linesFrom (cur ++ [b]) rest

def byteLines (bytes : Bytes) : List Bytes := linesFrom [] bytes

/-- The lines up to one that is no text. -/
def decodeLines : List Bytes → List (List Char)
  | [] => []
  | line :: rest =>
      match decode line with
      | none => []
      | some text => text :: decodeLines rest

theorem cut_eq_some {bytes line left : Bytes} (h : cut bytes = some (line, left)) :
    ∃ start, lineFeed ∉ start ∧ line = start ++ [lineFeed] ∧
      bytes = start ++ lineFeed :: left := by
  induction bytes generalizing line with
  | nil => cases h
  | cons b rest ih =>
      rw [cut] at h
      split at h
      · next hFeed =>
          cases h
          exact ⟨[], by simp, by rw [hFeed]; rfl, by rw [hFeed]; rfl⟩
      · next hFeed =>
          obtain ⟨⟨line', left'⟩, hCut, hEq⟩ := Option.map_eq_some_iff.mp h
          cases hEq
          obtain ⟨start, hStart, hLine, hRest⟩ := ih hCut
          refine ⟨b :: start, ?_, by rw [hLine]; rfl, by rw [hRest]; rfl⟩
          rw [List.mem_cons, not_or]
          exact ⟨Ne.symm hFeed, hStart⟩

theorem cut_append {start : Bytes} (h : lineFeed ∉ start) (left : Bytes) :
    cut (start ++ lineFeed :: left) = some (start ++ [lineFeed], left) := by
  induction start with
  | nil => rfl
  | cons b start ih =>
      rw [List.mem_cons, not_or] at h
      rw [List.cons_append, cut, if_neg (Ne.symm h.1), ih h.2]
      rfl

theorem cut_eq_none {bytes : Bytes} (h : cut bytes = none) : lineFeed ∉ bytes := by
  intro hMem
  obtain ⟨start, left, rfl, hStart⟩ := List.eq_append_cons_of_mem hMem
  rw [cut_append hStart] at h
  cases h

theorem linesFrom_start {start : Bytes} (h : lineFeed ∉ start) (cur rest : Bytes) :
    linesFrom cur (start ++ rest) = linesFrom (cur ++ start) rest := by
  induction start generalizing cur with
  | nil => rw [List.append_nil, List.nil_append]
  | cons b start ih =>
      rw [List.mem_cons, not_or] at h
      rw [List.cons_append, linesFrom, if_neg (Ne.symm h.1), ih h.2, List.append_assoc]
      rfl

/-- The first line, and the lines of the rest. -/
theorem byteLines_cons {start : Bytes} (h : lineFeed ∉ start) (rest : Bytes) :
    byteLines (start ++ lineFeed :: rest) = (start ++ [lineFeed]) :: byteLines rest := by
  rw [byteLines, linesFrom_start h, List.nil_append, linesFrom, if_pos rfl]
  rfl

theorem byteLines_last {start : Bytes} (h : lineFeed ∉ start) :
    byteLines start = if start = [] then [] else [start] := by
  have hLines := linesFrom_start h [] []
  rw [List.append_nil, List.nil_append] at hLines
  rw [byteLines, hLines, linesFrom]

/-- What `read_until` returns, told from the bytes alone. -/
theorem readUntil_eq (pieces : List Bytes) :
    (∃ start left later, lineFeed ∉ start ∧
        readUntil pieces = (start ++ [lineFeed], left :: later) ∧
        pieces.flatten = start ++ lineFeed :: (left ++ later.flatten)) ∨
      lineFeed ∉ pieces.flatten ∧ readUntil pieces = (pieces.flatten, []) := by
  induction pieces with
  | nil => exact Or.inr ⟨by simp, rfl⟩
  | cons piece later ih =>
      rw [readUntil]
      cases hCut : cut piece with
      | some r =>
          obtain ⟨line, left⟩ := r
          obtain ⟨start, hStart, hLine, hPiece⟩ := cut_eq_some hCut
          refine Or.inl ⟨start, left, later, hStart, by rw [hLine], ?_⟩
          rw [List.flatten_cons, hPiece, List.append_assoc]
          rfl
      | none =>
          have hPiece := cut_eq_none hCut
          rcases ih with ⟨start, left, later', hStart, hRead, hLater⟩ | ⟨hNone, hRead⟩
          · refine Or.inl ⟨piece ++ start, left, later', ?_, ?_, ?_⟩
            · rw [List.mem_append, not_or]
              exact ⟨hPiece, hStart⟩
            · rw [hRead, List.append_assoc]
            · rw [List.flatten_cons, hLater, List.append_assoc]
          · refine Or.inr ⟨?_, by rw [hRead]; rfl⟩
            rw [List.flatten_cons, List.mem_append, not_or]
            exact ⟨hPiece, hNone⟩

theorem drain_eq {fuel : Nat} {pieces : List Bytes} (h : pieces.flatten.length < fuel) :
    drain fuel pieces = decodeLines (byteLines pieces.flatten) := by
  induction fuel generalizing pieces with
  | zero => omega
  | succ fuel ih =>
      rw [drain]
      rcases readUntil_eq pieces with ⟨start, left, later, hStart, hRead, hBytes⟩ | ⟨hNone, hRead⟩
      · rw [hBytes, List.length_append, List.length_cons] at h
        rw [hRead, if_neg (by simp), hBytes, byteLines_cons hStart, decodeLines]
        cases hText : decode (start ++ [lineFeed]) with
        | none => rfl
        | some text =>
            show text :: drain fuel (left :: later) = _
            rw [ih (by rw [List.flatten_cons]; omega), List.flatten_cons]
      · rw [hRead, byteLines_last hNone]
        by_cases hEmpty : pieces.flatten = []
        · rw [if_pos hEmpty, if_pos hEmpty, decodeLines]
        · rw [if_neg hEmpty, if_neg hEmpty, decodeLines]
          cases hText : decode pieces.flatten with
          | none => rfl
          | some text =>
              show text :: drain fuel [] = text :: decodeLines []
              cases fuel <;> rfl

/-- The lines that are read are those of the stream, however it is cut in pieces. -/
theorem drainLines_eq (pieces : List Bytes) :
    drainLines pieces = decodeLines (byteLines pieces.flatten) :=
  drain_eq (Nat.lt_succ_self _)

/-! ## Written lines -/

/-- A text as `writeln!` writes it. -/
def frame (text : List Char) : Bytes := encode text ++ [lineFeed]

def frames (texts : List (List Char)) : Bytes := (texts.map frame).flatten

theorem lineFeed_ne_ofNat {n : Nat} (hLow : n ≠ 10) (hHigh : n < 256) :
    lineFeed ≠ UInt8.ofNat n := by
  intro h
  have hValue := congrArg UInt8.toNat h
  rw [UInt8.toNat_ofNat_of_lt' hHigh] at hValue
  exact hLow hValue.symm

theorem lineFeed_not_mem_char {c : Char} (h : c ≠ '\n') :
    lineFeed ∉ String.utf8EncodeChar c := by
  have hCode : c.val.toNat ≠ 10 := by
    intro hTen
    exact h (Char.ext (UInt32.toNat_inj.mp hTen))
  unfold String.utf8EncodeChar
  simp only
  split
  · rw [List.mem_singleton]
    exact lineFeed_ne_ofNat hCode (by omega)
  split
  · simp only [List.mem_cons, List.not_mem_nil, or_false, not_or]
    exact ⟨lineFeed_ne_ofNat (by omega) (by omega), lineFeed_ne_ofNat (by omega) (by omega)⟩
  split
  · simp only [List.mem_cons, List.not_mem_nil, or_false, not_or]
    exact ⟨lineFeed_ne_ofNat (by omega) (by omega), lineFeed_ne_ofNat (by omega) (by omega),
      lineFeed_ne_ofNat (by omega) (by omega)⟩
  · simp only [List.mem_cons, List.not_mem_nil, or_false, not_or]
    exact ⟨lineFeed_ne_ofNat (by omega) (by omega), lineFeed_ne_ofNat (by omega) (by omega),
      lineFeed_ne_ofNat (by omega) (by omega), lineFeed_ne_ofNat (by omega) (by omega)⟩

/-- UTF-8 has no line feed but that of the character. -/
theorem lineFeed_not_mem_encode {text : List Char} (h : '\n' ∉ text) :
    lineFeed ∉ encode text := by
  rw [encode, List.mem_flatMap]
  rintro ⟨c, hc, hByte⟩
  refine lineFeed_not_mem_char ?_ hByte
  rintro rfl
  exact h hc

theorem frame_eq (text : List Char) : frame text = encode (text ++ ['\n']) := by
  rw [encode_append]
  rfl

theorem frame_ne_nil (text : List Char) : frame text ≠ [] := by simp [frame]

theorem frames_cons (text : List Char) (rest : List (List Char)) :
    frames (text :: rest) = frame text ++ frames rest := rfl

theorem byteLines_frames {texts : List (List Char)} (h : ∀ text ∈ texts, '\n' ∉ text)
    (rest : Bytes) :
    byteLines (frames texts ++ rest) = texts.map frame ++ byteLines rest := by
  induction texts with
  | nil => rfl
  | cons text texts ih =>
      rw [List.forall_mem_cons] at h
      rw [frames_cons, frame, List.append_assoc, List.append_assoc, List.singleton_append,
        byteLines_cons (lineFeed_not_mem_encode h.1), ih h.2]
      rfl

theorem decodeLines_frames (texts : List (List Char)) (rest : List Bytes) :
    decodeLines (texts.map frame ++ rest) =
      texts.map (fun text => text ++ ['\n']) ++ decodeLines rest := by
  induction texts with
  | nil => rfl
  | cons text texts ih =>
      rw [List.map_cons, List.cons_append, decodeLines, frame_eq, decode_encode]
      show (text ++ ['\n']) :: decodeLines (texts.map frame ++ rest) = _
      rw [ih]
      rfl

/-- A cut in the stream is between two lines or within one. -/
theorem exists_frames {texts : List (List Char)} {before after : Bytes}
    (h : before ++ after = frames texts) :
    (∃ gone left, texts = gone ++ left ∧ before = frames gone ∧ after = frames left) ∨
      ∃ gone text left start rest, texts = gone ++ text :: left ∧
        before = frames gone ++ start ∧ after = rest ++ frames left ∧
        start ++ rest = frame text ∧ start ≠ [] ∧ rest ≠ [] := by
  induction texts generalizing before with
  | nil =>
      obtain ⟨rfl, rfl⟩ := List.append_eq_nil_iff.mp h
      exact Or.inl ⟨[], [], rfl, rfl, rfl⟩
  | cons text texts ih =>
      rw [frames_cons, List.append_eq_append_iff] at h
      rcases h with ⟨rest, hFrame, hAfter⟩ | ⟨more, hBefore, hTexts⟩
      · by_cases hRest : rest = []
        · refine Or.inl ⟨[text], texts, rfl, ?_, ?_⟩
          · rw [hRest, List.append_nil] at hFrame
            rw [frames_cons, hFrame]
            exact (List.append_nil _).symm
          · rw [hAfter, hRest, List.nil_append]
        by_cases hStart : before = []
        · refine Or.inl ⟨[], text :: texts, rfl, hStart, ?_⟩
          rw [hAfter, frames_cons, hFrame, hStart, List.nil_append]
        · exact Or.inr ⟨[], text, texts, before, rest, rfl, rfl, hAfter, hFrame.symm, hStart,
            hRest⟩
      · rcases ih hTexts.symm with ⟨gone, left, rfl, hGone, hLeft⟩ |
          ⟨gone, cutText, left, start, rest, rfl, hGone, hLeft, hFrame, hStart, hRest⟩
        · refine Or.inl ⟨text :: gone, left, rfl, ?_, hLeft⟩
          rw [hBefore, hGone, frames_cons]
        · refine Or.inr ⟨text :: gone, cutText, left, start, rest, rfl, ?_, hLeft, hFrame,
            hStart, hRest⟩
          rw [hBefore, hGone, frames_cons, List.append_assoc]

/-- A cut in a line is a cut before its line feed. -/
theorem cut_frame {text : List Char} {start rest : Bytes} (h : start ++ rest = frame text)
    (hRest : rest ≠ []) : ∃ rest', rest = rest' ++ [lineFeed] ∧ start ++ rest' = encode text := by
  have hLast := List.dropLast_append_getLast hRest
  rw [← hLast, ← List.append_assoc] at h
  obtain ⟨hText, hFeed⟩ := List.append_inj' h rfl
  exact ⟨rest.dropLast, by rw [← hFeed, hLast], hText⟩

/-- The bytes after a cut in a text, when they are a text. -/
theorem decode_after {text more : List Char} {start rest : Bytes}
    (h : start ++ rest = encode text) (hMore : decode rest = some more) :
    ∃ before, start = encode before ∧ before ++ more = text := by
  have hRight := decode_append_right start more
  rw [← decode_eq_some_iff.mp hMore, h, decode_encode] at hRight
  obtain ⟨before, hBefore, hText⟩ := Option.map_eq_some_iff.mp hRight.symm
  exact ⟨before, decode_eq_some_iff.mp hBefore, hText⟩

/-- The first line of a stream, and what its reader leaves of the rest. -/
theorem handover {text : List Char} {rest : Bytes} (h : '\n' ∉ text) {pieces : List Bytes}
    (hPieces : pieces.flatten = frame text ++ rest) :
    ∃ left later, readUntil pieces = (frame text, left :: later) ∧
      left ++ later.flatten = rest := by
  have hFirst := lineFeed_not_mem_encode h
  rw [frame, List.append_assoc, List.singleton_append] at hPieces
  rcases readUntil_eq pieces with ⟨start, left, later, hStart, hRead, hBytes⟩ | ⟨hNone, -⟩
  · have hCut := cut_append hStart (left ++ later.flatten)
    rw [← hBytes, hPieces, cut_append hFirst] at hCut
    injection hCut with hPair
    injection hPair with hLine hRest
    exact ⟨left, later, by rw [hRead, ← hLine, frame], hRest.symm⟩
  · rw [hPieces] at hNone
    exact absurd (List.mem_append_right _ List.mem_cons_self) hNone

/-! ## Messages -/

/-- Messages with one line each.  A piece of the text of a message is the text of
none, with its line feed or without. -/
structure LineFormat (α : Type u) where
  write : α → List Char
  read : List Char → Option α
  /-- what there is a text for -/
  Sendable : α → Prop
  write_ne_nil : ∀ a, write a ≠ []
  noBreak : ∀ {a}, Sendable a → '\n' ∉ write a
  read_write : ∀ {a}, Sendable a → read (write a) = some a
  read_line : ∀ {a}, Sendable a → read (write a ++ ['\n']) = some a
  read_prefix : ∀ {a text more}, Sendable a → text ++ more = write a → more ≠ [] →
    read text = none
  read_suffix : ∀ {a text more gap}, Sendable a → text ++ more = write a → text ≠ [] →
    gap <+: ['\n'] → read (more ++ gap) = none

namespace LineFormat

variable {α : Type u} (format : LineFormat α)

/-- The bytes of messages. -/
def sent (ms : List α) : Bytes := frames (ms.map format.write)

/-- The messages among the lines of a stream; a line that is none is skipped. -/
def received (pieces : List Bytes) : List α := (drainLines pieces).filterMap format.read

variable {format}

theorem noBreak_texts {ms : List α} (h : ∀ m ∈ ms, format.Sendable m) :
    ∀ text ∈ ms.map format.write, '\n' ∉ text := by
  intro text hText
  obtain ⟨m, hm, rfl⟩ := List.mem_map.mp hText
  exact format.noBreak (h m hm)

theorem filterMap_lines {ms : List α} (h : ∀ m ∈ ms, format.Sendable m) :
    ((ms.map format.write).map fun text => text ++ ['\n']).filterMap format.read = ms := by
  induction ms with
  | nil => rfl
  | cons m ms ih =>
      rw [List.forall_mem_cons] at h
      rw [List.map_cons, List.map_cons, List.filterMap_cons_some (format.read_line h.1), ih h.2]

/-- The messages of whole lines, and those of what follows them. -/
theorem received_append {ms : List α} (h : ∀ m ∈ ms, format.Sendable m) {pieces : List Bytes}
    {rest : Bytes} (hPieces : pieces.flatten = format.sent ms ++ rest) :
    format.received pieces = ms ++ (decodeLines (byteLines rest)).filterMap format.read := by
  rw [received, drainLines_eq, hPieces, sent, byteLines_frames (noBreak_texts h),
    decodeLines_frames, List.filterMap_append, filterMap_lines h]

theorem received_sent {ms : List α} (h : ∀ m ∈ ms, format.Sendable m) {pieces : List Bytes}
    (hPieces : pieces.flatten = format.sent ms) : format.received pieces = ms := by
  have hRead := received_append h (hPieces.trans (List.append_nil (format.sent ms)).symm)
  exact hRead.trans (List.append_nil ms)

/-- The messages of `texts = gone ++ left` are split where the texts are. -/
theorem exists_split {ms : List α} {gone left : List (List Char)}
    (h : ms.map format.write = gone ++ left) :
    ∃ ms₁ ms₂, ms = ms₁ ++ ms₂ ∧ ms₁.map format.write = gone ∧ ms₂.map format.write = left := by
  obtain ⟨ms₁, ms₂, hMs, hGone, hLeft⟩ := List.map_eq_append_iff.mp h
  exact ⟨ms₁, ms₂, hMs, hGone, hLeft⟩

theorem sent_append (ms₁ ms₂ : List α) :
    format.sent (ms₁ ++ ms₂) = format.sent ms₁ ++ format.sent ms₂ := by
  simp [sent, frames]

theorem sent_eq_nil_iff {ms : List α} : format.sent ms = [] ↔ ms = [] := by
  cases ms with
  | nil => exact iff_of_true rfl rfl
  | cons m ms =>
      refine iff_of_false (fun hNone => ?_) (List.cons_ne_nil m ms)
      rw [sent, List.map_cons, frames_cons] at hNone
      exact frame_ne_nil _ (List.append_eq_nil_iff.mp hNone).1

theorem length_encode_pos {text : List Char} (h : text ≠ []) : 0 < (encode text).length := by
  rw [List.length_pos_iff]
  intro hEmpty
  have hText := decode_encode text
  rw [hEmpty] at hText
  exact h (Option.some.inj hText).symm

/-- The bytes of a message whose line is not ended. -/
def unended (last : Option α) : Bytes := (last.map fun a => encode (format.write a)).getD []

/-- The line that is not ended gives its message. -/
theorem decodeLines_unended {last : Option α} (h : ∀ a ∈ last, format.Sendable a) :
    (decodeLines (byteLines (format.unended last))).filterMap format.read = last.toList := by
  cases last with
  | none => rfl
  | some a =>
      have hText : encode (format.write a) ≠ [] :=
        List.length_pos_iff.mp (length_encode_pos (format.write_ne_nil a))
      show (decodeLines (byteLines (encode (format.write a)))).filterMap format.read = [a]
      rw [byteLines_last (lineFeed_not_mem_encode (format.noBreak (h a rfl))), if_neg hText,
        decodeLines, decode_encode]
      exact List.filterMap_cons_some (format.read_write (h a rfl))

theorem received_unended {ms : List α} (h : ∀ m ∈ ms, format.Sendable m) {last : Option α}
    (hLast : ∀ a ∈ last, format.Sendable a) {pieces : List Bytes}
    (hPieces : pieces.flatten = format.sent ms ++ format.unended last) :
    format.received pieces = ms ++ last.toList := by
  rw [received_append h hPieces, decodeLines_unended hLast]

/-- The line of which the beginning is lost gives no message.  If what is left of it is
no text, the reader stops. -/
theorem received_rest {m : α} (hm : format.Sendable m) {start rest : Bytes}
    (hFrame : start ++ rest = frame (format.write m)) (hStart : start ≠ []) (hRest : rest ≠ [])
    {pieces : List Bytes} {later : Bytes} (hPieces : pieces.flatten = rest ++ later) :
    format.received pieces = [] ∨
      format.received pieces = (decodeLines (byteLines later)).filterMap format.read := by
  obtain ⟨rest', rfl, hCut⟩ := cut_frame hFrame hRest
  have hFeed : lineFeed ∉ rest' := by
    intro hMem
    have hAll := List.mem_append_right start hMem
    rw [hCut] at hAll
    exact lineFeed_not_mem_encode (format.noBreak hm) hAll
  rw [received, drainLines_eq, hPieces, List.append_assoc, List.singleton_append,
    byteLines_cons hFeed, decodeLines]
  cases hText : decode (rest' ++ [lineFeed]) with
  | none => exact Or.inl rfl
  | some text =>
      refine Or.inr ?_
      rw [frame_eq] at hFrame
      obtain ⟨before, rfl, hBefore⟩ := decode_after hFrame hText
      have hPiece : format.read text = none := by
        have hNonempty : text ≠ [] := by
          rintro rfl
          rw [decode_eq_some_iff.mp hText] at hRest
          exact hRest rfl
        have hLast := List.dropLast_append_getLast hNonempty
        rw [← hLast, ← List.append_assoc] at hBefore
        obtain ⟨hWrite, hBreak⟩ := List.append_inj' hBefore rfl
        rw [hBreak] at hLast
        rw [← hLast]
        refine format.read_suffix hm hWrite ?_ (List.prefix_refl _)
        rintro rfl
        exact hStart rfl
      exact List.filterMap_cons_none hPiece

/-- A piece of the line that is not ended gives no message either. -/
theorem received_unended_rest {a : α} (ha : format.Sendable a) {start : Bytes}
    (hStart : start ≠ []) {pieces : List Bytes}
    (hPieces : start ++ pieces.flatten = encode (format.write a)) : format.received pieces = [] := by
  have hFeed : lineFeed ∉ pieces.flatten := by
    intro hMem
    have hAll := List.mem_append_right start hMem
    rw [hPieces] at hAll
    exact lineFeed_not_mem_encode (format.noBreak ha) hAll
  rw [received, drainLines_eq, byteLines_last hFeed]
  split
  · rfl
  · rw [decodeLines]
    cases hText : decode pieces.flatten with
    | none => rfl
    | some text =>
        obtain ⟨before, rfl, hBefore⟩ := decode_after hPieces hText
        have hSome : before ≠ [] := by
          rintro rfl
          exact hStart rfl
        have hPiece := format.read_suffix ha hBefore hSome List.nil_prefix
        rw [List.append_nil] at hPiece
        exact List.filterMap_cons_none hPiece

/-- When the stream lost its beginning, the messages that arrive are the last ones,
and all of them only if nothing was lost. -/
theorem messages_after {ms : List α} (h : ∀ m ∈ ms, format.Sendable m) {last : Option α}
    (hLast : ∀ a ∈ last, format.Sendable a) {lost : Bytes} {pieces : List Bytes}
    (hBytes : lost ++ pieces.flatten = format.sent ms ++ format.unended last) :
    format.received pieces <:+ ms ++ last.toList ∧
      (format.received pieces = ms ++ last.toList ↔ lost = []) := by
  rcases List.append_eq_append_iff.mp hBytes with ⟨mid, hSent, hPieces⟩ | ⟨start, hLost, hTail⟩
  · rcases exists_frames hSent.symm with ⟨gone, left, hTexts, hGone, hLeft⟩ |
      ⟨gone, text, left, start, rest, hTexts, hGone, hLeft, hFrame, hStart, hRest⟩
    · obtain ⟨ms₁, ms₂, rfl, rfl, rfl⟩ := exists_split hTexts
      have hReceived := received_unended (fun m hm => h m (List.mem_append_right ms₁ hm)) hLast
        (hPieces.trans (congrArg (· ++ format.unended last) hLeft))
      rw [hReceived, List.append_assoc, hGone]
      refine ⟨List.suffix_append ms₁ _, ?_⟩
      rw [List.self_eq_append_left]
      exact sent_eq_nil_iff.symm
    · obtain ⟨ms₁, ms', rfl, rfl, hMore⟩ := exists_split hTexts
      obtain ⟨m, ms₂, rfl, rfl, rfl⟩ := List.map_eq_cons_iff.mp hMore
      have hSome : ¬ lost = [] := by
        rw [hGone]
        exact fun hNone => hStart (List.append_eq_nil_iff.mp hNone).2
      rw [List.forall_mem_append, List.forall_mem_cons] at h
      -- the line that is left of the message gives none
      have hReceived : format.received pieces = [] ∨
          format.received pieces = ms₂ ++ last.toList := by
        have hLater : pieces.flatten = rest ++ (format.sent ms₂ ++ format.unended last) := by
          rw [hPieces, hLeft, List.append_assoc]
          rfl
        have hRead := received_unended h.2.2 hLast
          (List.flatten_singleton (l := format.sent ms₂ ++ format.unended last))
        rw [received, drainLines_eq, List.flatten_singleton] at hRead
        rw [← hRead]
        exact received_rest h.2.1 hFrame hStart hRest hLater
      refine ⟨?_, iff_of_false ?_ hSome⟩
      · rcases hReceived with hNone | hRead
        · rw [hNone]
          exact List.nil_suffix
        · rw [hRead]
          exact ⟨ms₁ ++ [m], by simp⟩
      · intro hAll
        have hLength := congrArg List.length hAll
        simp only [List.length_append, List.length_cons] at hLength
        rcases hReceived with hNone | hRead
        · rw [hNone, List.length_nil] at hLength
          omega
        · rw [hRead, List.length_append] at hLength
          omega
  · -- all whole lines are lost
    by_cases hWhole : start = []
    · rw [hWhole, List.nil_append] at hTail
      rw [hWhole, List.append_nil] at hLost
      have hReceived : format.received pieces = [] ++ last.toList :=
        received_unended (List.forall_mem_nil _) hLast hTail.symm
      rw [hReceived, List.nil_append, hLost]
      refine ⟨List.suffix_append ms _, ?_⟩
      rw [List.self_eq_append_left]
      exact sent_eq_nil_iff.symm
    · cases last with
      | none => exact absurd (List.append_eq_nil_iff.mp hTail.symm).1 hWhole
      | some a =>
          have hReceived := received_unended_rest (hLast a rfl) hWhole hTail.symm
          rw [hReceived, hLost]
          refine ⟨List.nil_suffix, iff_of_false ?_ ?_⟩
          · exact fun hAll => absurd (List.append_eq_nil_iff.mp hAll.symm).2 (by simp)
          · exact fun hNone => hWhole (List.append_eq_nil_iff.mp hNone).2

end LineFormat

end Mgd.Lib.LineStream
