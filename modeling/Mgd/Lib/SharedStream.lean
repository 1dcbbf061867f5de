import Mathlib.Data.List.Induction
import Mathlib.Logic.Function.Basic
import Mgd.Lib.Run
import Mgd.Lib.Serde

/-!
# Threads that share a stream

Each thread writes its texts to the same stream, and each text in two writes: the
text, and a line feed.  Nothing keeps the writes of one thread together.

* `received_wire`: the reader of the lines gets the texts that have a line of their
  own.  Two texts on one line are lost, and the line feeds that are left over are
  blank lines.
* `kept_iff`: nothing is lost if and only if no thread begins a line while another
  one has begun its line and not ended it.
* `sentBy_append_queue`: whatever the others do, a thread writes its texts in their order.
* `wire_of_ownLine`: then the bytes are those of one writer.
-/

namespace Mgd.Lib.SharedStream

open Mgd.Lib.Utf8 Mgd.Lib.LineStream Mgd.Lib.Run

universe u v

variable {α : Type u} {ι : Type v}

/-! ## What is written -/

/-- One write. -/
inductive Chunk (ι : Type v) (α : Type u) where
  | text (sender : ι) (a : α)
  | lineFeed

/-- The texts of finished lines with one text, and those of the line that is not
finished. -/
structure Lines (α : Type u) where
  whole : List α
  current : List α

/-- The text of a line that has one. -/
def single : List α → List α
  | [a] => [a]
  | _ => []

def Lines.add (l : Lines α) : Chunk ι α → Lines α
  | .text _ a => { l with current := l.current ++ [a] }
  | .lineFeed => ⟨l.whole ++ single l.current, []⟩

/-- The texts with a line of their own. -/
def Lines.alone (l : Lines α) : List α := l.whole ++ single l.current

def linesOf (chunks : List (Chunk ι α)) : Lines α := chunks.foldl Lines.add ⟨[], []⟩

def Chunk.textOf : Chunk ι α → List α
  | .text _ a => [a]
  | .lineFeed => []

/-- All texts in the order in which they are written. -/
def written (chunks : List (Chunk ι α)) : List α := chunks.flatMap Chunk.textOf

@[simp] theorem linesOf_append (chunks : List (Chunk ι α)) (c : Chunk ι α) :
    linesOf (chunks ++ [c]) = (linesOf chunks).add c := by
  simp [linesOf]

@[simp] theorem written_append (chunks : List (Chunk ι α)) (c : Chunk ι α) :
    written (chunks ++ [c]) = written chunks ++ c.textOf := by
  simp [written]

theorem single_of_short {l : List α} (h : l.length ≤ 1) : single l = l := by
  match l with
  | [] => rfl
  | [_] => rfl
  | _ :: _ :: _ => simp at h

theorem single_sublist (l : List α) : (single l).Sublist l := by
  by_cases h : l.length ≤ 1
  · rw [single_of_short h]
  · match l with
    | [] => exact absurd (Nat.zero_le 1) h
    | [_] => exact absurd (Nat.le_refl 1) h
    | _ :: _ :: _ => exact List.nil_sublist _

/-- The texts of all lines are among those that are written, in their order. -/
theorem whole_current_sublist (chunks : List (Chunk ι α)) :
    ((linesOf chunks).whole ++ (linesOf chunks).current).Sublist (written chunks) := by
  induction chunks using List.reverseRecOn with
  | nil => exact List.Sublist.refl _
  | append_singleton chunks c ih =>
      rw [linesOf_append, written_append]
      cases c with
      | text sender a =>
          show (_ ++ (_ ++ [a])).Sublist (_ ++ [a])
          rw [← List.append_assoc]
          exact ih.append (List.Sublist.refl [a])
      | lineFeed =>
          show ((_ ++ single _) ++ []).Sublist (written chunks ++ [])
          rw [List.append_nil, List.append_nil]
          exact ((List.Sublist.refl _).append (single_sublist _)).trans ih

theorem alone_sublist (chunks : List (Chunk ι α)) :
    (linesOf chunks).alone.Sublist (written chunks) :=
  ((List.Sublist.refl _).append (single_sublist _)).trans (whole_current_sublist chunks)

/-- A write adds no more texts with a line of their own than texts. -/
theorem length_alone_add (l : Lines α) (c : Chunk ι α) :
    (l.add c).alone.length ≤ l.alone.length + c.textOf.length := by
  obtain ⟨whole, current⟩ := l
  cases c with
  | lineFeed => simp [Lines.add, Lines.alone, Chunk.textOf, single]
  | text sender a =>
      match current with
      | [] => simp [Lines.add, Lines.alone, Chunk.textOf, single]
      | [b] =>
          show (whole ++ []).length ≤ (whole ++ [b]).length + 1
          simp only [List.length_append, List.length_nil, List.length_singleton]
          omega
      | b :: b' :: more => simp [Lines.add, Lines.alone, Chunk.textOf, single]

/-- No text shares a line with another one. -/
def Kept (chunks : List (Chunk ι α)) : Prop := (linesOf chunks).alone = written chunks

/-- What is lost does not come back. -/
theorem kept_of_append {chunks : List (Chunk ι α)} {c : Chunk ι α} (h : Kept (chunks ++ [c])) :
    Kept chunks := by
  have hLength := congrArg List.length h
  rw [linesOf_append, written_append, List.length_append] at hLength
  have hAdd := length_alone_add (linesOf chunks) c
  have hSub := alone_sublist chunks
  exact hSub.eq_of_length (Nat.le_antisymm hSub.length_le (by omega))

/-! ## What is read -/

section Reading

variable (format : LineFormat α)

def Chunk.bytes : Chunk ι α → Bytes
  | .text _ a => encode (format.write a)
  | .lineFeed => [LineStream.lineFeed]

/-- The bytes of the stream. -/
def wire (chunks : List (Chunk ι α)) : Bytes := (chunks.map (Chunk.bytes format)).flatten

/-- Two texts on a line are no text, and a blank line is none. -/
structure Separate : Prop where
  joined : ∀ {a b : α}, format.Sendable a → format.Sendable b → ∀ rest : List Char,
    format.read (format.write a ++ (format.write b ++ rest)) = none
  blank : format.read ['\n'] = none

variable {format}

/-- The text of the line on which the texts stand. -/
def joined (format : LineFormat α) (texts : List α) : List Char := texts.flatMap format.write

theorem read_line (hFormat : Separate format) {texts : List α}
    (h : ∀ a ∈ texts, format.Sendable a) :
    (format.read (joined format texts ++ ['\n'])).toList = single texts := by
  match texts with
  | [] =>
      show (format.read ['\n']).toList = []
      rw [hFormat.blank]
      rfl
  | [a] =>
      rw [joined, List.flatMap_singleton, format.read_line (h a List.mem_cons_self)]
      rfl
  | a :: b :: more =>
      rw [List.forall_mem_cons, List.forall_mem_cons] at h
      rw [joined, List.flatMap_cons, List.flatMap_cons, List.append_assoc, List.append_assoc,
        hFormat.joined h.1 h.2.1]
      rfl

theorem read_last (hFormat : Separate format) {texts : List α} (hSome : texts ≠ [])
    (h : ∀ a ∈ texts, format.Sendable a) :
    (format.read (joined format texts)).toList = single texts := by
  match texts with
  | [] => exact absurd rfl hSome
  | [a] =>
      rw [joined, List.flatMap_singleton, format.read_write (h a List.mem_cons_self)]
      rfl
  | a :: b :: more =>
      rw [List.forall_mem_cons, List.forall_mem_cons] at h
      rw [joined, List.flatMap_cons, List.flatMap_cons, hFormat.joined h.1 h.2.1]
      rfl

theorem encode_joined_append (texts : List α) (a : α) :
    encode (joined format (texts ++ [a])) =
      encode (joined format texts) ++ encode (format.write a) := by
  rw [joined, List.flatMap_append, List.flatMap_singleton, encode_append]
  rfl

/-- What is read of a line when the stream goes on with the chunks. -/
theorem read_from (hFormat : Separate format) {chunks : List (Chunk ι α)} {current : List α}
    (hCurrent : ∀ a ∈ current, format.Sendable a)
    (hRest : ∀ a ∈ written chunks, format.Sendable a) (whole : List α) :
    whole ++ (decodeLines (LineStream.linesFrom (encode (joined format current))
        (wire format chunks))).filterMap format.read =
      (chunks.foldl Lines.add ⟨whole, current⟩).alone := by
  induction chunks generalizing current whole with
  | nil =>
      by_cases hNil : current = []
      · subst hNil
        rfl
      have hBytes : encode (joined format current) ≠ [] := by
        intro hEmpty
        have hText := decode_encode (joined format current)
        rw [hEmpty] at hText
        obtain ⟨a, more, rfl⟩ := List.exists_cons_of_ne_nil hNil
        have hJoined : joined format (a :: more) = [] := (Option.some.inj hText).symm
        rw [joined, List.flatMap_cons] at hJoined
        exact format.write_ne_nil a (List.append_eq_nil_iff.mp hJoined).1
      have hLast := read_last hFormat hNil hCurrent
      show whole ++ (decodeLines (LineStream.linesFrom _ [])).filterMap _ = whole ++ single current
      rw [LineStream.linesFrom, if_neg hBytes, decodeLines, decode_encode, ← hLast]
      cases hRead : format.read (joined format current) with
      | none => simp [decodeLines, hRead]
      | some a => simp [decodeLines, hRead]
  | cons c rest ih =>
      rw [show wire format (c :: rest) = c.bytes format ++ wire format rest from rfl]
      cases c with
      | text sender a =>
          have hText : format.Sendable a := hRest a (by simp [written, Chunk.textOf])
          have hMore : ∀ b ∈ written rest, format.Sendable b :=
            fun b hb => hRest b (by simp [written, Chunk.textOf] at hb ⊢; exact Or.inr hb)
          have hCurrent' : ∀ b ∈ current ++ [a], format.Sendable b :=
            List.forall_mem_append.mpr ⟨hCurrent, List.forall_mem_singleton.mpr hText⟩
          have hRead := ih hCurrent' hMore whole
          rw [encode_joined_append] at hRead
          show whole ++ (decodeLines (LineStream.linesFrom _
            (encode (format.write a) ++ wire format rest))).filterMap format.read = _
          rw [linesFrom_start (lineFeed_not_mem_encode (format.noBreak hText)), hRead]
          rfl
      | lineFeed =>
          have hMore : ∀ b ∈ written rest, format.Sendable b := hRest
          have hRead := ih (List.forall_mem_nil _) hMore (whole ++ single current)
          have hLine := read_line hFormat hCurrent
          have hDecode : decode (encode (joined format current) ++ [LineStream.lineFeed]) =
              some (joined format current ++ ['\n']) := by
            show decode (frame (joined format current)) = _
            rw [frame_eq]
            exact decode_encode _
          show whole ++ (decodeLines (LineStream.linesFrom _
            (LineStream.lineFeed :: wire format rest))).filterMap format.read = _
          rw [LineStream.linesFrom, if_pos rfl, decodeLines, hDecode]
          show whole ++ List.filterMap format.read (_ :: decodeLines (LineStream.linesFrom [] _)) = _
          rw [List.foldl_cons, Lines.add, ← hRead, ← hLine, List.append_assoc]
          cases hSingle : format.read (joined format current ++ ['\n']) with
          | none =>
              rw [List.filterMap_cons_none hSingle]
              rfl
          | some a =>
              rw [List.filterMap_cons_some hSingle]
              rfl

/-- The reader gets the texts with a line of their own, however the bytes are cut. -/
theorem received_wire (hFormat : Separate format) {chunks : List (Chunk ι α)}
    (hSent : ∀ a ∈ written chunks, format.Sendable a)
    {pieces : List Bytes} (hBytes : pieces.flatten = wire format chunks) :
    format.received pieces = (linesOf chunks).alone := by
  rw [LineFormat.received, drainLines_eq, hBytes, byteLines]
  exact read_from hFormat (List.forall_mem_nil _) hSent []

end Reading

section Json

open Mgd.Lib.Json Mgd.Lib.Serde

variable {F : Type u} {floats : Floats F}

/-- Two JSON texts with nothing between them are no JSON text. -/
theorem parse_render_render {v w : Value F} (hFits : Fits floats 127 v) (hGroup : IsGroup w)
    (rest : List Char) : parse floats (render floats v ++ (render floats w ++ rest)) = none := by
  obtain ⟨c, more, hRender, hBracket⟩ :
      ∃ c rest, render floats w = c :: rest ∧ (c = '[' ∨ c = '\x7b') := render_bracket hGroup
  have hOpen : isNumberChar c = false ∧ isSpace c = false := by
    rcases hBracket with rfl | rfl
    · exact ⟨rfl, rfl⟩
    · exact ⟨rfl, rfl⟩
  have hRead := readValue_render v hFits (render floats w ++ rest) fun c' hc => by
    rw [hRender] at hc
    cases hc
    exact hOpen.1
  rw [parse, show recursionLimit = 127 + 1 from rfl, hRead, Option.bind_some, hRender]
  show (if (skip (c :: (more ++ rest))).isEmpty = true then some v else none) = none
  rw [skip_cons hOpen.2]
  rfl

theorem separate_lineFormat {α : Type u} (codec : Codec floats α) :
    Separate codec.lineFormat where
  joined := fun {a b} ha _ rest => by
    show (parse floats (render floats (codec.encode a) ++
      (render floats (codec.encode b) ++ rest))).bind codec.decode = none
    rw [parse_render_render (codec.fits ha) (codec.isGroup b)]
    rfl
  blank := by
    show (parse floats ['\n']).bind codec.decode = none
    rw [parse_spaces Codec.isSpace_newline]
    rfl

end Json

/-! ## The threads -/

/-- What a thread has to write, and whether its last line waits for its line feed. -/
structure Writer (α : Type u) where
  queue : List α
  midLine : Bool

structure Pipe (ι : Type v) (α : Type u) where
  writer : ι → Writer α
  chunks : List (Chunk ι α)

/-- Nothing is written yet. -/
def Pipe.new (queues : ι → List α) : Pipe ι α := ⟨fun i => ⟨queues i, false⟩, []⟩

/-- The texts of one thread. -/
def sentBy [DecidableEq ι] (i : ι) (chunks : List (Chunk ι α)) : List α :=
  chunks.flatMap fun
    | .text sender a => if sender = i then [a] else []
    | .lineFeed => []

/-- Only the thread itself has a line that is begun and not ended. -/
def OwnLine (s : Pipe ι α) (i : ι) : Prop :=
  (s.writer i).midLine = false → (s.writer i).queue ≠ [] → ∀ j, (s.writer j).midLine = false

section Steps

variable [DecidableEq ι]

/-- The next write of a thread. -/
def step (s : Pipe ι α) (i : ι) : Pipe ι α :=
  match s.writer i with
  | ⟨queue, true⟩ => ⟨Function.update s.writer i ⟨queue, false⟩, s.chunks ++ [.lineFeed]⟩
  | ⟨a :: rest, false⟩ =>
      ⟨Function.update s.writer i ⟨rest, true⟩, s.chunks ++ [.text i a]⟩
  | ⟨[], false⟩ => s

/-- A thread ends its line, begins one, or is done. -/
theorem step_cases (s : Pipe ι α) (i : ι) :
    ((s.writer i).midLine = true ∧
      step s i = ⟨Function.update s.writer i ⟨(s.writer i).queue, false⟩,
        s.chunks ++ [.lineFeed]⟩) ∨
    ((s.writer i).midLine = false ∧
      ((∃ a rest, (s.writer i).queue = a :: rest ∧
        step s i = ⟨Function.update s.writer i ⟨rest, true⟩, s.chunks ++ [.text i a]⟩) ∨
      ((s.writer i).queue = [] ∧ step s i = s))) := by
  unfold step
  split
  · next queue hWriter => exact Or.inl (by simp [hWriter])
  · next a rest hWriter => exact Or.inr ⟨by simp [hWriter], Or.inl ⟨a, rest, by simp [hWriter]⟩⟩
  · next hWriter => exact Or.inr ⟨by simp [hWriter], Or.inr (by simp [hWriter])⟩

/-- A thread writes what it has to, in its order. -/
theorem sentBy_step (s : Pipe ι α) (i j : ι) :
    sentBy j (step s i).chunks ++ ((step s i).writer j).queue =
      sentBy j s.chunks ++ (s.writer j).queue := by
  rcases step_cases s i with ⟨-, hStep⟩ | ⟨-, ⟨a, rest, hQueue, hStep⟩ | ⟨-, hStep⟩⟩
  · rw [hStep]
    by_cases hj : j = i
    · subst hj
      simp [sentBy]
    · simp [sentBy, hj]
  · rw [hStep]
    by_cases hj : j = i
    · subst hj
      simp [sentBy, hQueue]
    · simp [sentBy, hj, Ne.symm hj]
  · rw [hStep]

theorem sentBy_append_queue (queues : ι → List α) (moves : List ι) (i : ι) :
    sentBy i (run step (Pipe.new queues) moves).chunks ++
        ((run step (Pipe.new queues) moves).writer i).queue = queues i := by
  have hAlways : Always step
      (fun s => sentBy i s.chunks ++ (s.writer i).queue = queues i) (Pipe.new queues) moves :=
    always_of_invariant (fun s j hs _ => (sentBy_step s j i).trans hs) rfl (everyStep_true _ moves)
  exact hAlways.last

theorem mem_sentBy {i : ι} {a : α} {chunks : List (Chunk ι α)} (h : Chunk.text i a ∈ chunks) :
    a ∈ sentBy i chunks :=
  List.mem_flatMap.mpr ⟨_, h, by simp⟩

/-- A thread writes nothing but what it has to. -/
theorem mem_queue {queues : ι → List α} {moves : List ι} {i : ι} {a : α}
    (h : Chunk.text i a ∈ (run step (Pipe.new queues) moves).chunks) : a ∈ queues i := by
  rw [← sentBy_append_queue queues moves i]
  exact List.mem_append_left _ (mem_sentBy h)

omit [DecidableEq ι] in
theorem exists_sender {a : α} {chunks : List (Chunk ι α)} (h : a ∈ written chunks) :
    ∃ i, Chunk.text i a ∈ chunks := by
  obtain ⟨c, hc, ha⟩ := List.mem_flatMap.mp h
  cases c with
  | text sender b =>
      obtain rfl := List.mem_singleton.mp ha
      exact ⟨sender, hc⟩
  | lineFeed => cases ha

/-- What only one thread writes is written in the order of that thread. -/
theorem filterMap_written {β : Type u} {f : α → Option β} {i : ι} {chunks : List (Chunk ι α)}
    (h : ∀ j a, Chunk.text j a ∈ chunks → j ≠ i → f a = none) :
    (written chunks).filterMap f = (sentBy i chunks).filterMap f := by
  induction chunks with
  | nil => rfl
  | cons c rest ih =>
      have hRest := ih fun j a hMem => h j a (List.mem_cons_of_mem c hMem)
      rw [written, sentBy] at hRest ⊢
      rw [List.flatMap_cons, List.flatMap_cons, List.filterMap_append, List.filterMap_append, hRest]
      cases c with
      | lineFeed => rfl
      | text sender a =>
          by_cases hSender : sender = i
          · simp [Chunk.textOf, hSender]
          · simp [Chunk.textOf, hSender, h sender a List.mem_cons_self hSender]

/-- As long as nothing is lost: either all threads are between two lines, or one of them
has begun the line. -/
def Orderly (s : Pipe ι α) : Prop :=
  ((∀ i, (s.writer i).midLine = false) ∧ (linesOf s.chunks).current = []) ∨
    ∃ i a, (s.writer i).midLine = true ∧ (∀ j, j ≠ i → (s.writer j).midLine = false) ∧
      (linesOf s.chunks).current = [a]

theorem orderly_step {s : Pipe ι α} {i : ι} (h : Orderly s) (hOwn : OwnLine s i) :
    Orderly (step s i) := by
  rcases step_cases s i with ⟨hMid, hStep⟩ | ⟨hMid, ⟨a, rest, hQueue, hStep⟩ | ⟨-, hStep⟩⟩
  · rw [hStep]
    rcases h with ⟨hAll, -⟩ | ⟨k, a, -, hOthers, -⟩
    · rw [hAll i] at hMid
      cases hMid
    · have hSame : i = k := by
        by_contra hNot
        rw [hOthers i hNot] at hMid
        cases hMid
      subst hSame
      refine Or.inl ⟨fun j => ?_, by simp [Lines.add]⟩
      by_cases hj : j = i
      · subst hj
        simp
      · simp [hj, hOthers j hj]
  · rw [hStep]
    have hAll := hOwn hMid (by simp [hQueue])
    rcases h with ⟨-, hLine⟩ | ⟨k, _, hBegun, -, -⟩
    · refine Or.inr ⟨i, a, by simp, fun j hj => by simp [hj, hAll j], ?_⟩
      show (linesOf (s.chunks ++ [.text i a])).current = [a]
      rw [linesOf_append, Lines.add, hLine]
      rfl
    · rw [hAll k] at hBegun
      cases hBegun
  · rw [hStep]
    exact h

/-- A step keeps the texts apart if and only if it does not begin a line within another. -/
theorem kept_step_iff {s : Pipe ι α} (h : Orderly s) (hKept : Kept s.chunks) (i : ι) :
    Kept (step s i).chunks ↔ OwnLine s i := by
  rcases step_cases s i with ⟨hMid, hStep⟩ | ⟨hMid, ⟨a, rest, hQueue, hStep⟩ | ⟨hQueue, hStep⟩⟩
  · refine iff_of_true ?_ fun hNot => by rw [hMid] at hNot; cases hNot
    rw [hStep]
    show (linesOf (s.chunks ++ [.lineFeed])).alone = written (s.chunks ++ [.lineFeed])
    rw [linesOf_append, written_append, ← hKept]
    simp [Lines.add, Lines.alone, Chunk.textOf, single]
  · rw [hStep]
    show (linesOf (s.chunks ++ [.text i a])).alone = written (s.chunks ++ [.text i a]) ↔ _
    rw [linesOf_append, written_append, ← hKept]
    rcases h with ⟨hAll, hLine⟩ | ⟨k, b, hBegun, -, hLine⟩
    · refine iff_of_true ?_ fun _ _ => hAll
      simp [Lines.add, Lines.alone, Chunk.textOf, hLine, single]
    · refine iff_of_false ?_ fun hOwn => ?_
      · simp [Lines.add, Lines.alone, Chunk.textOf, hLine, single]
      · rw [hOwn hMid (by simp [hQueue]) k] at hBegun
        cases hBegun
  · refine iff_of_true ?_ fun _ hSome => absurd hQueue hSome
    rw [hStep]
    exact hKept

theorem kept_of_step {s : Pipe ι α} {i : ι} (h : Kept (step s i).chunks) : Kept s.chunks := by
  rcases step_cases s i with ⟨-, hStep⟩ | ⟨-, ⟨a, rest, -, hStep⟩ | ⟨-, hStep⟩⟩
  · rw [hStep] at h
    exact kept_of_append h
  · rw [hStep] at h
    exact kept_of_append h
  · rw [hStep] at h
    exact h

theorem always_kept {s : Pipe ι α} {moves : List ι} (h : Kept (run step s moves).chunks) :
    Always step (fun s => Kept s.chunks) s moves := by
  induction moves generalizing s with
  | nil => exact h
  | cons i rest ih => exact ⟨kept_of_step (ih h).head, ih h⟩

/-- Nothing is lost if and only if no thread begins a line within that of another one. -/
theorem kept_iff (queues : ι → List α) (moves : List ι) :
    Kept (run step (Pipe.new queues) moves).chunks ↔
      EveryStep step OwnLine (Pipe.new queues) moves := by
  have hStart : Orderly (Pipe.new queues) := Or.inl ⟨fun _ => rfl, rfl⟩
  have hExact : Always step (fun s => Kept s.chunks) (Pipe.new queues) moves ↔
      EveryStep step OwnLine (Pipe.new queues) moves :=
    always_iff_everyStep (fun _ _ _ hs _ hOwn => orderly_step hs hOwn)
      (fun _ i _ hs hKept => kept_step_iff hs hKept i)
      (everyStep_true (Pipe.new queues) moves) hStart rfl
  exact ⟨fun h => hExact.mp (always_kept h), fun h => (hExact.mpr h).last⟩

/-! ## The bytes of threads that keep apart -/

variable {format : LineFormat α}

omit [DecidableEq ι] in
theorem wire_append (chunks : List (Chunk ι α)) (c : Chunk ι α) :
    wire format (chunks ++ [c]) = wire format chunks ++ c.bytes format := by
  simp [wire]

/-- The stream holds one line for each text, the last one maybe not ended. -/
def LineByLine (format : LineFormat α) (s : Pipe ι α) : Prop :=
  wire format s.chunks =
    format.sent (linesOf s.chunks).whole ++ format.unended (linesOf s.chunks).current.head?

theorem lineByLine_step {s : Pipe ι α} {i : ι} (h : Orderly s) (hLines : LineByLine format s)
    (hOwn : OwnLine s i) : LineByLine format (step s i) := by
  unfold LineByLine at hLines ⊢
  rcases step_cases s i with ⟨hMid, hStep⟩ | ⟨hMid, ⟨a, rest, hQueue, hStep⟩ | ⟨-, hStep⟩⟩
  · rw [hStep]
    rcases h with ⟨hAll, -⟩ | ⟨_, a, -, -, hLine⟩
    · rw [hAll i] at hMid
      cases hMid
    · -- the line feed ends the line of `a`
      show wire format (s.chunks ++ [.lineFeed]) = _
      rw [wire_append, hLines, linesOf_append, hLine, Lines.add, hLine, LineFormat.sent_append]
      simp [LineFormat.unended, LineFormat.sent, frames, frame, single, Chunk.bytes]
  · rw [hStep]
    rcases h with ⟨-, hLine⟩ | ⟨k, _, hBegun, -, -⟩
    · show wire format (s.chunks ++ [.text i a]) = _
      rw [wire_append, hLines, linesOf_append, hLine, Lines.add, hLine]
      simp [LineFormat.unended, Chunk.bytes]
    · rw [hOwn hMid (by simp [hQueue]) k] at hBegun
      cases hBegun
  · rw [hStep]
    exact hLines

/-- Where nothing is lost, the bytes are those of the texts in their order. -/
theorem wire_of_ownLine {queues : ι → List α} {moves : List ι}
    (h : EveryStep step OwnLine (Pipe.new queues) moves) :
    ∃ ms last, written (run step (Pipe.new queues) moves).chunks = ms ++ Option.toList last ∧
      wire format (run step (Pipe.new queues) moves).chunks =
        format.sent ms ++ format.unended last := by
  have hStart : Orderly (Pipe.new queues) ∧ LineByLine format (Pipe.new queues) :=
    ⟨Or.inl ⟨fun _ => rfl, rfl⟩, rfl⟩
  have hAlways : Always step (fun s => Orderly s ∧ LineByLine format s) (Pipe.new queues) moves :=
    always_of_invariant
      (fun s i hs hOwn => ⟨orderly_step hs.1 hOwn, lineByLine_step hs.1 hs.2 hOwn⟩) hStart h
  obtain ⟨hOrderly, hLines⟩ := hAlways.last
  have hKept := (kept_iff queues moves).mpr h
  generalize run step (Pipe.new queues) moves = s at hOrderly hLines hKept
  refine ⟨(linesOf s.chunks).whole, (linesOf s.chunks).current.head?, ?_, hLines⟩
  rw [← hKept, Lines.alone]
  rcases hOrderly with ⟨-, hLine⟩ | ⟨_, a, -, -, hLine⟩
  · rw [hLine]
    rfl
  · rw [hLine]
    rfl

end Steps

end Mgd.Lib.SharedStream
