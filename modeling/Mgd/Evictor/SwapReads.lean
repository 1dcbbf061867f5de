import Mathlib.Tactic.Linarith
import Mgd.Evictor.Scoring
import Mgd.Lib.Run
import Mgd.Lib.Text

/-!
# Reads of the swap counters

A look at `/proc/vmstat` that fails, or lacks a counter, gives zero, and the
zero becomes the reference of the next difference.  `Watch` runs the score
tracker beside the true counters; `reported_iff` says which cycles report no
more than was swapped.
-/

namespace Mgd.Evictor.SwapReads

open Mgd.Types Mgd.Monitor Mgd.Lib.Run Mgd.Lib.Text Mgd.Evictor.Scoring

/-! ## Reading the counters -/

def pswpinKey : List Char := "pswpin ".toList

def pswpoutKey : List Char := "pswpout ".toList

def parseCount (v : List Char) : Option Nat := parseUnsigned u64Max (trim v)

/-- One line of `/proc/vmstat`, after the counters found so far. -/
def vmstatLine (found : Nat × Nat) (line : List Char) : Nat × Nat :=
  match stripPrefix pswpinKey line with
  | some v => ((parseCount v).getD 0, found.2)
  | none =>
      match stripPrefix pswpoutKey line with
      | some v => (found.1, (parseCount v).getD 0)
      | none => found

/-- The loop over the lines ends when both counters are found. -/
def vmstatFrom (found : Nat × Nat) : List (List Char) → Nat × Nat
  | [] => found
  | line :: rest =>
      let found := vmstatLine found line
      if found.1 > 0 ∧ found.2 > 0 then found else vmstatFrom found rest

def parseVmstatSwap (content : List Char) : Nat × Nat := vmstatFrom (0, 0) (lines content)

/-- `(pswpin, pswpout)` in pages. -/
def readVmstatSwapCounters : Option (List Char) → Nat × Nat
  | none => (0, 0)
  | some content => parseVmstatSwap content

/-! ## The true counters -/

/-- A look at `/proc/vmstat`: the pages swapped since boot, and the text that is
read, `none` when the read fails. -/
structure Read where
  pswpin : Nat
  pswpout : Nat
  content : Option (List Char)

/-- The number behind a key. -/
def valueOf (key : List Char) (ls : List (List Char)) : Option Nat :=
  (ls.findSome? (stripPrefix key)).bind parseCount

def Read.inRead (r : Read) : Option Nat := r.content.bind fun c => valueOf pswpinKey (lines c)

def Read.outRead (r : Read) : Option Nat := r.content.bind fun c => valueOf pswpoutKey (lines c)

def Read.both (r : Read) : Bool := r.inRead.isSome && r.outRead.isSome

def hasKey (key line : List Char) : Prop := ∃ v, stripPrefix key line = some v

instance (key line : List Char) : Decidable (hasKey key line) :=
  decidable_of_iff ((stripPrefix key line).isSome = true) Option.isSome_iff_exists

/-- The key stands on one line at most. -/
def Once (key : List Char) (ls : List (List Char)) : Prop :=
  ls.Pairwise fun a b => hasKey key a → ¬ hasKey key b

instance (key : List Char) (ls : List (List Char)) : Decidable (Once key ls) :=
  inferInstanceAs (Decidable (ls.Pairwise _))

/-- What is read of a counter is its true value. -/
structure Read.Honest (r : Read) : Prop where
  onceIn : ∀ c ∈ r.content, Once pswpinKey (lines c)
  onceOut : ∀ c ∈ r.content, Once pswpoutKey (lines c)
  trueIn : ∀ n ∈ r.inRead, n = r.pswpin
  trueOut : ∀ n ∈ r.outRead, n = r.pswpout

/-! ## The tracker beside the counters -/

/-- What a cycle reads. -/
structure Cycle where
  read : Read
  someAvg10 : ℚ
  meminfo : MemInfo
  totalGpu : Kb
  now : Instant

def Cycle.sample (c : Cycle) : Sample where
  someAvg10 := c.someAvg10
  meminfo := c.meminfo
  pswpin := (readVmstatSwapCounters c.read.content).1
  pswpout := (readVmstatSwapCounters c.read.content).2
  totalGpu := c.totalGpu
  now := c.now

/-- `previous` is the look of the last cycle, `full` the last one that read both
counters, or the first look of all. -/
structure Watch where
  tracker : ScoreTracker
  previous : Read
  full : Read

namespace Watch

def start (first : Read) (now : Instant) : Watch where
  tracker := ScoreTracker.new (readVmstatSwapCounters first.content).1
    (readVmstatSwapCounters first.content).2 now
  previous := first
  full := first

def step (w : Watch) (c : Cycle) : Watch where
  tracker := (w.tracker.updateWith c.sample).1
  previous := c.read
  full := if c.read.both then c.read else w.full

end Watch

/-- The counters only grow, and fit their type. -/
structure Grows (w : Watch) (c : Cycle) : Prop where
  honest : c.read.Honest
  pswpin : w.previous.pswpin ≤ c.read.pswpin
  pswpout : w.previous.pswpout ≤ c.read.pswpout

/-- The pages swapped since both counters were read. -/
def swapped (w : Watch) (c : Cycle) : Nat :=
  (c.read.pswpin - w.full.pswpin) + (c.read.pswpout - w.full.pswpout)

/-- The rate of the cycle is at most 4 KB for each page swapped, over the time
since the cycle before, and the product with 4 fits a `u64`. -/
def NotOverReported (w : Watch) (c : Cycle) : Prop :=
  (w.tracker.updateWith c.sample).2.swapIoKbs ≤ 4 * (swapped w c : ℚ) / w.tracker.dt c.sample ∧
    (w.tracker.dt c.sample > 1 / 10 → w.tracker.swapIoPages c.sample * 4 ≤ u64Max)

instance (w : Watch) (c : Cycle) : Decidable (NotOverReported w c) :=
  inferInstanceAs (Decidable (_ ∧ (_ → _)))

/-! ## One counter -/

/-- A counter at the last full look, at the last look and now, with what was
read of it. -/
structure Counter where
  full : Nat
  before : Nat
  now : Nat
  readBefore : Option Nat
  readNow : Option Nat

namespace Counter

/-- What the cycle adds for the counter: the difference when it was read at both
looks, all of it when the last look missed it. -/
def counted (k : Counter) : Nat :=
  match k.readNow, k.readBefore with
  | some n, some m => n - m
  | some n, none => n
  | none, _ => 0

/-- What was swapped before the last full look and is added again. -/
def recounted (k : Counter) : Nat :=
  match k.readNow, k.readBefore with
  | some _, none => k.full
  | _, _ => 0

/-- What was swapped since the last full look and is not added. -/
def leftOut (k : Counter) : Nat :=
  match k.readNow, k.readBefore with
  | some _, some _ => k.before - k.full
  | some _, none => 0
  | none, _ => k.now - k.full

theorem counted_add_leftOut {k : Counter} (hFull : k.full ≤ k.before) (hBefore : k.before ≤ k.now)
    (hReadBefore : ∀ n ∈ k.readBefore, n = k.before) (hReadNow : ∀ n ∈ k.readNow, n = k.now) :
    k.counted + k.leftOut = (k.now - k.full) + k.recounted := by
  unfold counted leftOut recounted
  cases hNow : k.readNow with
  | none => simp
  | some n =>
      have hn := hReadNow n hNow
      cases hThen : k.readBefore with
      | none => dsimp only; omega
      | some m =>
          have hm := hReadBefore m hThen
          dsimp only
          omega

end Counter

def pswpinOf (w : Watch) (c : Cycle) : Counter where
  full := w.full.pswpin
  before := w.previous.pswpin
  now := c.read.pswpin
  readBefore := w.previous.inRead
  readNow := c.read.inRead

def pswpoutOf (w : Watch) (c : Cycle) : Counter where
  full := w.full.pswpout
  before := w.previous.pswpout
  now := c.read.pswpout
  readBefore := w.previous.outRead
  readNow := c.read.outRead

/-- The cycle is too short for a rate, or what it adds again is no more than what
it leaves out, and what it adds is below 2^62 pages. -/
def Referenced (w : Watch) (c : Cycle) : Prop :=
  w.tracker.dt c.sample ≤ 1 / 10 ∨
    ((pswpinOf w c).recounted + (pswpoutOf w c).recounted ≤
        (pswpinOf w c).leftOut + (pswpoutOf w c).leftOut ∧
      (pswpinOf w c).counted + (pswpoutOf w c).counted < 2 ^ 62)

/-! ## What is read -/

theorem valueOf_cons_none {key line : List Char} (h : stripPrefix key line = none)
    (rest : List (List Char)) : valueOf key (line :: rest) = valueOf key rest := by
  unfold valueOf
  rw [List.findSome?_cons, h]

theorem valueOf_cons_some {key line v : List Char} (h : stripPrefix key line = some v)
    (rest : List (List Char)) : valueOf key (line :: rest) = parseCount v := by
  unfold valueOf
  rw [List.findSome?_cons, h]
  rfl

/-- No key, no number. -/
def Absent (key : List Char) (ls : List (List Char)) : Prop := ∀ line ∈ ls, ¬ hasKey key line

theorem valueOf_absent {key : List Char} {ls : List (List Char)} (h : Absent key ls) :
    valueOf key ls = none := by
  have hNone : ls.findSome? (stripPrefix key) = none := by
    rw [List.findSome?_eq_none_iff]
    intro line hLine
    rw [Option.eq_none_iff_forall_ne_some]
    exact fun v hv => h line hLine ⟨v, hv⟩
  unfold valueOf
  rw [hNone]
  rfl

theorem pswpout_of_pswpin {line v : List Char} (h : stripPrefix pswpinKey line = some v) :
    stripPrefix pswpoutKey line = none := by
  rw [stripPrefix_eq_some_iff] at h
  rw [h]
  rfl

theorem Absent.tail {key line : List Char} {rest : List (List Char)}
    (h : Absent key (line :: rest)) : Absent key rest :=
  fun l hl => h l (List.mem_cons_of_mem line hl)

/-- A counter that has been found is not on a later line. -/
structure Found (found : Nat × Nat) (ls : List (List Char)) : Prop where
  onceIn : Once pswpinKey ls
  onceOut : Once pswpoutKey ls
  pswpin : found.1 > 0 → Absent pswpinKey ls
  pswpout : found.2 > 0 → Absent pswpoutKey ls

/-- What one line adds, and that the rest of the lines is as before. -/
theorem vmstatLine_spec {found : Nat × Nat} {line : List Char} {rest : List (List Char)}
    (h : Found found (line :: rest)) :
    Found (vmstatLine found line) rest ∧
      (valueOf pswpinKey rest).getD (vmstatLine found line).1 =
        (valueOf pswpinKey (line :: rest)).getD found.1 ∧
      (valueOf pswpoutKey rest).getD (vmstatLine found line).2 =
        (valueOf pswpoutKey (line :: rest)).getD found.2 := by
  have hOnceIn := List.pairwise_cons.mp h.onceIn
  have hOnceOut := List.pairwise_cons.mp h.onceOut
  cases hIn : stripPrefix pswpinKey line with
  | some v =>
      have hLine : vmstatLine found line = ((parseCount v).getD 0, found.2) := by
        unfold vmstatLine
        rw [hIn]
      have hAbsent : Absent pswpinKey rest := fun l hl => hOnceIn.1 l hl ⟨v, hIn⟩
      have hZero : found.1 = 0 := by
        by_contra hNot
        exact h.pswpin (Nat.pos_of_ne_zero hNot) line List.mem_cons_self ⟨v, hIn⟩
      rw [hLine, valueOf_cons_some hIn, valueOf_cons_none (pswpout_of_pswpin hIn),
        valueOf_absent hAbsent, hZero]
      exact ⟨⟨hOnceIn.2, hOnceOut.2, fun _ => hAbsent, fun hPos => (h.pswpout hPos).tail⟩, rfl, rfl⟩
  | none =>
      cases hOut : stripPrefix pswpoutKey line with
      | some v =>
          have hLine : vmstatLine found line = (found.1, (parseCount v).getD 0) := by
            unfold vmstatLine
            rw [hIn, hOut]
          have hAbsent : Absent pswpoutKey rest := fun l hl => hOnceOut.1 l hl ⟨v, hOut⟩
          have hZero : found.2 = 0 := by
            by_contra hNot
            exact h.pswpout (Nat.pos_of_ne_zero hNot) line List.mem_cons_self ⟨v, hOut⟩
          rw [hLine, valueOf_cons_none hIn, valueOf_cons_some hOut, valueOf_absent hAbsent, hZero]
          exact ⟨⟨hOnceIn.2, hOnceOut.2, fun hPos => (h.pswpin hPos).tail, fun _ => hAbsent⟩,
            rfl, rfl⟩
      | none =>
          have hLine : vmstatLine found line = found := by
            unfold vmstatLine
            rw [hIn, hOut]
          rw [hLine, valueOf_cons_none hIn, valueOf_cons_none hOut]
          exact ⟨⟨hOnceIn.2, hOnceOut.2, fun hPos => (h.pswpin hPos).tail,
            fun hPos => (h.pswpout hPos).tail⟩, rfl, rfl⟩

/-- **The loop finds the counters**, the early end included. -/
theorem vmstatFrom_eq {ls : List (List Char)} {found : Nat × Nat} (h : Found found ls) :
    vmstatFrom found ls =
      ((valueOf pswpinKey ls).getD found.1, (valueOf pswpoutKey ls).getD found.2) := by
  induction ls generalizing found with
  | nil => rfl
  | cons line rest ih =>
      obtain ⟨hFound, hIn, hOut⟩ := vmstatLine_spec h
      rw [← hIn, ← hOut]
      unfold vmstatFrom
      dsimp only
      split
      · next hBoth =>
          rw [valueOf_absent (hFound.pswpin hBoth.1), valueOf_absent (hFound.pswpout hBoth.2)]
          rfl
      · exact ih hFound

/-- A counter that is not read is zero. -/
theorem readVmstat_eq {r : Read} (h : r.Honest) :
    readVmstatSwapCounters r.content = (r.inRead.getD 0, r.outRead.getD 0) := by
  unfold Read.inRead Read.outRead
  cases hContent : r.content with
  | none => rfl
  | some c =>
      exact vmstatFrom_eq ⟨h.onceIn c hContent, h.onceOut c hContent,
        fun hPos => absurd hPos (lt_irrefl 0), fun hPos => absurd hPos (lt_irrefl 0)⟩

/-! ## Cycles -/

/-- The references are the counters of the last look, zero where it missed one. -/
structure Inv (w : Watch) : Prop where
  honest : w.previous.Honest
  lastPswpin : w.tracker.lastPswpin = w.previous.inRead.getD 0
  lastPswpout : w.tracker.lastPswpout = w.previous.outRead.getD 0
  pswpin : w.full.pswpin ≤ w.previous.pswpin
  pswpout : w.full.pswpout ≤ w.previous.pswpout

theorem inv_start {first : Read} (h : first.Honest) (now : Instant) :
    Inv (Watch.start first now) where
  honest := h
  lastPswpin := congrArg Prod.fst (readVmstat_eq h)
  lastPswpout := congrArg Prod.snd (readVmstat_eq h)
  pswpin := le_refl _
  pswpout := le_refl _

theorem inv_step {w : Watch} (h : Inv w) {c : Cycle} (hGrows : Grows w c) : Inv (w.step c) where
  honest := hGrows.honest
  lastPswpin := congrArg Prod.fst (readVmstat_eq hGrows.honest)
  lastPswpout := congrArg Prod.snd (readVmstat_eq hGrows.honest)
  pswpin := by
    show (if c.read.both then c.read else w.full).pswpin ≤ c.read.pswpin
    split
    · exact le_refl _
    · exact h.pswpin.trans hGrows.pswpin
  pswpout := by
    show (if c.read.both then c.read else w.full).pswpout ≤ c.read.pswpout
    split
    · exact le_refl _
    · exact h.pswpout.trans hGrows.pswpout

/-- The pages of a cycle are those that are counted. -/
theorem swapIoPages_eq {w : Watch} (h : Inv w) {c : Cycle} (hGrows : Grows w c) :
    w.tracker.swapIoPages c.sample =
      min ((pswpinOf w c).counted + (pswpoutOf w c).counted) u64Max := by
  have hRead := readVmstat_eq hGrows.honest
  have hCounted : ∀ readNow readBefore : Option Nat, ∀ full before now : Nat,
      readNow.getD 0 - readBefore.getD 0 =
        Counter.counted ⟨full, before, now, readBefore, readNow⟩ := by
    intro readNow readBefore full before now
    cases readNow with
    | none => simp [Counter.counted]
    | some n => cases readBefore <;> simp [Counter.counted]
  unfold ScoreTracker.swapIoPages Cycle.sample
  dsimp only
  rw [hRead, h.lastPswpin, h.lastPswpout]
  dsimp only
  rw [hCounted _ _ w.full.pswpin w.previous.pswpin c.read.pswpin,
    hCounted _ _ w.full.pswpout w.previous.pswpout c.read.pswpout]
  rfl

/-- **One cycle** reports no more than was swapped exactly when it is referenced. -/
theorem notOverReported_iff {w : Watch} (h : Inv w) {c : Cycle} (hGrows : Grows w c) :
    NotOverReported w c ↔ Referenced w c := by
  have hIn := Counter.counted_add_leftOut (k := pswpinOf w c) h.pswpin hGrows.pswpin
    h.honest.trueIn hGrows.honest.trueIn
  have hOut := Counter.counted_add_leftOut (k := pswpoutOf w c) h.pswpout hGrows.pswpout
    h.honest.trueOut hGrows.honest.trueOut
  have hSwapped : swapped w c = ((pswpinOf w c).now - (pswpinOf w c).full) +
      ((pswpoutOf w c).now - (pswpoutOf w c).full) := rfl
  have hPages := swapIoPages_eq h hGrows
  have hRate : (w.tracker.updateWith c.sample).2.swapIoKbs =
      if w.tracker.dt c.sample > 1 / 10 then
        ((w.tracker.swapIoPages c.sample * 4 : Nat) : ℚ) / w.tracker.dt c.sample
      else 0 := rfl
  unfold NotOverReported Referenced
  rw [hRate]
  by_cases hLong : w.tracker.dt c.sample > 1 / 10
  · have hPos : 0 < w.tracker.dt c.sample := by linarith
    have hLe : ((w.tracker.swapIoPages c.sample * 4 : Nat) : ℚ) / w.tracker.dt c.sample ≤
        4 * (swapped w c : ℚ) / w.tracker.dt c.sample ↔
          w.tracker.swapIoPages c.sample ≤ swapped w c := by
      rw [div_le_div_iff_of_pos_right hPos]
      norm_cast
      omega
    have hMax : u64Max = 2 ^ 64 - 1 := rfl
    rw [if_pos hLong, hLe, hPages]
    simp only [not_le.mpr hLong, hLong, false_or, forall_const]
    omega
  · have hDt : 0 ≤ w.tracker.dt c.sample := div_nonneg (Nat.cast_nonneg _) (Nat.cast_nonneg _)
    have hPages : (0 : ℚ) ≤ swapped w c := Nat.cast_nonneg _
    have hBound : 0 ≤ 4 * (swapped w c : ℚ) / w.tracker.dt c.sample :=
      div_nonneg (mul_nonneg (by decide) hPages) hDt
    rw [if_neg hLong]
    exact iff_of_true ⟨hBound, fun hMore => absurd hMore hLong⟩ (Or.inl (not_lt.mp hLong))

/-- **A run over-reports in the cycles that are not referenced, and only in
those.** -/
theorem reported_iff {first : Read} (hFirst : first.Honest) (now : Instant) {cycles : List Cycle}
    (hGrows : EveryStep Watch.step Grows (Watch.start first now) cycles) :
    EveryStep Watch.step (fun w c => NotOverReported w c ↔ Referenced w c)
      (Watch.start first now) cycles :=
  everyStep_of_invariant (fun _ _ hInv hStep => inv_step hInv hStep)
    (fun _ _ hInv hStep => notOverReported_iff hInv hStep) (inv_start hFirst now) hGrows

/-! ## A failed look -/

/-- A machine that has swapped twelve pages since boot. -/
def idleRead (content : Option (List Char)) : Read := ⟨5, 7, content⟩

def idleText : List Char := "pswpin 5\npswpout 7\n".toList

def idleCycle (secs : Nat) (content : Option (List Char)) : Cycle where
  read := idleRead content
  someAvg10 := 0
  meminfo := ⟨Kb.clamp 1, Kb.clamp 1, Kb.clamp 0, Kb.clamp 0⟩
  totalGpu := Kb.clamp 0
  now := Instant.ofSecs secs

theorem honest_idle : (idleRead (some idleText)).Honest where
  onceIn := by decide +kernel
  onceOut := by decide +kernel
  trueIn := by decide +kernel
  trueOut := by decide +kernel

theorem honest_failed : (idleRead none).Honest := ⟨nofun, nofun, nofun, nofun⟩

/-- Nothing is swapped, and the cycle after a failed look reports all twelve. -/
theorem failed_look_over_reports :
    ¬ EveryStep Watch.step NotOverReported (Watch.start (idleRead (some idleText)) 0)
      [idleCycle 5 none, idleCycle 10 (some idleText)] := by
  decide +kernel

theorem idle_reported_iff :
    EveryStep Watch.step (fun w c => NotOverReported w c ↔ Referenced w c)
      (Watch.start (idleRead (some idleText)) 0)
      [idleCycle 5 none, idleCycle 10 (some idleText)] :=
  reported_iff honest_idle 0 ⟨⟨honest_failed, le_refl _, le_refl _⟩,
    ⟨honest_idle, le_refl _, le_refl _⟩, trivial⟩

end Mgd.Evictor.SwapReads
