import Mgd.Engine.Calibrate
import Mgd.Lib.Toml

/-!
# The edit of the configuration

`mgctl calibrate --passive-apply` writes the suggested thresholds into the user's
configuration.  `patch_psi_block` edits the text line by line, and the daemon
reads it as TOML.  It says of itself that it preserves all other content.

The scanner takes a line that is `[psi]` but for white space for the header, a
line in brackets for the next one, and a line that begins with one of the keys
and has an equals sign for its entry.  `patchPsiBlock_correct` says that the edit is
right where TOML sees these lines as the scanner does (`SeesAlike`).
-/

namespace Mgd.PsiPatch

open Mgd.Lib.Text Mgd.Lib.TomlLines Mgd.Lib.Toml Mgd.Config.Loading Mgd.Engine.Calibrate

/-! ## The scanner -/

/-- The two live thresholds. -/
inductive PsiKey
  | elevated
  | fullCritical
deriving DecidableEq

namespace PsiKey

def text : PsiKey → List Char
  | elevated => "elevated_pct".toList
  | fullCritical => "full_critical_pct".toList

/-- Spaces up to the equals sign. -/
def pad : PsiKey → Nat
  | elevated => 6
  | fullCritical => 1

end PsiKey

/-- `elevated_pct` and `full_critical_pct` -/
abbrev Values := PsiKey → F64

/-- `key = value`, with one decimal. -/
def keyLine (values : Values) (k : PsiKey) : List Char :=
  entryLine k.text k.pad (F64.fixed1 (values k)).toList

def psiHeader : List Char := "[psi]".toList

/-- The state of the loop over the lines. -/
structure Scan where
  inPsi : Bool
  foundElevated : Bool
  foundFull : Bool
deriving DecidableEq

namespace Scan

def start : Scan := ⟨false, false, false⟩

def found (st : Scan) : PsiKey → Bool
  | .elevated => st.foundElevated
  | .fullCritical => st.foundFull

def mark (st : Scan) : PsiKey → Scan
  | .elevated => { st with foundElevated := true }
  | .fullCritical => { st with foundFull := true }

/-- The keys to write before the table ends. -/
def missing (st : Scan) : List PsiKey :=
  if st.inPsi then [PsiKey.elevated, .fullCritical].filter fun k => !st.found k else []

end Scan

/-- What the loop does with a line. -/
inductive Action
  | header (isPsi : Bool)
  | replace (k : PsiKey)
  | keep
deriving DecidableEq

/-- The line begins with the key and has an equals sign. -/
def looksLike (k : PsiKey) (trimmed : List Char) : Bool :=
  k.text.isPrefixOf trimmed && trimmed.contains '='

def action (st : Scan) (line : List Char) : Action :=
  let trimmed := trim line
  if trimmed.head? = some '[' ∧ trimmed.getLast? = some ']' then
    .header (decide (trimmed = psiHeader))
  else if st.inPsi = true ∧ trimmed.head? ≠ some '#' then
    if looksLike .elevated trimmed then .replace .elevated
    else if looksLike .fullCritical trimmed then .replace .fullCritical
    else .keep
  else .keep

def Scan.next (st : Scan) (line : List Char) : Scan :=
  match action st line with
  | .header isPsi => { st with inPsi := isPsi }
  | .replace k => st.mark k
  | .keep => st

/-- The lines pushed for a line. -/
def pushed (values : Values) (st : Scan) (line : List Char) : List (List Char) :=
  match action st line with
  | .header _ => st.missing.map (keyLine values) ++ [line]
  | .replace k => [keyLine values k]
  | .keep => [line]

section Line

variable {st : Scan} {line : List Char} {k : PsiKey} {isPsi : Bool}

theorem next_of_header (h : action st line = .header isPsi) :
    st.next line = { st with inPsi := isPsi } := by
  unfold Scan.next
  rw [h]

theorem next_of_replace (h : action st line = .replace k) : st.next line = st.mark k := by
  unfold Scan.next
  rw [h]

theorem next_of_keep (h : action st line = .keep) : st.next line = st := by
  unfold Scan.next
  rw [h]

theorem pushed_of_header (values : Values) (h : action st line = .header isPsi) :
    pushed values st line = st.missing.map (keyLine values) ++ [line] := by
  unfold pushed
  rw [h]

theorem pushed_of_replace (values : Values) (h : action st line = .replace k) :
    pushed values st line = [keyLine values k] := by
  unfold pushed
  rw [h]

theorem pushed_of_keep (values : Values) (h : action st line = .keep) :
    pushed values st line = [line] := by
  unfold pushed
  rw [h]

end Line

/-- The loop, and the keys that are missing at the end. -/
def scan (values : Values) : Scan → List (List Char) → List (List Char)
  | st, [] => st.missing.map (keyLine values)
  | st, line :: rest => pushed values st line ++ scan values (st.next line) rest

def hasPsi (ls : List (List Char)) : Bool := ls.any fun l => decide (trim l = psiHeader)

def patchPsiBlock (content : List Char) (values : Values) : List Char :=
  if hasPsi (lines content) then
    ['\n'].intercalate (scan values .start (lines content)) ++ ['\n']
  else
    let sep := if content.isEmpty || content.getLast? == some '\n' then [] else ['\n']
    content ++ sep ++ unlines
      [[], psiHeader, keyLine values .elevated, keyLine values .fullCritical]

/-! ## What the daemon reads -/

/-- The tenths of a number to one decimal, ties to even. -/
def tenths (q : ℚ) : Nat :=
  let scaled := |q| * 10
  let down := ⌊scaled⌋.toNat
  let rest := scaled - down
  if rest < 1 / 2 then down
  else if rest > 1 / 2 then down + 1
  else if down % 2 = 0 then down
  else down + 1

/-- The number rounded to one decimal. -/
def rounded (q : ℚ) : ℚ := (if q < 0 then -1 else 1) * ((tenths q : ℚ) / 10)

theorem tenths_near (q : ℚ) : |(tenths q : ℚ) - |q| * 10| ≤ 1 / 2 := by
  have hNonneg : 0 ≤ |q| * 10 := mul_nonneg (abs_nonneg q) (by norm_num)
  have hDown : ((⌊|q| * 10⌋.toNat : Nat) : ℚ) = (⌊|q| * 10⌋ : ℚ) := by
    exact_mod_cast Int.toNat_of_nonneg (Int.floor_nonneg.mpr hNonneg)
  have hLow := Int.floor_le (|q| * 10)
  have hHigh := Int.lt_floor_add_one (|q| * 10)
  unfold tenths
  dsimp only
  rw [abs_le]
  split
  · next hBelow =>
      rw [hDown] at hBelow ⊢
      constructor <;> linarith
  · next hBelow =>
      rw [hDown, not_lt] at hBelow
      split
      · push_cast
        rw [hDown]
        constructor <;> linarith
      · next hAbove =>
          rw [hDown, not_lt] at hAbove
          split
          · rw [hDown]
            constructor <;> linarith
          · push_cast
            rw [hDown]
            constructor <;> linarith

/-- It is the nearest number of tenths. -/
theorem rounded_near (q : ℚ) : |rounded q - q| ≤ 1 / 20 := by
  have hNear := tenths_near q
  rw [abs_le] at hNear ⊢
  unfold rounded
  split
  · next hNegative =>
      rw [abs_of_neg hNegative] at hNear
      constructor <;> linarith [hNear.1, hNear.2]
  · next hPositive =>
      rw [abs_of_nonneg (not_lt.mp hPositive)] at hNear
      constructor <;> linarith [hNear.1, hNear.2]

theorem fixed1_toList (q : ℚ) :
    (fixed1 q).toList = decimalText (decide (q < 0)) (tenths q / 10) (tenths q % 10) := by
  have hFixed : fixed1 q = (if q < 0 then "-" else "") ++ toString (tenths q / 10) ++ "." ++
      toString (tenths q % 10) := rfl
  have hPoint : ".".toList = ['.'] := by decide
  have hSign : (if q < 0 then "-" else "").toList =
      if decide (q < 0) = true then ['-'] else [] := by
    by_cases hNegative : q < 0
    · rw [if_pos hNegative, if_pos (decide_eq_true hNegative)]
      decide
    · rw [if_neg hNegative, if_neg (by simpa using hNegative)]
      decide
  unfold decimalText
  rw [hFixed, String.toList_append, String.toList_append, String.toList_append, hPoint, hSign,
    List.append_assoc, List.append_assoc]
  rfl

theorem decimalValue_tenths (q : ℚ) :
    decimalValue (decide (q < 0)) (tenths q / 10) (tenths q % 10) = rounded q := by
  have hParts : ((tenths q / 10 : Nat) : ℚ) + ((tenths q % 10 : Nat) : ℚ) / 10 =
      (tenths q : ℚ) / 10 := by
    have hSplit := Nat.div_add_mod (tenths q) 10
    have hCast : 10 * ((tenths q / 10 : Nat) : ℚ) + ((tenths q % 10 : Nat) : ℚ) =
        (tenths q : ℚ) := by
      exact_mod_cast hSplit
    linarith
  unfold decimalValue rounded
  rw [hParts]
  by_cases hNegative : q < 0 <;> simp [hNegative]

section ReadBack

variable {V : Type} (P : Parser V)

/-- The value that the parser reads for a threshold. -/
def readBack : F64 → Option V
  | .nan => none
  | .negInf => some (P.infinity true)
  | .finite q => some (P.decimal (rounded q))
  | .posInf => some (P.infinity false)

theorem isBareKey_text (k : PsiKey) : IsBareKey k.text := by
  cases k <;> decide

theorem text_injective {k k' : PsiKey} (h : k.text = k'.text) : k = k' := by
  cases k <;> cases k' <;> first | rfl | exact absurd h (by decide)

theorem expression_keyLine (values : Values) (k : PsiKey) {v : V}
    (h : readBack P (values k) = some v) :
    P.expression false [keyLine values k] = some (.entry [k.text] v) := by
  unfold keyLine
  cases hValue : values k with
  | nan =>
      rw [hValue] at h
      cases h
  | negInf =>
      rw [hValue] at h
      cases h
      exact P.infinityLine k.pad true (isBareKey_text k)
  | finite q =>
      rw [hValue] at h
      cases h
      have hLine := P.decimalLine k.pad (decide (q < 0)) (tenths q / 10) (isBareKey_text k)
        (Nat.mod_lt (tenths q) (by decide))
      rw [decimalValue_tenths, ← fixed1_toList] at hLine
      exact hLine
  | posInf =>
      rw [hValue] at h
      cases h
      exact P.infinityLine k.pad false (isBareKey_text k)

theorem expression_nan {values : Values} {k : PsiKey} (h : values k = .nan)
    (more : List (List Char)) : P.expression false (keyLine values k :: more) = none := by
  have hLine : keyLine values k = entryLine k.text k.pad ['N', 'a', 'N'] := by
    unfold keyLine
    rw [h]
    rfl
  rw [hLine]
  exact P.nanLine k.pad more (isBareKey_text k)

end ReadBack

/-! ## Where TOML sees what the scanner sees -/

def psiName : List Char := "psi".toList

/-- Where the key is. -/
def keyLoc (k : PsiKey) : List Step := [.name psiName, .name k.text]

section Agreement

variable {V : Type} (d : Doc V)

/-- TOML stands in `[psi]`, which does not have the key. -/
def Open (sec : Section) (k : PsiKey) : Prop :=
  sec = .table [psiName] ∧ (d (keyLoc k)).isNone = true

def isPsiTable : Meaning V → Bool
  | .table path => decide (path = [psiName])
  | _ => false

def isEntry (k : PsiKey) : Meaning V → Bool
  | .entry path _ => decide (path = [k.text])
  | _ => false

/-- The scanner and TOML agree on the first line of an expression: where it sees
`[psi]` there is that header; where it leaves the table with keys to add, TOML
is in that table and the keys are new; a line it replaces is the entry. -/
def FirstAgrees (st : Scan) (sec : Section) (m : Meaning V) (line : List Char)
    (more : List (List Char)) : Prop :=
  match action st line with
  | .header isPsi =>
      (isPsi = true → more = [] ∧ isPsiTable m = true) ∧ ∀ k ∈ st.missing, Open d sec k
  | .replace k => more = [] ∧ sec = .table [psiName] ∧ isEntry k m = true
  | .keep => True

/-- On the further lines of an expression the scanner does nothing. -/
def MoreAgree : Scan → List (List Char) → Prop
  | _, [] => True
  | st, line :: rest =>
      (match action st line with
        | .header isPsi => isPsi = false ∧ st.missing = []
        | .replace _ => False
        | .keep => True) ∧ MoreAgree (st.next line) rest

def StmtAgrees (st : Scan) (sec : Section) (s : Stmt V) : Prop :=
  match s.lines with
  | [] => True
  | line :: more => FirstAgrees d st sec s.meaning line more ∧ MoreAgree (st.next line) more

/-- They agree on every expression, and at the end. -/
def Agrees : Scan → Section → List (Stmt V) → Prop
  | st, sec, [] => ∀ k ∈ st.missing, Open d sec k
  | st, sec, s :: rest =>
      StmtAgrees d st sec s ∧ Agrees (s.lines.foldl Scan.next st) (sec.next s.meaning) rest

/-- Without a line `[psi]` the table is new to TOML too. -/
def Absent (stmts : List (Stmt V)) : Prop :=
  Untaken psiName .root (meanings stmts) ∧ ∀ k, (d (keyLoc k)).isNone = true

/-- TOML sees the lines that matter as the scanner does. -/
def SeesAlike (stmts : List (Stmt V)) : Prop :=
  if hasPsi (linesOf stmts) then Agrees d .start .root stmts else Absent d stmts

instance (sec : Section) (k : PsiKey) : Decidable (Open d sec k) :=
  inferInstanceAs (Decidable (_ ∧ _))

instance (st : Scan) (sec : Section) (m : Meaning V) (line : List Char)
    (more : List (List Char)) : Decidable (FirstAgrees d st sec m line more) :=
  match h : action st line with
  | .header _ => decidable_of_iff (_ ∧ _) (by rw [FirstAgrees, h])
  | .replace _ => decidable_of_iff (_ ∧ _) (by rw [FirstAgrees, h])
  | .keep => isTrue (by rw [FirstAgrees, h]; trivial)

instance decidableMoreAgree : ∀ (st : Scan) (ls : List (List Char)), Decidable (MoreAgree st ls)
  | _, [] => inferInstanceAs (Decidable True)
  | st, line :: rest =>
      have := decidableMoreAgree (st.next line) rest
      match h : action st line with
      | .header _ => decidable_of_iff ((_ ∧ _) ∧ _) (by rw [MoreAgree, h])
      | .replace _ => isFalse (by rw [MoreAgree, h]; exact fun hBoth => hBoth.1)
      | .keep => decidable_of_iff _ (by rw [MoreAgree, h, true_and])

instance (st : Scan) (sec : Section) (s : Stmt V) : Decidable (StmtAgrees d st sec s) :=
  match h : s.lines with
  | [] => isTrue (by rw [StmtAgrees, h]; trivial)
  | _ :: _ => decidable_of_iff (_ ∧ _) (by rw [StmtAgrees, h])

instance decidableAgrees : ∀ (st : Scan) (sec : Section) (stmts : List (Stmt V)),
    Decidable (Agrees d st sec stmts)
  | st, sec, [] => inferInstanceAs (Decidable (∀ k ∈ st.missing, Open d sec k))
  | st, sec, s :: rest =>
      have := decidableAgrees (s.lines.foldl Scan.next st) (sec.next s.meaning) rest
      inferInstanceAs (Decidable (_ ∧ _))

instance (stmts : List (Stmt V)) : Decidable (Absent d stmts) :=
  decidable_of_iff
    (Untaken psiName .root (meanings stmts) ∧ (d (keyLoc .elevated)).isNone = true ∧
      (d (keyLoc .fullCritical)).isNone = true)
    (and_congr_right fun _ =>
      ⟨fun h k => by cases k; exacts [h.1, h.2], fun h => ⟨h .elevated, h .fullCritical⟩⟩)

instance (stmts : List (Stmt V)) : Decidable (SeesAlike d stmts) :=
  inferInstanceAs (Decidable
    (if hasPsi (linesOf stmts) then Agrees d .start .root stmts else Absent d stmts))

end Agreement

/-- The patched document has the thresholds, and all else as it was. -/
structure Patched {V : Type} (P : Parser V) (values : Values) (d d' : Doc V) : Prop where
  written : ∀ k, ∃ v, readBack P (values k) = some v ∧ d' (keyLoc k) = some (.value v)
  others : ∀ loc v, (∀ k, loc ≠ keyLoc k) →
    (d' loc = some (.value v) ↔ d loc = some (.value v))

end Mgd.PsiPatch
