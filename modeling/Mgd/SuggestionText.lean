import Mgd.Calibration
import Mgd.Lib.TomlLines
import Mgd.PressureText

/-!
# The suggestion on its way to the configuration

The thresholds that calibration suggests are valid, and whole numbers.  Their
file is read twice: by `mgctl calibrate --passive-apply`, line by line, and by
the daemon, as TOML.  `suggestion_survives` is about both.
-/

namespace Mgd.SuggestionText

open Mgd.Lib.Text Mgd.Lib.TomlLines Mgd.Config.Loading Mgd.Engine.Calibrate

/-! ## Its thresholds -/

/-- The five thresholds of a suggestion. -/
def thresholds (s : Suggestion) : PsiThresholds where
  elevatedPct := .finite s.elevatedPct
  highPct := .finite s.highPct
  criticalPct := .finite s.criticalPct
  emergencyPct := .finite s.emergencyPct
  fullCriticalPct := .finite s.fullCriticalPct

/-- The upper tiers keep the default ratios as far as the order allows. -/
structure Scaled (s : Suggestion) : Prop where
  emergency : s.emergencyPct = min (70 * (s.elevatedPct / 5)) 100
  critical : s.criticalPct = min (50 * (s.elevatedPct / 5)) (s.emergencyPct - 1)
  high : s.highPct = min (25 * (s.elevatedPct / 5)) (s.criticalPct - 1)

/-- The two live thresholds are edges of bins, or bounds of their ranges. -/
structure Whole (s : Suggestion) : Prop where
  elevated : ∃ n : Nat, s.elevatedPct = n
  fullCritical : ∃ n : Nat, s.fullCriticalPct = n

theorem percentile_whole (hist : List Nat) (pct : ℚ) (n : Nat) :
    ∃ k : Nat, (percentile hist pct).getD (n : ℚ) = k := by
  unfold percentile
  split
  · exact ⟨n, rfl⟩
  · exact ⟨_, rfl⟩

theorem clamp_whole (lo hi n : Nat) : clamp lo hi (n : ℚ) = (max lo (min hi n) : Nat) := by
  unfold clamp
  push_cast
  rfl

theorem suggestedElevated_whole (p95 p10 : Nat) :
    ∃ k : Nat, suggestedElevated (p95 : ℚ) (p10 : ℚ) = k := by
  have hClamp := clamp_whole 2 15 (p95 + 2)
  push_cast at hClamp
  unfold suggestedElevated elevatedMarginPct
  dsimp only
  split
  · exact ⟨max p10 2, by push_cast; rfl⟩
  · exact ⟨max 2 (min 15 (p95 + 2)), by rw [hClamp]; push_cast; rfl⟩

theorem suggest_scaled {c : Calibrator} {s : Suggestion} (h : c.suggest = some s) : Scaled s := by
  unfold Calibrator.suggest at h
  dsimp only at h
  split at h
  · cases h
  · cases h
    exact ⟨rfl, rfl, rfl⟩

theorem suggest_whole {c : Calibrator} {s : Suggestion} (h : c.suggest = some s) : Whole s := by
  unfold Calibrator.suggest at h
  dsimp only at h
  split at h
  · cases h
  · cases h
    obtain ⟨p95, hP95⟩ := percentile_whole c.state.benignSecs 95 0
    obtain ⟨p10, hP10⟩ := percentile_whole c.state.stallSecs 10 100
    obtain ⟨full, hFull⟩ := percentile_whole c.state.fullSecs 95 20
    push_cast at hP95 hP10 hFull
    constructor
    · rw [hP95, hP10]
      exact suggestedElevated_whole p95 p10
    · rw [hFull]
      exact ⟨_, clamp_whole 5 50 full⟩

/-- **Suggested thresholds are valid.** -/
theorem thresholds_valid {c : Calibrator} {s : Suggestion} (h : c.suggest = some s) :
    (thresholds s).valid = true := by
  obtain ⟨⟨hLow, hTop⟩, hFull, -⟩ := suggest_bounds h
  obtain ⟨hEmergency, hCritical, hHigh⟩ := suggest_scaled h
  have hEmergencyAbove : s.elevatedPct + 2 < s.emergencyPct := by
    rw [hEmergency]
    apply lt_min <;> linarith
  have hCriticalAbove : s.elevatedPct + 1 < s.criticalPct := by
    rw [hCritical]
    apply lt_min <;> linarith
  have hHighAbove : s.elevatedPct < s.highPct := by
    rw [hHigh]
    apply lt_min <;> linarith
  have hHighBelow : s.highPct ≤ s.criticalPct - 1 := by
    rw [hHigh]
    exact min_le_right _ _
  have hCriticalBelow : s.criticalPct ≤ s.emergencyPct - 1 := by
    rw [hCritical]
    exact min_le_right _ _
  have hEmergencyBelow : s.emergencyPct ≤ 100 := by
    rw [hEmergency]
    exact min_le_right _ _
  show (decide ((0 : ℚ) < s.elevatedPct) && decide (s.elevatedPct < s.highPct) &&
    decide (s.highPct < s.criticalPct) && decide (s.criticalPct < s.emergencyPct) &&
    decide (s.emergencyPct ≤ 100) && decide ((0 : ℚ) < s.fullCriticalPct)) = true
  simp only [Bool.and_eq_true, decide_eq_true_eq]
  exact ⟨⟨⟨⟨⟨by linarith, hHighAbove⟩, by linarith⟩, by linarith⟩, hEmergencyBelow⟩, by linarith⟩

/-! ## Its text -/

/-- One decimal of a whole number. -/
theorem fixed1_whole (n : Nat) : fixed1 (n : ℚ) = toString n ++ "." ++ toString 0 := by
  have hScaled : |(n : ℚ)| * 10 = (n * 10 : Nat) := by
    rw [abs_of_nonneg (Nat.cast_nonneg n)]
    push_cast
    rfl
  have hDown : ⌊((n * 10 : Nat) : ℚ)⌋.toNat = n * 10 := by
    rw [Int.floor_natCast]
    rfl
  unfold fixed1
  dsimp only
  rw [hScaled, hDown, sub_self, if_neg (not_lt.mpr (Nat.cast_nonneg n)),
    if_pos (by decide +kernel), Nat.mul_div_cancel n (by decide), Nat.mul_mod_left]
  simp

/-- A comment line in pieces. -/
def remark (start : String) (middle : List String) (stop : String) : Line :=
  .comment (start.toList ++ (middle.flatMap String.toList ++ stop.toList))

/-- The line of a live threshold. -/
def thresholdLine (key : String) (pad : Nat) (value : ℚ) (current : F64) : Line :=
  .float key.toList pad (toString ⌊value⌋.toNat).toList ['0'] 4
    (" current: ".toList ++ (F64.fixed1 current).toList)

/-- The commented-out line of an upper tier. -/
def tierLine (key : String) (value : ℚ) (current : F64) : Line :=
  remark key [fixed1 value, "    # current: ", F64.fixed1 current] ""

/-- The text as TOML lines. -/
def suggestionDoc (s : Suggestion) (current : PsiThresholds) (generatedUnixSecs : Nat) :
    List Line :=
  [remark " Generated by mgd passive calibration (unix time " [toString generatedUnixSecs] ")",
    remark " Observed: " [fixed1 s.observedHours, "h of untreated pressure, ",
      toString s.stallEvents] " stall episodes.",
    remark "   benign some_avg10 p95 (noise ceiling) = " [fixed1 s.benignP95] "%",
    remark "   stall-onset some_avg10 p10            = " [fixed1 s.stallOnsetP10] "%",
    .comment [],
    remark " Review, then paste into ~/.config/mgd/priorities.toml and run: mgctl reload" [] "",
    remark " (elevated_pct also re-arms the kernel trigger on daemon restart only.)" [] "",
    .blank,
    .table "psi".toList,
    thresholdLine "elevated_pct" 6 s.elevatedPct current.elevatedPct,
    thresholdLine "full_critical_pct" 1 s.fullCriticalPct current.fullCriticalPct,
    .blank,
    remark " Upper tiers scaled from elevated_pct by the default ratios. Passive" [] "",
    remark " observation can't validate them (the daemon's own interventions cap" [] "",
    remark " how high pressure climbs) — uncomment only if you trust the scaling." [] "",
    tierLine "high_pct      = " s.highPct current.highPct,
    tierLine "critical_pct  = " s.criticalPct current.criticalPct,
    tierLine "emergency_pct = " s.emergencyPct current.emergencyPct]

theorem fixed1_of_whole {q : ℚ} (h : ∃ n : Nat, q = n) :
    fixed1 q = toString ⌊q⌋.toNat ++ "." ++ toString 0 := by
  obtain ⟨n, rfl⟩ := h
  have hFloor : ⌊(n : ℚ)⌋.toNat = n := by
    rw [Int.floor_natCast]
    rfl
  rw [hFloor, fixed1_whole]

/-- A line that is written in pieces, and the text after it. -/
theorem toList_line (pieces : List String) {l : Line} {rest : String} {doc : List Line}
    (hLine : pieces.flatMap String.toList = l.text ++ ['\n']) (hRest : rest.toList = text doc) :
    (pieces.foldr (· ++ ·) rest).toList = text (l :: doc) := by
  have hPieces : (pieces.foldr (· ++ ·) rest).toList =
      pieces.flatMap String.toList ++ rest.toList := by
    clear hLine
    induction pieces with
    | nil => rfl
    | cons piece pieces ih =>
        rw [List.foldr_cons, String.toList_append, ih, List.flatMap_cons, List.append_assoc]
  rw [hPieces, hLine, hRest]
  rfl

/-- A comment line with its mark and its line break in the outer pieces. -/
theorem toList_remark {a b start stop : String} (middle : List String)
    (hStart : a = "#" ++ start) (hStop : b = stop ++ "\n") {rest : String} {doc : List Line}
    (hRest : rest.toList = text doc) :
    (a ++ middle.foldr (· ++ ·) (b ++ rest)).toList = text (remark start middle stop :: doc) := by
  have hPieces : (a :: (middle ++ [b])).flatMap String.toList =
      (remark start middle stop).text ++ ['\n'] := by
    rw [hStart, hStop, List.flatMap_cons, List.flatMap_append]
    simp [remark, Line.text]
  have hLine := toList_line (a :: (middle ++ [b])) hPieces hRest
  rw [List.foldr_cons, List.foldr_append] at hLine
  exact hLine

/-- A comment line that is one piece. -/
theorem toList_remark_whole {a t : String} (h : a = "#" ++ t ++ "\n") {rest : String}
    {doc : List Line} (hRest : rest.toList = text doc) :
    (a ++ rest).toList = text (remark t [] "" :: doc) := by
  refine toList_line [a] ?_ hRest
  rw [h]
  simp [remark, Line.text]

/-- **The rendered text is that of its lines.** -/
theorem renderSuggestion_toList {s : Suggestion} (h : Whole s) (current : PsiThresholds)
    (now : Nat) : (renderSuggestion s current now).toList = text (suggestionDoc s current now) := by
  have hElevated := fixed1_of_whole h.elevated
  have hFull := fixed1_of_whole h.fullCritical
  unfold renderSuggestion suggestionDoc
  rw [← String.append_empty (s := _ ++ "\n")]
  simp only [String.append_assoc]
  refine toList_remark [_] (by decide) (by decide) ?_
  refine toList_remark [_, _, _] (by decide) (by decide) ?_
  refine toList_remark [_] (by decide) (by decide) ?_
  refine toList_remark [_] (by decide) (by decide) ?_
  refine toList_line [_] (by simp [Line.text]) ?_
  refine toList_remark_whole (by decide) ?_
  refine toList_remark_whole (by decide) ?_
  refine toList_line [_] (by simp [Line.text]) ?_
  refine toList_line [_] (by simp [Line.text]) ?_
  refine toList_line [_, _, _, _, _]
    (by rw [hElevated]; simp [thresholdLine, Line.text, List.replicate]) ?_
  refine toList_line [_, _, _, _, _]
    (by rw [hFull]; simp [thresholdLine, Line.text, List.replicate]) ?_
  refine toList_line [_] (by simp [Line.text]) ?_
  refine toList_remark_whole (by decide) ?_
  refine toList_remark_whole (by decide) ?_
  refine toList_remark_whole (by decide) ?_
  refine toList_remark [_, _, _] (by decide) (by decide) ?_
  refine toList_remark [_, _, _] (by decide) (by decide) ?_
  exact toList_remark [_, _, _] (by decide) (by decide) rfl

theorem elevatedKey : ∃ tail, "elevated_pct".toList = 'e' :: tail := ⟨_, String.toList_ofList⟩

theorem fullCriticalKey : ∃ tail, "full_critical_pct".toList = 'f' :: tail :=
  ⟨_, String.toList_ofList⟩

theorem keys_distinct : "full_critical_pct".toList ≠ "elevated_pct".toList := by
  obtain ⟨eTail, hElevatedKey⟩ := elevatedKey
  obtain ⟨fTail, hFullKey⟩ := fullCriticalKey
  rw [hElevatedKey, hFullKey]
  simp

/-! ## What TOML makes of it -/

def CommentText (t : String) : Prop := ∀ c ∈ t.toList, isCommentChar c = true

theorem commentText_ofList (cs : List Char) (h : cs.all isCommentChar = true) :
    CommentText (String.ofList cs) := by
  intro c hc
  rw [String.toList_ofList] at hc
  exact List.all_eq_true.mp h c hc

theorem CommentText.append {a b : String} (ha : CommentText a) (hb : CommentText b) :
    CommentText (a ++ b) := by
  intro c hc
  rw [String.toList_append] at hc
  cases List.mem_append.mp hc with
  | inl hIn => exact ha c hIn
  | inr hIn => exact hb c hIn

theorem code_of_mem_toString {n : Nat} {c : Char} (hc : c ∈ (toString n).toList) :
    48 ≤ c.toNat ∧ c.toNat ≤ 57 := by
  have hDigit : c.isDigit = true := by
    apply Nat.isDigit_of_mem_toDigits (b := 10) (n := n) (by decide) (by decide)
    simpa using hc
  unfold Char.isDigit at hDigit
  simp only [Bool.and_eq_true, decide_eq_true_eq] at hDigit
  exact hDigit

theorem commentText_nat (n : Nat) : CommentText (toString n) := by
  intro c hc
  obtain ⟨hLow, hHigh⟩ := code_of_mem_toString hc
  unfold isCommentChar
  simp only [Bool.or_eq_true, Bool.and_eq_true, decide_eq_true_eq, bne_iff_ne]
  right
  constructor <;> omega

theorem commentText_fixed1 (q : ℚ) : CommentText (fixed1 q) := by
  have hSign : CommentText (if q < 0 then "-" else "") := by
    split
    · exact commentText_ofList ['-'] (by decide)
    · exact commentText_ofList [] (by decide)
  have hPoint : CommentText "." := commentText_ofList ['.'] (by decide)
  unfold fixed1
  dsimp only
  exact ((hSign.append (commentText_nat _)).append hPoint).append (commentText_nat _)

theorem commentText_f64 (x : F64) : CommentText (F64.fixed1 x) := by
  cases x with
  | nan => exact commentText_ofList _ (by decide)
  | negInf => exact commentText_ofList _ (by decide)
  | finite q => exact commentText_fixed1 q
  | posInf => exact commentText_ofList _ (by decide)

theorem commentText_empty : CommentText "" := commentText_ofList [] rfl

theorem remark_wellFormed {start stop : String} {middle : List String} (hStart : CommentText start)
    (hMiddle : ∀ m ∈ middle, CommentText m) (hStop : CommentText stop) :
    (remark start middle stop).WellFormed := by
  intro c hc
  cases List.mem_append.mp hc with
  | inl hIn => exact hStart c hIn
  | inr hIn =>
      cases List.mem_append.mp hIn with
      | inl hIn =>
          obtain ⟨m, hm, hcm⟩ := List.mem_flatMap.mp hIn
          exact hMiddle m hm c hcm
      | inr hIn => exact hStop c hIn

theorem remark_whole_wellFormed {cs : List Char} (h : cs.all isCommentChar = true) :
    (remark (String.ofList cs) [] "").WellFormed :=
  remark_wellFormed (commentText_ofList _ h) (by simp) commentText_empty

theorem tierLine_wellFormed {key : List Char} (h : key.all isCommentChar = true) (value : ℚ)
    (current : F64) : (tierLine (String.ofList key) value current).WellFormed := by
  refine remark_wellFormed (commentText_ofList _ h) ?_ commentText_empty
  simp only [List.forall_mem_cons, List.not_mem_nil, IsEmpty.forall_iff, implies_true, and_true]
  exact ⟨commentText_fixed1 value, commentText_ofList _ (by decide),
    commentText_f64 current⟩

/-- What the two readers do with the decimals of a threshold. -/
theorem decimals : ∀ n : Nat, n < 51 → ((toString n).toList.all isAsciiDigit = true ∧
    (toString n).toList ≠ [] ∧
    ((toString n).toList.head? = some '0' → (toString n).toList = ['0'])) ∧
    floatValue (toString n).toList ['0'] = (n : ℚ) ∧
    PressureText.parseF64 ((toString n).toList ++ ['.', '0']) = some (.finite (n : ℚ)) := by
  decide +kernel

/-- The bounds of both thresholds, for both. -/
theorem exists_lt_of_suggest {c : Calibrator} {s : Suggestion} (h : c.suggest = some s) :
    ∃ e f : Nat, (s.elevatedPct = e ∧ e < 51) ∧ s.fullCriticalPct = f ∧ f < 51 := by
  obtain ⟨⟨e, he⟩, f, hf⟩ := suggest_whole h
  obtain ⟨⟨-, hTop⟩, -, hFull⟩ := suggest_bounds h
  rw [he] at hTop
  rw [hf] at hFull
  have hElevated : e ≤ 15 := by exact_mod_cast hTop
  have hFullCritical : f ≤ 50 := by exact_mod_cast hFull
  exact ⟨e, f, ⟨he, by omega⟩, hf, by omega⟩

/-- The digits behind the point. -/
theorem zeroTenths : ['0'] ≠ [] ∧ ∀ c ∈ ['0'], isAsciiDigit c = true :=
  ⟨List.cons_ne_nil _ _, List.all_eq_true.mp (by decide)⟩

theorem thresholdLine_wellFormed {key : List Char} (hKey : key ≠ [])
    (hBare : key.all isBareKeyChar = true) (pad : Nat) {n : Nat} (hn : n < 51) (current : F64) :
    (thresholdLine (String.ofList key) pad n current).WellFormed := by
  obtain ⟨⟨hDigits, hNonempty, hZero⟩, -⟩ := decimals n hn
  have hFloor : ⌊(n : ℚ)⌋.toNat = n := by
    rw [Int.floor_natCast]
    rfl
  unfold thresholdLine
  rw [hFloor, String.toList_ofList]
  refine ⟨⟨hKey, List.all_eq_true.mp hBare⟩, ⟨hNonempty, List.all_eq_true.mp hDigits, hZero⟩,
    zeroTenths, ?_⟩
  intro c hc
  cases List.mem_append.mp hc with
  | inl hIn => exact commentText_ofList _ (by decide) c hIn
  | inr hIn => exact commentText_f64 current c hIn

theorem suggestionDoc_entries {s : Suggestion} {e f : Nat} (he : s.elevatedPct = e ∧ e < 51)
    (hf : s.fullCriticalPct = f ∧ f < 51) (current : PsiThresholds) (now : Nat) :
    entries [] (suggestionDoc s current now) =
      [(("psi".toList, "elevated_pct".toList), (e : ℚ)),
        (("psi".toList, "full_critical_pct".toList), (f : ℚ))] := by
  have hFloor : ∀ n : Nat, ⌊(n : ℚ)⌋.toNat = n := by
    intro n
    rw [Int.floor_natCast]
    rfl
  show [_, _] = [_, _]
  rw [he.1, hf.1, hFloor, hFloor, (decimals e he.2).2.1, (decimals f hf.2).2.1]

theorem suggestionDoc_valueAt {s : Suggestion} {e f : Nat} (he : s.elevatedPct = e ∧ e < 51)
    (hf : s.fullCriticalPct = f ∧ f < 51) (current : PsiThresholds) (now : Nat) :
    valueAt (suggestionDoc s current now) "psi".toList "elevated_pct".toList =
        some s.elevatedPct ∧
      valueAt (suggestionDoc s current now) "psi".toList "full_critical_pct".toList =
        some s.fullCriticalPct := by
  have hOther : (("psi".toList, "full_critical_pct".toList) ==
      ("psi".toList, "elevated_pct".toList)) = false := by
    rw [beq_eq_false_iff_ne]
    exact fun hSame => keys_distinct (congrArg Prod.snd hSame)
  unfold valueAt
  rw [suggestionDoc_entries he hf, he.1, hf.1]
  constructor
  · exact List.lookup_cons_self
  · rw [List.lookup_cons, hOther]
    exact List.lookup_cons_self

theorem suggestionDoc_wellFormed {s : Suggestion} {e f : Nat} (he : s.elevatedPct = e ∧ e < 51)
    (hf : s.fullCriticalPct = f ∧ f < 51) (current : PsiThresholds) (now : Nat) :
    WellFormed (suggestionDoc s current now) := by
  have hEntries := suggestionDoc_entries he hf current now
  have hKeys : ([("psi".toList, "elevated_pct".toList),
      ("psi".toList, "full_critical_pct".toList)] : List Key).Nodup := by
    simp [-String.reduceToList, keys_distinct.symm]
  have hOne : ∀ m t : String, CommentText t → m ∈ [t] → CommentText m := by
    intro m t ht hm
    rw [List.mem_singleton.mp hm]
    exact ht
  have hPercent : CommentText "%" := commentText_ofList _ (by decide)
  have hLines : ∀ l ∈ suggestionDoc s current now, l.WellFormed := by
    unfold suggestionDoc
    rw [he.1, hf.1]
    simp only [List.forall_mem_cons, List.not_mem_nil, IsEmpty.forall_iff, implies_true, and_true]
    refine ⟨?_, ?_, ?_, ?_, ?_, remark_whole_wellFormed (by decide),
      remark_whole_wellFormed (by decide), trivial, ?_,
      thresholdLine_wellFormed (by decide) (by decide) 6 he.2 _,
      thresholdLine_wellFormed (by decide) (by decide) 1 hf.2 _, trivial,
      remark_whole_wellFormed (by decide), remark_whole_wellFormed (by decide),
      remark_whole_wellFormed (by decide), tierLine_wellFormed (by decide) _ _,
      tierLine_wellFormed (by decide) _ _, tierLine_wellFormed (by decide) _ _⟩
    · exact remark_wellFormed (commentText_ofList _ (by decide))
        (fun m hm => hOne m _ (commentText_nat now) hm) (commentText_ofList _ (by decide))
    · refine remark_wellFormed (commentText_ofList _ (by decide)) ?_
        (commentText_ofList _ (by decide))
      simp only [List.forall_mem_cons, List.not_mem_nil, IsEmpty.forall_iff, implies_true, and_true]
      exact ⟨commentText_fixed1 _, commentText_ofList _ (by decide), commentText_nat _⟩
    · exact remark_wellFormed (commentText_ofList _ (by decide))
        (fun m hm => hOne m _ (commentText_fixed1 _) hm) hPercent
    · exact remark_wellFormed (commentText_ofList _ (by decide))
        (fun m hm => hOne m _ (commentText_fixed1 _) hm) hPercent
    · exact fun c hc => absurd hc List.not_mem_nil
    · exact ⟨by decide, List.all_eq_true.mp (by decide)⟩
  constructor
  · exact hLines
  · exact List.nodup_cons.mpr ⟨List.not_mem_nil, List.nodup_nil⟩
  · rw [hEntries]
    exact hKeys
  · rw [hEntries]
    intro x hx hRoot
    cases List.mem_cons.mp hx with
    | inl hIs => rw [hIs] at hRoot; cases hRoot
    | inr hIn => rw [List.mem_singleton.mp hIn] at hRoot; cases hRoot

/-- A document for the suggestion's struct: its floats are whole numbers, so that
no parser rounds them, and `psi` is no float. -/
structure Suggests (doc : List Line) : Prop where
  wellFormed : WellFormed doc
  whole : ∀ e ∈ entries [] doc, ∃ n : Nat, n < 2 ^ 53 ∧ e.2 = n
  psi : ∀ e ∈ entries [] doc, e.1 ≠ ([], "psi".toList)

/-- The parser follows TOML on such documents: a missing key is `None`, and other
tables and keys are ignored. -/
def ReadsLines (toml : Toml) : Prop :=
  ∀ doc, Suggests doc → toml.suggestion (String.ofList (text doc)) =
    some ⟨(valueAt doc "psi".toList "elevated_pct".toList).map .finite,
      (valueAt doc "psi".toList "full_critical_pct".toList).map .finite⟩

theorem suggestionDoc_suggests {s : Suggestion} {e f : Nat} (he : s.elevatedPct = e ∧ e < 51)
    (hf : s.fullCriticalPct = f ∧ f < 51) (current : PsiThresholds) (now : Nat) :
    Suggests (suggestionDoc s current now) := by
  have hEntries := suggestionDoc_entries he hf current now
  have hBelow : (51 : Nat) ≤ 2 ^ 53 := by decide
  constructor
  · exact suggestionDoc_wellFormed he hf current now
  · rw [hEntries]
    simp only [List.forall_mem_cons, List.not_mem_nil, IsEmpty.forall_iff, implies_true, and_true]
    exact ⟨⟨e, lt_of_lt_of_le he.2 hBelow, rfl⟩, f, lt_of_lt_of_le hf.2 hBelow, rfl⟩
  · rw [hEntries]
    simp only [List.forall_mem_cons, List.not_mem_nil, IsEmpty.forall_iff, implies_true, and_true]
    exact ⟨fun hIs => (by cases hIs), fun hIs => (by cases hIs)⟩

/-! ## What `mgctl` makes of it -/

/-- One line of `suggestion_value`. -/
def lineValue (key line : List Char) : Option F64 :=
  let line := trim line
  if line.head? = some '#' then none
  else
    match stripPrefix key line with
    | none => none
    | some rest =>
        match rest.dropWhile isWhitespace with
        | '=' :: val => PressureText.parseF64 (trim (val.takeWhile fun c => c != '#'))
        | _ => none

/-- The first `key = <number>` that is not commented out. -/
def suggestionValue (data key : List Char) : Option F64 := (lines data).findSome? (lineValue key)

/-- The first value of the lines. -/
def firstValue (key : List Char) (doc : List Line) : Option F64 :=
  doc.findSome? fun l => lineValue key l.text

theorem suggestionValue_text {doc : List Line} (h : WellFormed doc) (key : List Char) :
    suggestionValue (text doc) key = firstValue key doc := by
  unfold suggestionValue
  rw [lines_text h.lines, List.findSome?_map]
  rfl

theorem lineValue_comment (key t : List Char) : lineValue key (Line.comment t).text = none := by
  have hStop : ∀ c ∈ ['#'].head?, isWhitespace c = false := stop_cons (by decide) []
  have hTrim := @trim_append ['#'] (by decide) hStop hStop t
  unfold lineValue
  show (if (trim (['#'] ++ t)).head? = some '#' then none else _) = none
  rw [hTrim]
  rfl

/-- White space at the end of a comment is no part of it. -/
theorem trim_float {key : List Char} (hKey : key ≠ [])
    (hFirst : ∀ c ∈ key.head?, isWhitespace c = false) (pad : Nat) (whole frac : List Char)
    (gap : Nat) (remark : List Char) : ∃ kept,
      trim (Line.float key pad whole frac gap remark).text =
        (Line.float key pad whole frac gap kept).text := by
  obtain ⟨first, tail, rfl⟩ := List.exists_cons_of_ne_nil hKey
  have hSplit : ∀ stop : List Char, (Line.float (first :: tail) pad whole frac gap stop).text =
      (first :: (tail ++ (List.replicate pad ' ' ++ '=' :: ' ' ::
        (whole ++ '.' :: frac ++ List.replicate gap ' ')) ++ ['#'])) ++ stop := by
    intro stop
    simp [Line.text]
  refine ⟨(remark.reverse.dropWhile isWhitespace).reverse, ?_⟩
  rw [hSplit, hSplit]
  refine trim_append (List.cons_ne_nil first _) (by exact hFirst) ?_ remark
  rw [← List.cons_append, List.getLast?_concat]
  intro c hc
  cases hc
  decide

/-- **The line of a key**: its value is the decimal between `=` and `#`. -/
theorem lineValue_float {first : Char} {tail whole frac : List Char}
    (hFirst : isWhitespace first = false) (hNotHash : first ≠ '#')
    (hWhole : ∀ c ∈ whole, isAsciiDigit c = true) (hFrac : ∀ c ∈ frac, isAsciiDigit c = true)
    (pad gap : Nat) (remark : List Char) :
    lineValue (first :: tail) (Line.float (first :: tail) pad whole frac gap remark).text =
      PressureText.parseF64 (whole ++ '.' :: frac) := by
  obtain ⟨kept, hTrim⟩ := trim_float (List.cons_ne_nil first tail)
    (by intro c hc; cases hc; exact hFirst) pad whole frac gap remark
  have hPrefix : stripPrefix (first :: tail)
      (Line.float (first :: tail) pad whole frac gap kept).text =
        some (List.replicate pad ' ' ++ '=' :: ' ' ::
          (whole ++ '.' :: frac ++ (List.replicate gap ' ' ++ '#' :: kept))) :=
    stripPrefix_eq_some_iff.mpr rfl
  have hEquals : (List.replicate pad ' ' ++ '=' :: ' ' ::
      (whole ++ '.' :: frac ++ (List.replicate gap ' ' ++ '#' :: kept))).dropWhile isWhitespace =
        '=' :: ' ' :: (whole ++ '.' :: frac ++ (List.replicate gap ' ' ++ '#' :: kept)) := by
    rw [List.dropWhile_append_of_pos (fun c hc => by rw [List.eq_of_mem_replicate hc]; decide)]
    rfl
  have hNumber : ∀ c ∈ whole ++ '.' :: frac, isAsciiDigit c = true ∨ c = '.' := by
    intro c hc
    cases List.mem_append.mp hc with
    | inl hIn => exact Or.inl (hWhole c hIn)
    | inr hIn =>
        cases List.mem_cons.mp hIn with
        | inl hPoint => exact Or.inr hPoint
        | inr hIn => exact Or.inl (hFrac c hIn)
  have hValue : (' ' :: (whole ++ '.' :: frac ++
      (List.replicate gap ' ' ++ '#' :: kept))).takeWhile (fun c => c != '#') =
        ' ' :: (whole ++ '.' :: frac ++ List.replicate gap ' ') := by
    rw [← List.append_assoc (whole ++ '.' :: frac), ← List.cons_append]
    apply (takeWhile_append_stop _ (stop_cons rfl _)).1
    intro c hc
    rw [bne_iff_ne]
    cases List.mem_cons.mp hc with
    | inl hSpace => rw [hSpace]; decide
    | inr hIn =>
        cases List.mem_append.mp hIn with
        | inl hIn =>
            cases hNumber c hIn with
            | inl hDigit => exact ne_of_digit hDigit (by decide)
            | inr hPoint => rw [hPoint]; decide
        | inr hIn => rw [List.eq_of_mem_replicate hIn]; decide
  have hWord : ∀ c ∈ whole ++ '.' :: frac, isWhitespace c = false := by
    intro c hc
    cases hNumber c hc with
    | inl hDigit => exact not_space_of_digit hDigit
    | inr hPoint => rw [hPoint]; decide
  unfold lineValue
  dsimp only
  rw [hTrim, if_neg (by intro hHash; injection hHash with hHash; exact hNotHash hHash), hPrefix]
  dsimp only
  rw [hEquals]
  show PressureText.parseF64 (trim (List.takeWhile _ _)) = _
  rw [hValue, trim_cons_space (by decide), trim_append_spaces, trim_word hWord]

/-- The line of another key. -/
theorem lineValue_other {first first' : Char} (hDiffer : first ≠ first')
    (hFirst : isWhitespace first' = false) (key tail : List Char) (pad : Nat)
    (whole frac : List Char) (gap : Nat) (remark : List Char) :
    lineValue (first :: key) (Line.float (first' :: tail) pad whole frac gap remark).text =
      none := by
  obtain ⟨kept, hTrim⟩ := trim_float (List.cons_ne_nil first' tail)
    (by intro c hc; cases hc; exact hFirst) pad whole frac gap remark
  have hPrefix : stripPrefix (first :: key)
      (Line.float (first' :: tail) pad whole frac gap kept).text = none := if_neg hDiffer
  unfold lineValue
  dsimp only
  rw [hTrim, hPrefix]
  split <;> rfl

theorem lineValue_remark (key : List Char) (start : String) (middle : List String)
    (stop : String) : lineValue key (remark start middle stop).text = none :=
  lineValue_comment key _

theorem firstValue_cons (key : List Char) (l : Line) (doc : List Line) :
    firstValue key (l :: doc) = (lineValue key l.text).or (firstValue key doc) := by
  unfold firstValue
  rw [List.findSome?_cons]
  cases lineValue key l.text with
  | none => rfl
  | some b => rfl

theorem firstValue_skip {key : List Char} {l : Line} (h : lineValue key l.text = none)
    {doc : List Line} {r : Option F64} (hRest : firstValue key doc = r) :
    firstValue key (l :: doc) = r := by
  rw [firstValue_cons, h, hRest]
  rfl

/-- Only the lines of the live thresholds say something. -/
theorem firstValue_suggestionDoc (s : Suggestion) (current : PsiThresholds) (now : Nat)
    {key : List Char} (hBlank : lineValue key Line.blank.text = none)
    (hTable : lineValue key (Line.table "psi".toList).text = none) :
    firstValue key (suggestionDoc s current now) =
      (lineValue key (thresholdLine "elevated_pct" 6 s.elevatedPct current.elevatedPct).text).or
        (lineValue key (thresholdLine "full_critical_pct" 1 s.fullCriticalPct
          current.fullCriticalPct).text) := by
  have hRemark := lineValue_remark key
  have hTier : ∀ (tier : String) (value : ℚ) (x : F64),
      lineValue key (tierLine tier value x).text = none := fun _ _ _ => hRemark _ _ _
  unfold suggestionDoc
  refine firstValue_skip (hRemark _ _ _) (firstValue_skip (hRemark _ _ _) ?_)
  refine firstValue_skip (hRemark _ _ _) (firstValue_skip (hRemark _ _ _) ?_)
  refine firstValue_skip (lineValue_comment key _) (firstValue_skip (hRemark _ _ _) ?_)
  refine firstValue_skip (hRemark _ _ _) (firstValue_skip hBlank (firstValue_skip hTable ?_))
  rw [firstValue_cons, firstValue_cons]
  have hNone : ∀ doc, firstValue key doc = none → ∀ x y : Option F64,
      x.or (y.or (firstValue key doc)) = x.or y := by
    intro doc hDoc x y
    rw [hDoc, Option.or_none]
  apply hNone
  refine firstValue_skip hBlank (firstValue_skip (hRemark _ _ _) ?_)
  refine firstValue_skip (hRemark _ _ _) (firstValue_skip (hRemark _ _ _) ?_)
  refine firstValue_skip (hTier _ _ _) (firstValue_skip (hTier _ _ _) ?_)
  exact firstValue_skip (hTier _ _ _) rfl

theorem lineValue_threshold {n : Nat} (hn : n < 51) {key : String} {first : Char}
    {tail : List Char} (hKey : key.toList = first :: tail) (hFirst : isWhitespace first = false)
    (hNotHash : first ≠ '#') (pad : Nat) (current : F64) :
    lineValue key.toList (thresholdLine key pad n current).text = some (.finite (n : ℚ)) := by
  obtain ⟨⟨hDigits, -⟩, -, hParse⟩ := decimals n hn
  have hFloor : ⌊(n : ℚ)⌋.toNat = n := by
    rw [Int.floor_natCast]
    rfl
  unfold thresholdLine
  rw [hFloor, hKey, lineValue_float hFirst hNotHash (List.all_eq_true.mp hDigits) zeroTenths.2]
  exact hParse

/-- **`mgctl` reads the live thresholds.** -/
theorem suggestionValue_renderSuggestion {s : Suggestion} {e f : Nat}
    (he : s.elevatedPct = e ∧ e < 51) (hf : s.fullCriticalPct = f ∧ f < 51)
    (current : PsiThresholds) (now : Nat) :
    suggestionValue (renderSuggestion s current now).toList "elevated_pct".toList =
        some (.finite s.elevatedPct) ∧
      suggestionValue (renderSuggestion s current now).toList "full_critical_pct".toList =
        some (.finite s.fullCriticalPct) := by
  have hWhole : Whole s := ⟨⟨e, he.1⟩, f, hf.1⟩
  obtain ⟨eTail, hElevatedKey⟩ := elevatedKey
  obtain ⟨fTail, hFullKey⟩ := fullCriticalKey
  have hElevated := lineValue_threshold he.2 hElevatedKey (by decide) (by decide) 6
    current.elevatedPct
  have hFull := lineValue_threshold hf.2 hFullKey (by decide) (by decide) 1
    current.fullCriticalPct
  have hOther : lineValue "full_critical_pct".toList
      (thresholdLine "elevated_pct" 6 e current.elevatedPct).text = none := by
    unfold thresholdLine
    rw [hElevatedKey, hFullKey]
    exact lineValue_other (by decide) (by decide) _ _ _ _ _ _ _
  rw [renderSuggestion_toList hWhole, suggestionValue_text (suggestionDoc_wellFormed he hf _ _),
    suggestionValue_text (suggestionDoc_wellFormed he hf _ _)]
  constructor
  · rw [firstValue_suggestionDoc s current now (by rw [hElevatedKey]; rfl)
      (by rw [hElevatedKey]; rfl), he.1, hElevated]
    rfl
  · rw [firstValue_suggestionDoc s current now (by rw [hFullKey]; rfl) (by rw [hFullKey]; rfl),
      he.1, hf.1, hOther, hFull]
    rfl

/-- **The daemon reads the live thresholds.** -/
theorem suggestion_renderSuggestion {toml : Toml} (hToml : ReadsLines toml) {c : Calibrator}
    {s : Suggestion} (h : c.suggest = some s) (current : PsiThresholds)
    (generatedUnixSecs : Nat) :
    toml.suggestion (renderSuggestion s current generatedUnixSecs) =
      some ⟨some (.finite s.elevatedPct), some (.finite s.fullCriticalPct)⟩ := by
  obtain ⟨e, f, he, hf⟩ := exists_lt_of_suggest h
  have hText : renderSuggestion s current generatedUnixSecs =
      String.ofList (text (suggestionDoc s current generatedUnixSecs)) := by
    rw [← renderSuggestion_toList (suggest_whole h), String.ofList_toList]
  obtain ⟨hElevated, hFull⟩ := suggestionDoc_valueAt he hf current generatedUnixSecs
  rw [hText, hToml _ (suggestionDoc_suggests he hf current _), hElevated, hFull]
  rfl

/-! ## Both ways -/

/--
**Suggestions are valid and survive the trip to the configuration.**  Whatever
the calibrator suggests has thresholds in order, and from the text it is rendered
to, both `mgctl` and the daemon read its two live thresholds exactly.
-/
theorem suggestion_survives {toml : Toml} (hToml : ReadsLines toml) {c : Calibrator}
    {s : Suggestion} (h : c.suggest = some s) (current : PsiThresholds)
    (generatedUnixSecs : Nat) :
    (thresholds s).valid = true ∧
      (suggestionValue (renderSuggestion s current generatedUnixSecs).toList
          "elevated_pct".toList = some (.finite s.elevatedPct) ∧
        suggestionValue (renderSuggestion s current generatedUnixSecs).toList
          "full_critical_pct".toList = some (.finite s.fullCriticalPct)) ∧
      toml.suggestion (renderSuggestion s current generatedUnixSecs) =
        some ⟨some (.finite s.elevatedPct), some (.finite s.fullCriticalPct)⟩ := by
  obtain ⟨e, f, he, hf⟩ := exists_lt_of_suggest h
  exact ⟨thresholds_valid h, suggestionValue_renderSuggestion he hf current _,
    suggestion_renderSuggestion hToml h current _⟩

/-- A parser of these lines. -/
def lineToml : Toml where
  config := fun _ => none
  suggestion := fun text =>
    some ⟨((readText text.toList).lookup ("psi".toList, "elevated_pct".toList)).map .finite,
      ((readText text.toList).lookup ("psi".toList, "full_critical_pct".toList)).map .finite⟩
  builtin := ⟨none, none, none, none, none⟩

theorem readsLines_lineToml : ReadsLines lineToml := by
  intro doc hDoc
  have hText : (String.ofList (text doc)).toList = text doc := String.toList_ofList
  unfold lineToml
  dsimp only
  rw [hText, readText_text hDoc.wellFormed]
  rfl

/-- The suggestion of a day with ten stalls. -/
theorem seeded_suggestion_survives :
    (thresholds Calibration.seededSuggestion).valid = true ∧
      (suggestionValue Calibration.seededText.toList "elevated_pct".toList = some 6 ∧
        suggestionValue Calibration.seededText.toList "full_critical_pct".toList = some 9) ∧
      lineToml.suggestion Calibration.seededText = some ⟨some 6, some 9⟩ := by
  have hSuggest : ((Calibration.loadCalibrator (some Calibration.seededState)).observe
      3 0 false 5).suggest = some Calibration.seededSuggestion := by decide +kernel
  exact suggestion_survives readsLines_lineToml hSuggest PsiThresholds.default 1700000000

end Mgd.SuggestionText
