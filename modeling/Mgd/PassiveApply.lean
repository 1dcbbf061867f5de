import Mgd.Config.Reload
import Mgd.PsiPatchSound
import Mgd.SuggestionText

/-!
# From the samples to the configuration

`mgctl calibrate --passive-apply` reads the two live thresholds off the text of the
suggestion and edits them into the user's configuration.  The other three tiers of
`[psi]` stay as they are, and the daemon, which compiles the file anew, takes its
defaults for all five when the tiers are not in order.  Then it lays the suggestion,
whose file is still there, over what it has compiled.

`passive_apply_compiled` goes all the way: from any histograms that suffice for a
suggestion, through the text of the suggestion and the edited text of any
configuration that TOML sees as the scanner does, to the thresholds that the daemon
compiles and loads.
-/

namespace Mgd.PassiveApply

open Mgd.Lib.Text Mgd.Lib.Toml Mgd.Config.Loading Mgd.Engine.Calibrate Mgd.SuggestionText
open Mgd.PsiPatch
open Mgd.Config.Reload (Parsers Reading)

/-! ## The command -/

/-- The two files, `none` where one cannot be read. -/
structure Home where
  suggestion : Option (List Char)
  config : Option (List Char)

inductive Failure
  | noSuggestion
  | notParsed (key : PsiKey)
  | writeFailed

/-- The text that is written over the configuration. -/
def passiveText (home : Home) : Except Failure (List Char) :=
  match home.suggestion with
  | none => .error .noSuggestion
  | some sugData =>
      match suggestionValue sugData PsiKey.elevated.text with
      | none => .error (.notParsed .elevated)
      | some elevatedPct =>
          match suggestionValue sugData PsiKey.fullCritical.text with
          | none => .error (.notParsed .fullCritical)
          | some fullCriticalPct =>
              .ok (patchPsiBlock (home.config.getD []) (PsiKey.pick elevatedPct fullCriticalPct))

/-- Nothing is written unless both thresholds are read. -/
def doPassiveApply (home : Home) (writable : Bool) : Except Failure Home :=
  match passiveText home with
  | .error failure => .error failure
  | .ok patched =>
      if writable then .ok { home with config := some patched } else .error .writeFailed

/-! ## What the daemon compiles -/

section Compiles

variable {V : Type} {P : Parser V}

/-- How serde reads a number. -/
structure Numbers (P : Parser V) where
  number : V → Option F64
  number_decimal : ∀ q, number (P.decimal q) = some (.finite q)

/-- A key of `[psi]`, which need not be there; `none` where it is no number. -/
def field (n : Numbers P) (d : Doc V) (key : List Char) : Option (Option F64) :=
  match d [.name psiName, .name key] with
  | none => some none
  | some (.value v) => (n.number v).map some
  | some _ => none

/-- The `[psi]` block of a document in which `psi` is a table, or missing. -/
def rawPsi (n : Numbers P) (d : Doc V) : Option RawPsi := do
  let elevatedPct ← field n d PsiKey.elevated.text
  let highPct ← field n d "high_pct".toList
  let criticalPct ← field n d "critical_pct".toList
  let emergencyPct ← field n d "emergency_pct".toList
  let fullCriticalPct ← field n d PsiKey.fullCritical.text
  pure ⟨elevatedPct, highPct, criticalPct, emergencyPct, fullCriticalPct⟩

/-- The keys of the suggestion instead of those of the file. -/
def suggested (s : Suggestion) (raw : RawPsi) : RawPsi :=
  { raw with
    elevatedPct := some (.finite s.elevatedPct)
    fullCriticalPct := some (.finite s.fullCriticalPct) }

/-- The upper tiers are in order above this one. -/
def tiersAbove (elevatedPct : ℚ) (t : PsiThresholds) : Bool :=
  (F64.finite elevatedPct).lt t.highPct && t.highPct.lt t.criticalPct &&
    t.criticalPct.lt t.emergencyPct && t.emergencyPct.le 100

theorem checked_suggested {c : Calibrator} {s : Suggestion} (h : c.suggest = some s)
    (raw : RawPsi) :
    (suggested s raw).checked =
      if tiersAbove s.elevatedPct raw.thresholds then (suggested s raw).thresholds
      else PsiThresholds.default := by
  obtain ⟨⟨hLow, -⟩, hFull, -⟩ := suggest_bounds h
  have hElevatedPos : F64.lt 0 (.finite s.elevatedPct) = true :=
    decide_eq_true (lt_of_lt_of_le (by norm_num) hLow)
  have hFullPos : F64.lt 0 (.finite s.fullCriticalPct) = true :=
    decide_eq_true (lt_of_lt_of_le (by norm_num) hFull)
  have hValid : (suggested s raw).thresholds.valid =
      tiersAbove s.elevatedPct raw.thresholds := by
    show (F64.lt 0 (.finite s.elevatedPct) && (F64.finite s.elevatedPct).lt _ && _ && _ && _ &&
      F64.lt 0 (.finite s.fullCriticalPct)) = _
    rw [hElevatedPos, hFullPos, Bool.true_and, Bool.and_true]
    rfl
  rw [RawPsi.checked, hValid]

/-- A file without `high_pct` leaves room for every suggestion. -/
theorem tiersAbove_of_default {c : Calibrator} {s : Suggestion} (h : c.suggest = some s)
    {raw : RawPsi} (hHigh : raw.highPct = none) (hValid : raw.thresholds.valid = true) :
    tiersAbove s.elevatedPct raw.thresholds = true := by
  obtain ⟨⟨-, hTop⟩, -⟩ := suggest_bounds h
  have hDefault : raw.thresholds.highPct = .finite 25 := by
    show raw.highPct.getD 25 = _
    rw [hHigh]
    rfl
  unfold PsiThresholds.valid at hValid
  simp only [Bool.and_eq_true] at hValid
  obtain ⟨⟨⟨⟨-, hCritical⟩, hEmergency⟩, hHundred⟩, -⟩ := hValid
  have hAbove : (F64.finite s.elevatedPct).lt raw.thresholds.highPct = true := by
    rw [hDefault]
    exact decide_eq_true (lt_of_le_of_lt hTop (by norm_num))
  rw [tiersAbove, hAbove, hCritical, hEmergency, hHundred]
  rfl

/-! ## The edited document -/

theorem rounded_natCast (k : Nat) : rounded (k : ℚ) = k := by
  have hScaled : |(k : ℚ)| * 10 = ((k * 10 : Nat) : ℚ) := by
    rw [abs_of_nonneg (Nat.cast_nonneg k)]
    push_cast
    rfl
  have hTenths : tenths (k : ℚ) = k * 10 := by
    unfold tenths
    dsimp only
    rw [hScaled, Int.floor_natCast, Int.toNat_natCast, sub_self, if_pos (by norm_num)]
  rw [rounded, if_neg (not_lt.mpr (Nat.cast_nonneg k)), hTenths]
  push_cast
  ring

variable {values : Values} {v : PsiKey → V} {text : List Char} {stmts : List (Stmt V)}
  {d d' : Doc V}

/-- The two keys are set, and the rest of the table is kept. -/
structure Edited (v : PsiKey → V) (d d' : Doc V) : Prop where
  keys : ∀ k, d' (keyLoc k) = some (.value (v k))
  others : ∀ loc, loc ≠ [.name psiName] → (∀ k, loc ≠ keyLoc k) → d' loc = d loc

theorem parse_edited (h : P.Reading text stmts d) (hAlike : SeesAlike d stmts)
    (hv : ∀ k, readBack P (values k) = some (v k)) :
    ∃ d', P.parse (patchPsiBlock text values) = some d' ∧ Edited v d d' := by
  unfold SeesAlike at hAlike
  rw [h.lines] at hAlike
  cases hPsi : hasPsi (lines text) with
  | true =>
      rw [if_pos hPsi] at hAlike
      obtain ⟨d', hParse, hSets⟩ := sets_of_agrees h hv hPsi hAlike
      exact ⟨d', hParse, fun k => hSets.keys k (mem_allKeys k),
        fun loc _ hLoc => hSets.others loc fun k _ => hLoc k⟩
  | false =>
      rw [if_neg (by rw [hPsi]; exact Bool.false_ne_true)] at hAlike
      obtain ⟨d', hParse, hSets⟩ := sets_of_absent h hv hPsi hAlike
      refine ⟨d', hParse, fun k => hSets.keys k (mem_allKeys k), fun loc hTable hLoc => ?_⟩
      rw [hSets.others loc fun k _ => hLoc k, Function.update_of_ne hTable]

theorem Edited.field_key (h : Edited v d d') (n : Numbers P) (k : PsiKey) {q : ℚ}
    (hValue : v k = P.decimal q) : field n d' k.text = some (some (.finite q)) := by
  have hKey : d' [.name psiName, .name k.text] = some (.value (v k)) := h.keys k
  rw [field, hKey, hValue]
  show (n.number (P.decimal q)).map some = _
  rw [n.number_decimal]
  rfl

theorem Edited.field_other (h : Edited v d d') (n : Numbers P) {key : List Char}
    (hKey : ∀ k : PsiKey, key ≠ k.text) : field n d' key = field n d key := by
  have hSame : d' [.name psiName, .name key] = d [.name psiName, .name key] := by
    refine h.others _ (by simp) fun k hLoc => hKey k ?_
    injection hLoc with _ hRest
    injection hRest with hName
    injection hName
  rw [field, field, hSame]

theorem Edited.rawPsi (h : Edited v d d') (n : Numbers P) {s : Suggestion} {raw : RawPsi}
    (hElevated : v .elevated = P.decimal s.elevatedPct)
    (hFull : v .fullCritical = P.decimal s.fullCriticalPct) (hRaw : rawPsi n d = some raw) :
    rawPsi n d' = some (suggested s raw) := by
  have hHigh := @Edited.field_other V P v d d' h n "high_pct".toList fun k => by
    cases k <;> decide +kernel
  have hCritical := @Edited.field_other V P v d d' h n "critical_pct".toList fun k => by
    cases k <;> decide +kernel
  have hEmergency := @Edited.field_other V P v d d' h n "emergency_pct".toList fun k => by
    cases k <;> decide +kernel
  simp only [PassiveApply.rawPsi, Option.bind_eq_bind, Option.bind_eq_some_iff] at hRaw ⊢
  obtain ⟨_, -, high, hHighIs, critical, hCriticalIs, emergency, hEmergencyIs, _, -, hPure⟩ :=
    hRaw
  cases hPure
  exact ⟨_, h.field_key n .elevated hElevated, _, hHigh.trans hHighIs, _,
    hCritical.trans hCriticalIs, _, hEmergency.trans hEmergencyIs, _,
    h.field_key n .fullCritical hFull, rfl⟩

/-! ## What the daemon loads -/

/-- The default thresholds under those of the suggestion. -/
def overDefaults (s : Suggestion) : PsiThresholds :=
  { PsiThresholds.default with
    elevatedPct := .finite s.elevatedPct
    fullCriticalPct := .finite s.fullCriticalPct }

/-- The parsers follow TOML, the files are the edited one and the text of the
suggestion, and the other sections of the configuration pass as well. -/
structure Accepts {ρ : Type} (n : Numbers P) (x : Parsers ρ) (r : Reading)
    (patched : List Char) (suggestionText : String) : Prop where
  suggestion : ReadsLines x.psiToml
  psi : ∀ text d cfg, P.parse text = some d → x.config (String.ofList text) = some cfg →
    PassiveApply.rawPsi n d = some cfg.psi
  files : r.files.user = some (String.ofList patched) ∧ r.files.suggestion = some suggestionText
  config : (x.config (String.ofList patched)).isSome = true

/-- **The overlay is laid over what was compiled**, and changes nothing unless the
tiers were not in order. -/
theorem load_applied (n : Numbers P) {c : Calibrator} {s : Suggestion}
    (hSuggest : c.suggest = some s) {current : PsiThresholds} {now : Nat} {raw : RawPsi}
    {patched : List Char} (hParse : P.parse patched = some d')
    (hRead : rawPsi n d' = some (suggested s raw)) {ρ : Type} {x : Parsers ρ} {r : Reading}
    (h : Accepts n x r patched (renderSuggestion s current now)) :
    (x.load r).psi =
      if tiersAbove s.elevatedPct raw.thresholds then (suggested s raw).thresholds
      else overDefaults s := by
  obtain ⟨cfg, hConfig⟩ := Option.isSome_iff_exists.mp h.config
  have hPsi : cfg.psi = suggested s raw :=
    Option.some.inj ((h.psi patched d' cfg hParse hConfig).symm.trans hRead)
  have hOverlay : r.files.suggestion.bind x.psiToml.suggestion =
      some ⟨some (.finite s.elevatedPct), some (.finite s.fullCriticalPct)⟩ := by
    rw [h.files.2]
    exact suggestion_renderSuggestion h.suggestion hSuggest current now
  have hSelected : r.selected = some (String.ofList patched,
      r.machine.home ++ "/.config/mgd/priorities.toml") := by
    unfold Reading.selected
    rw [h.files.1]
  have hLoad : (x.load r).psi = applyCalibrationOverlay x.psiToml r.files cfg.psi.checked := by
    unfold Parsers.load
    rw [hSelected]
    dsimp only
    unfold Parsers.compile
    rw [hConfig]
    rfl
  rw [hLoad, hPsi, checked_suggested hSuggest]
  unfold applyCalibrationOverlay
  rw [hOverlay]
  dsimp only [Option.getD_some]
  split <;> rfl

/-! ## All the way -/

/-- **A suggestion is applied, or all thresholds are the defaults.**  Whatever histograms
suffice for a suggestion, the command reads its two thresholds off the text and edits them into
any configuration that TOML sees as the scanner does.  The daemon accepts the edited text and
reads the two thresholds exactly, with the user's own upper tiers; where these are not in order
above the suggested tier, it takes its defaults instead of all five, and loads the two of the
suggestion over them.  Where the user has set no `high_pct`, valid thresholds stay valid. -/
theorem passive_apply_compiled (n : Numbers P) {c : Calibrator} {s : Suggestion}
    (hSuggest : c.suggest = some s) (current : PsiThresholds) (now : Nat) {raw : RawPsi}
    {config : Option (List Char)} (hReading : P.Reading (config.getD []) stmts d)
    (hAlike : SeesAlike d stmts) (hRaw : rawPsi n d = some raw) :
    ∃ patched d',
      doPassiveApply ⟨some (renderSuggestion s current now).toList, config⟩ true =
        .ok ⟨some (renderSuggestion s current now).toList, some patched⟩ ∧
      P.parse patched = some d' ∧ rawPsi n d' = some (suggested s raw) ∧
      ((suggested s raw).checked =
        if tiersAbove s.elevatedPct raw.thresholds then (suggested s raw).thresholds
        else PsiThresholds.default) ∧
      (raw.highPct = none → raw.thresholds.valid = true →
        (suggested s raw).checked = (suggested s raw).thresholds) ∧
      ∀ {ρ : Type} (x : Parsers ρ) (r : Reading),
        Accepts n x r patched (renderSuggestion s current now) →
        (x.load r).psi =
          if tiersAbove s.elevatedPct raw.thresholds then (suggested s raw).thresholds
          else overDefaults s := by
  obtain ⟨e, f, he, hf⟩ := exists_lt_of_suggest hSuggest
  obtain ⟨hElevatedRead, hFullRead⟩ := suggestionValue_renderSuggestion he hf current now
  have hValues : ∀ k, readBack P (PsiKey.pick (.finite s.elevatedPct)
      (.finite s.fullCriticalPct) k) =
        some (PsiKey.pick (P.decimal s.elevatedPct) (P.decimal s.fullCriticalPct) k) := by
    intro k
    cases k with
    | elevated =>
        show some (P.decimal (rounded s.elevatedPct)) = some (P.decimal s.elevatedPct)
        rw [he.1, rounded_natCast]
    | fullCritical =>
        show some (P.decimal (rounded s.fullCriticalPct)) = some (P.decimal s.fullCriticalPct)
        rw [hf.1, rounded_natCast]
  obtain ⟨d', hParse, hEdited⟩ := parse_edited hReading hAlike hValues
  have hRead := hEdited.rawPsi n rfl rfl hRaw
  refine ⟨_, d', ?_, hParse, hRead, checked_suggested hSuggest raw, fun hHigh hValid => ?_,
    fun x r hAccepts => load_applied n hSuggest hParse hRead hAccepts⟩
  · have hElevatedText : suggestionValue (renderSuggestion s current now).toList
        PsiKey.elevated.text = some (.finite s.elevatedPct) := hElevatedRead
    have hFullText : suggestionValue (renderSuggestion s current now).toList
        PsiKey.fullCritical.text = some (.finite s.fullCriticalPct) := hFullRead
    unfold doPassiveApply passiveText
    dsimp only
    rw [hElevatedText, hFullText]
    rfl
  · rw [checked_suggested hSuggest raw,
      if_pos (tiersAbove_of_default hSuggest hHigh hValid)]

end Compiles

open Mgd.Lib.TomlBasic

/-- The numbers of plain TOML. -/
def scalarNumbers : Numbers basic where
  number
    | .decimal q => some (.finite q)
    | .infinity true => some .negInf
    | .infinity false => some .posInf
  number_decimal _ := rfl

/-- A daemon for configurations that consist of a `[psi]` block. -/
def basicParsers : Parsers Unit where
  config := fun text =>
    (basic.parse text.toList).bind fun d =>
      (rawPsi scalarNumbers d).map fun psi => { Config.Builtin.builtinConfig () with psi := psi }
  suggestion := lineToml.suggestion
  regex := fun _ => none
  builtinRest := ()

theorem basicParsers_psi (text : List Char) (d : Doc Scalar) (cfg : Config.Builtin.RawConfig Unit)
    (hParse : basic.parse text = some d)
    (hConfig : basicParsers.config (String.ofList text) = some cfg) :
    rawPsi scalarNumbers d = some cfg.psi := by
  unfold basicParsers at hConfig
  dsimp only at hConfig
  rw [String.toList_ofList, hParse] at hConfig
  obtain ⟨psi, hPsi, rfl⟩ := Option.map_eq_some_iff.mp hConfig
  exact hPsi

/-- The user's file and that of the suggestion, on a machine with 16 GB. -/
def seededReading (config : List Char) : Reading where
  files := ⟨some (String.ofList config), none, some Calibration.seededText⟩
  machine := ⟨"/home/user", none, Types.Kb.clamp 16000000, []⟩

/-- The suggestion of a day with ten stalls goes into a file that has one key, and
from there into the daemon. -/
theorem seeded_suggestion_applied :
    ∃ patched d',
      doPassiveApply ⟨some Calibration.seededText.toList, some plainText⟩ true =
        .ok ⟨some Calibration.seededText.toList, some patched⟩ ∧
      basic.parse patched = some d' ∧
      rawPsi scalarNumbers d' = some ⟨some 6, none, none, none, some 9⟩ ∧
      RawPsi.checked ⟨some 6, none, none, none, some 9⟩ = ⟨6, 25, 50, 70, 9⟩ ∧
      (basicParsers.load (seededReading patched)).psi = ⟨6, 25, 50, 70, 9⟩ := by
  have hSuggest : ((Calibration.loadCalibrator (some Calibration.seededState)).observe
      3 0 false 5).suggest = some Calibration.seededSuggestion := by decide +kernel
  have hReading : basic.Reading ((some plainText).getD []) plainStmts
      (docOf (meanings plainStmts)) := plain_reading
  have hRaw : rawPsi scalarNumbers (docOf (meanings plainStmts)) =
      some ⟨some 3, none, none, none, none⟩ := by decide +kernel
  obtain ⟨patched, d', hApplied, hParse, hRead, -, hKept, hLoads⟩ :=
    passive_apply_compiled scalarNumbers hSuggest PsiThresholds.default 1700000000 hReading
      (by decide +kernel) hRaw
  have hConfig : (basicParsers.config (String.ofList patched)).isSome = true := by
    unfold basicParsers
    dsimp only
    rw [String.toList_ofList, hParse, Option.bind_some, hRead]
    rfl
  have hLoaded := hLoads basicParsers (seededReading patched)
    ⟨readsLines_lineToml, basicParsers_psi, ⟨rfl, rfl⟩, hConfig⟩
  refine ⟨patched, d', hApplied, hParse, hRead, hKept rfl (by decide +kernel), hLoaded.trans ?_⟩
  decide +kernel

end Mgd.PassiveApply
