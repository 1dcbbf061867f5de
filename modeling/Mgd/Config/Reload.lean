import Mgd.Config.Builtin
import Mgd.Lib.Run

/-!
# Reloading the configuration

`load` and `compile` of `config/mod.rs` and the cell with the configuration in
force.  A reload, on SIGHUP in the evictor or on `mgctl reload` in a thread of
its connection, loads and then stores what it has loaded; the files may change
and another reload may store in between.

`load` takes the user's file, else the system's, else the built-in one.  A file
that does not parse is answered with the built-in configuration, at a start and
at a reload alike.

The TOML parser and the regular expressions are parameters.
-/

namespace Mgd.Config.Reload

open Mgd.Types Mgd.Config Mgd.Config.Builtin Mgd.Config.Loading Mgd.Lib.AssocMap Mgd.Lib.Run

variable {ρ : Type}

/-! ## What is read -/

/-- A `.desktop` file with an `Exec=`: the name of the executable, and the
categories. -/
structure DesktopEntry where
  exe : String
  categories : List String

/-- What `load` reads beside the configuration files. -/
structure Machine where
  home : String
  /-- from the `calibration.toml` of `mgctl calibrate` -/
  calibratedTargetPct : Option F64
  totalKb : Kb
  /-- in the order of the scan -/
  desktopFiles : List DesktopEntry

/-- The parsers, and the sections of the built-in file that are not shown. -/
structure Parsers (ρ : Type) where
  config : String → Option (RawConfig ρ)
  suggestion : String → Option CalibrationPsi
  /-- `Regex::new` -/
  regex : String → Option Regex
  builtinRest : ρ

/-! ## Compiling -/

/-- `CompiledConfig` of the source, the sections that are only copied as they
were read. -/
structure Compiled (ρ : Type) where
  defaultPriority : Nat
  logKeep : Nat
  targetAvailablePct : F64
  psi : PsiThresholds
  entries : List AppRule
  autoKillRules : List AutoKillRule
  protectRules : List Regex
  desktopIndex : Map String Nat
  rest : ρ
  configPath : Option String

/-- More RAM needs proportionally less of it free. -/
def ramScaledTargetPct (totalKb : Kb) : F64 :=
  let gib := 1024 * 1024
  if totalKb.val < 8 * gib then 20
  else if totalKb.val < 16 * gib then 15
  else if totalKb.val < 32 * gib then 12
  else 10

/-- The most expendable of its categories. -/
def DesktopEntry.priority (categoryPriorities : Map String Nat) (d : DesktopEntry) : Option Nat :=
  (d.categories.filterMap fun category => categoryPriorities.lookup category).max?

/-- The first file for an executable wins. -/
def scanDesktopFiles (categoryPriorities : Map String Nat) (files : List DesktopEntry) :
    Map String Nat :=
  files.foldl
    (fun index d =>
      match d.priority categoryPriorities, index.lookup d.exe with
      | some prio, none => index.insert d.exe prio
      | _, _ => index)
    ∅

namespace Parsers

variable (x : Parsers ρ)

/-- The rule of an app, unless its pattern is invalid. -/
def appRule (app : AppEntry) : Option AppRule :=
  (x.regex app.pattern).map fun re => ⟨re, app.priority, app.checkpoint⟩

def autoKillRule (app : AppEntry) : Option AutoKillRule :=
  match x.regex app.pattern, app.autoKillIdleAfter with
  | some re, some secs => some ⟨re, secs⟩
  | _, _ => none

/-- `compile` of a file that parses. -/
def compileRaw (m : Machine) (raw : RawConfig ρ) : Compiled ρ where
  defaultPriority := raw.priority.getD 50
  logKeep := raw.logKeep.getD 10
  targetAvailablePct :=
    (raw.targetAvailablePct.or m.calibratedTargetPct).getD (ramScaledTargetPct m.totalKb)
  psi := raw.psi.checked
  entries := raw.apps.filterMap x.appRule
  autoKillRules := raw.apps.filterMap x.autoKillRule
  protectRules := raw.protect.filterMap x.regex
  desktopIndex := scanDesktopFiles raw.categoryPriorities m.desktopFiles
  rest := raw.rest
  configPath := none

def compile (m : Machine) (content : String) : Option (Compiled ρ) :=
  (x.config content).map (x.compileRaw m)

/-- `compile(BUILTIN_CONFIG)` -/
def compileBuiltin (m : Machine) : Compiled ρ := x.compileRaw m (builtinConfig x.builtinRest)

end Parsers

/-! ## Loading -/

/-- The files and the machine as a load reads them. -/
structure Reading where
  files : ConfigFiles
  machine : Machine

/-- The content and the path of the file that is used. -/
def Reading.selected (r : Reading) : Option (String × String) :=
  match r.files.user, r.files.system with
  | some content, _ => some (content, r.machine.home ++ "/.config/mgd/priorities.toml")
  | none, some content => some (content, "/etc/mgd/priorities.toml")
  | none, none => none

namespace Parsers

variable (x : Parsers ρ)

/-- The overlay looks at the thresholds only. -/
def psiToml : Toml where
  config := fun content => (x.config content).map RawConfig.psi
  suggestion := x.suggestion
  builtin := (builtinConfig x.builtinRest).psi

def applyCalibrationOverlay (files : ConfigFiles) (cfg : Compiled ρ) : Compiled ρ :=
  { cfg with psi := Loading.applyCalibrationOverlay x.psiToml files cfg.psi }

def load (r : Reading) : Compiled ρ :=
  match r.selected with
  | none => x.applyCalibrationOverlay r.files (x.compileBuiltin r.machine)
  | some (content, path) =>
      match x.compile r.machine content with
      | some cfg => x.applyCalibrationOverlay r.files { cfg with configPath := some path }
      | none => x.compileBuiltin r.machine

/-- The file that is used does not parse. -/
def failed (r : Reading) : Bool :=
  match r.selected with
  | none => false
  | some (content, _) => (x.config content).isNone

end Parsers

/-! ## Protected names -/

/-- The configuration for the lookups; those do not read the sections that are
left at their defaults here. -/
def Compiled.lookups (c : Compiled ρ) : CompiledConfig :=
  { CompiledConfig.ofEmpty 15 with
    defaultPriority := c.defaultPriority
    entries := c.entries
    autoKillRules := c.autoKillRules
    protectRules := c.protectRules
    desktopIndex := c.desktopIndex }

/-- Priority 19 or lower, or a `[[protect]]` rule. -/
def Compiled.protects (c : Compiled ρ) (name : String) (exeBasename : Option String) : Bool :=
  decide (c.lookups.priorityFor name exeBasename ≤ 19) || c.lookups.isProtected name

/-! ## The cell and its reloads -/

structure World (ρ : Type) where
  now : Reading
  /-- the configuration in force -/
  config : Compiled ρ
  /-- What reloads have read and loaded, and not stored yet. -/
  loaded : List (Reading × Compiled ρ)

inductive Move
  /-- The files are edited, or the machine changes. -/
  | edit (now : Reading)
  /-- A reload loads, on SIGHUP or for `mgctl reload`. -/
  | reload
  /-- One of them stores what it has loaded. -/
  | store (i : Nat)

section Steps

variable (x : Parsers ρ)

def step (w : World ρ) : Move → World ρ
  | .edit now => { w with now := now }
  | .reload => { w with loaded := w.loaded ++ [(w.now, x.load w.now)] }
  | .store i =>
      match w.loaded[i]? with
      | some (_, cfg) => { w with config := cfg, loaded := w.loaded.eraseIdx i }
      | none => w

/-- The first `get` loads. -/
def World.start (r : Reading) : World ρ where
  now := r
  config := x.load r
  loaded := []

end Steps

/-! ## What a load gives -/

/-- The built-in `[[apps]]` first, then the `.desktop` category of the executable,
then 50. -/
def Parsers.builtinPriority (x : Parsers ρ) (m : Machine) (name : String)
    (exeBasename : Option String) : Nat :=
  match builtinApps.find? fun app => (x.regex app.pattern).any fun re => re.isMatch name with
  | some app => app.priority
  | none =>
      match exeBasename.bind fun exe => (x.compileBuiltin m).desktopIndex.lookup exe with
      | some prio => prio
      | none => 50

section Loads

variable (x : Parsers ρ)

theorem appRule_any (name : String) (app : AppEntry) :
    (x.appRule app).any (fun e => e.re.isMatch name) =
      (x.regex app.pattern).any fun re => re.isMatch name := by
  unfold Parsers.appRule
  cases x.regex app.pattern <;> rfl

theorem priorityFor_compileBuiltin (m : Machine) (name : String) (exeBasename : Option String) :
    (x.compileBuiltin m).lookups.priorityFor name exeBasename =
      x.builtinPriority m name exeBasename := by
  have hRules : (builtinApps.filterMap x.appRule).find? (fun e => e.re.isMatch name) =
      (builtinApps.find? fun app => (x.regex app.pattern).any fun re => re.isMatch name).bind
        x.appRule := by
    rw [List.find?_filterMap]
    simp only [appRule_any]
  have hEntries : (x.compileBuiltin m).lookups.entries = builtinApps.filterMap x.appRule := rfl
  unfold CompiledConfig.priorityFor Parsers.builtinPriority
  rw [hEntries, hRules]
  cases hFound : builtinApps.find? fun app =>
      (x.regex app.pattern).any fun re => re.isMatch name with
  | none => rfl
  | some app =>
      have hMatches := List.find?_some hFound
      unfold Parsers.appRule
      cases hRegex : x.regex app.pattern with
      | none =>
          rw [hRegex] at hMatches
          cases hMatches
      | some re => simp [hRegex]

theorem DesktopEntry.priority_le {categoryPriorities : Map String Nat} {bound : Nat}
    (hCategories : ∀ category prio, categoryPriorities.lookup category = some prio → prio ≤ bound)
    {d : DesktopEntry} {prio : Nat} (h : d.priority categoryPriorities = some prio) :
    prio ≤ bound := by
  obtain ⟨category, -, hPrio⟩ := List.mem_filterMap.mp (List.max?_mem h)
  exact hCategories category prio hPrio

theorem scanDesktopFiles_le {categoryPriorities : Map String Nat} {bound : Nat}
    (hCategories : ∀ category prio, categoryPriorities.lookup category = some prio → prio ≤ bound)
    (files : List DesktopEntry) {exe : String} {prio : Nat}
    (h : (scanDesktopFiles categoryPriorities files).lookup exe = some prio) : prio ≤ bound := by
  unfold scanDesktopFiles at h
  have hEmpty : ∀ exe prio, (∅ : Map String Nat).lookup exe = some prio → prio ≤ bound :=
    fun _ _ hNone => nomatch hNone
  generalize (∅ : Map String Nat) = index at h hEmpty
  induction files generalizing index with
  | nil => exact hEmpty exe prio h
  | cons d rest ih =>
      refine ih _ h fun exe' prio' hLookup => ?_
      dsimp only at hLookup
      split at hLookup
      · next prio'' hPriority hFree =>
          rw [lookup_insert_eq] at hLookup
          split at hLookup
          · cases hLookup
            exact DesktopEntry.priority_le hCategories hPriority
          · exact hEmpty exe' prio' hLookup
      · exact hEmpty exe' prio' hLookup

/-- The built-in priorities stay within the scale. -/
theorem builtinPriority_le (m : Machine) (name : String) (exeBasename : Option String) :
    x.builtinPriority m name exeBasename ≤ 100 := by
  unfold Parsers.builtinPriority
  split
  · next app hFound => exact builtinApps_priority_le app (List.mem_of_find?_eq_some hFound)
  · split
    · next prio hIndexed =>
        obtain ⟨exe, -, hLookup⟩ := Option.bind_eq_some_iff.mp hIndexed
        exact scanDesktopFiles_le
          (fun _ _ hCategory => builtinConfig_category_le x.builtinRest hCategory)
          m.desktopFiles hLookup
    · decide

/-- The built-in file has no `[[protect]]` table. -/
theorem protects_compileBuiltin_iff (m : Machine) (name : String) (exeBasename : Option String) :
    (x.compileBuiltin m).protects name exeBasename = true ↔
      x.builtinPriority m name exeBasename ≤ 19 := by
  have hNoRule : (x.compileBuiltin m).lookups.isProtected name = false := rfl
  unfold Compiled.protects
  rw [hNoRule, Bool.or_false, priorityFor_compileBuiltin, decide_eq_true_iff]

/-- The built-in configuration has the default thresholds. -/
theorem compileBuiltin_psi (m : Machine) : (x.compileBuiltin m).psi = PsiThresholds.default :=
  builtinConfig_psi x.builtinRest

/-- The thresholds are those of `Loading`. -/
theorem load_psi (r : Reading) : (x.load r).psi = Loading.load x.psiToml r.files := by
  have hSelected : r.selected.map Prod.fst = r.files.user.or r.files.system := by
    unfold Reading.selected
    cases r.files.user <;> cases r.files.system <;> rfl
  unfold Parsers.load Loading.load Loading.compile
  rw [← hSelected]
  cases r.selected with
  | none => rfl
  | some file =>
      obtain ⟨content, path⟩ := file
      simp only [Option.map_some, Parsers.compile, Parsers.psiToml]
      cases x.config content with
      | none => rfl
      | some raw => rfl

/-- What is in force after a reload that has read this. -/
structure Replaced (after : Compiled ρ) (r : Reading) : Prop where
  /-- A file that does not parse: the built-in configuration, without the
  overlay. -/
  failed : x.failed r = true → after = x.compileBuiltin r.machine
  protects : x.failed r = true → ∀ name exeBasename,
    after.protects name exeBasename = true ↔ x.builtinPriority r.machine name exeBasename ≤ 19
  parsed : ∀ content path raw, r.selected = some (content, path) → x.config content = some raw →
    after = x.applyCalibrationOverlay r.files
      { x.compileRaw r.machine raw with configPath := some path }
  noFile : r.selected = none →
    after = x.applyCalibrationOverlay r.files (x.compileBuiltin r.machine)

theorem load_of_failed {r : Reading} (hFailed : x.failed r = true) :
    x.load r = x.compileBuiltin r.machine := by
  unfold Parsers.failed at hFailed
  unfold Parsers.load
  cases hSelected : r.selected with
  | none =>
      rw [hSelected] at hFailed
      cases hFailed
  | some file =>
      obtain ⟨content, path⟩ := file
      rw [hSelected] at hFailed
      have hNone : x.config content = none := Option.isNone_iff_eq_none.mp hFailed
      simp [Parsers.compile, hNone]

theorem replaced_load (r : Reading) : Replaced x (x.load r) r where
  failed := load_of_failed x
  protects := fun hFailed name exeBasename => by
    rw [load_of_failed x hFailed]
    exact protects_compileBuiltin_iff x r.machine name exeBasename
  parsed := fun content path raw hSelected hParsed => by
    unfold Parsers.load
    rw [hSelected]
    simp [Parsers.compile, hParsed]
  noFile := fun hSelected => by
    unfold Parsers.load
    rw [hSelected]

end Loads

/-! ## Runs -/

/-- A reload that stores puts in force what its own reading gives, and nothing
else changes the configuration. -/
def Reloads (x : Parsers ρ) (w : World ρ) : Move → Prop
  | .store i => ∀ r cfg, w.loaded[i]? = some (r, cfg) →
      Replaced x (step x w (.store i)).config r
  | .edit now => (step x w (.edit now)).config = w.config
  | .reload => (step x w .reload).config = w.config

/-- What is about to be stored was loaded from what its reload has read. -/
def Inv (x : Parsers ρ) (w : World ρ) : Prop := ∀ p ∈ w.loaded, p.2 = x.load p.1

theorem inv_step {x : Parsers ρ} {w : World ρ} (h : Inv x w) (m : Move) : Inv x (step x w m) := by
  cases m with
  | edit now => exact h
  | reload =>
      intro p hp
      rcases List.mem_append.mp hp with hOld | hNew
      · exact h p hOld
      · rw [List.mem_singleton.mp hNew]
  | store i =>
      unfold step
      dsimp only
      split
      · exact fun p hp => h p (List.mem_of_mem_eraseIdx hp)
      · exact h

theorem reloads_of_inv {x : Parsers ρ} {w : World ρ} (h : Inv x w) (m : Move) :
    Reloads x w m := by
  cases m with
  | edit now => rfl
  | reload => rfl
  | store i =>
      intro r cfg hLoaded
      have hConfig : (step x w (.store i)).config = cfg := by
        unfold step
        dsimp only
        rw [hLoaded]
      have hLoad : cfg = x.load r := h (r, cfg) (List.mem_of_getElem? hLoaded)
      rw [hConfig, hLoad]
      exact replaced_load x r

/--
**What a reload does**, over any edits and any number of reloads at a time: it
puts in force the configuration of the file it has read, and where that does not
parse the built-in one, whatever was in force.  A name is protected then exactly
when the built-in file protects it.
-/
theorem reloads_run (x : Parsers ρ) (r : Reading) (moves : List Move) :
    EveryStep (step x) (Reloads x) (World.start x r) moves := by
  have hStart : Inv x (World.start x r) := fun _ hp => nomatch hp
  have hInv : ∀ w m, Inv x w → True → Inv x (step x w m) := fun _ m h _ => inv_step h m
  exact everyStep_of_invariant hInv (fun _ m h _ => reloads_of_inv h m) hStart
    (everyStep_true _ moves)

/-! ## A slip in the editor -/

/-- A reload of a file that does not parse changes nothing, and no name loses its
protection. -/
def LeavesAlone (x : Parsers ρ) (w : World ρ) : Move → Prop
  | .store i => ∀ r cfg, w.loaded[i]? = some (r, cfg) → x.failed r = true →
      (step x w (.store i)).config = w.config ∧ ∀ name exeBasename,
        w.config.protects name exeBasename = true →
          (step x w (.store i)).config.protects name exeBasename = true
  | _ => True

def protectFile : String := "[[protect]]\nname = \"notes\"\npattern = \"^joplin$\"\n"

/-- A bracket is missing. -/
def slipFile : String := "[[protect]\nname = \"notes\"\npattern = \"^joplin$\"\n"

/-- No pattern of the built-in file matches the name. -/
def notesParsers : Parsers Unit where
  config := fun text =>
    if text = protectFile then
      some ⟨none, none, [], ["^joplin$"], ∅, none, ⟨none, none, none, none, none⟩, ()⟩
    else none
  suggestion := fun _ => none
  regex := fun pattern =>
    some (if pattern = "^joplin$" then Regex.exact "joplin" else ⟨fun _ => false⟩)
  builtinRest := ()

def notesReading (user : String) : Reading where
  files := ⟨some user, none, none⟩
  machine := ⟨"/home/user", none, Kb.clamp 16000000, []⟩

/-- The user's file is broken and reloaded. -/
theorem slip_loses_protection :
    ¬ ∀ (x : Parsers Unit) (r : Reading) (moves : List Move),
      EveryStep (step x) (LeavesAlone x) (World.start x r) moves := by
  intro hAll
  have hEvery := hAll notesParsers (notesReading protectFile)
    ([.edit (notesReading slipFile), .reload] ++ [.store 0])
  have hStore := hEvery.at_split (notesReading slipFile)
    (notesParsers.load (notesReading slipFile)) rfl (by decide +kernel)
  have hBefore : (run (step notesParsers) (World.start notesParsers (notesReading protectFile))
      [.edit (notesReading slipFile), .reload]).config.protects "joplin" none = true := by
    decide +kernel
  have hAfter : (step notesParsers (run (step notesParsers)
      (World.start notesParsers (notesReading protectFile))
      [.edit (notesReading slipFile), .reload]) (.store 0)).config.protects "joplin" none =
        false := by
    decide +kernel
  rw [hStore.2 "joplin" none hBefore] at hAfter
  cases hAfter

end Mgd.Config.Reload
