import Mgd.Config.Reload
import Mgd.Lib.FirstWins
import Mgd.Lib.Paths
import Mgd.Lib.Text

/-!
# Scanning the desktop files

`scan_desktop_files`: which executables belong to which desktop category, read
from four directories of `.desktop` files.  The first file for an executable
wins.  The directories have an order; their entries come as `read_dir` lists
them, which is no order at all.  `stable_iff` says when that makes no difference.
-/

namespace Mgd.Config.DesktopScan

open Mgd.Config Mgd.Config.Builtin Mgd.Config.Reload
open Mgd.Lib.AssocMap Mgd.Lib.FirstWins Mgd.Lib.Paths Mgd.Lib.Text

/-! ## Files -/

/-- An entry that `read_dir` could read, its content `none` if it cannot be read
as text. -/
structure DirEntry where
  name : Name
  content : Option (List Char)

/-- The listing of a directory, `none` if there is none. -/
abbrev ReadDir := String → Option (List DirEntry)

/-- What follows the last dot of a file name, unless that is its first character. -/
def extension (name : Name) : Option (List Char) :=
  let after := afterLast '.' name
  let before := name.take (name.length - after.length - 1)
  if '.' ∈ name ∧ before ≠ [] then some after else none

/-- `Path::file_name`: the last component, unless it is `..` -/
def fileName (path : List Char) : Option Name :=
  ((components path).filter fun n => decide (n ≠ dot)).getLast?.filter fun n => decide (n ≠ dotDot)

/-! ## One file -/

/-- What the lines so far have given. -/
structure Parse where
  exeBasename : Option Name
  categories : List (List Char)
  inDesktopEntry : Bool

def parseLine (s : Parse) (line : List Char) : Parse :=
  if line.head? = some '[' then
    { s with inDesktopEntry := decide (line = "[Desktop Entry]".toList) }
  else if s.inDesktopEntry = false then s
  else
    match s.exeBasename, stripPrefix "Exec=".toList line with
    -- a blank `Exec=`, or one without a file name, skips its line
    | none, some rest => { s with exeBasename := (splitWhitespace rest).head?.bind fileName }
    | _, _ =>
        match stripPrefix "Categories=".toList line with
        | some rest => { s with categories := (rest.splitOn ';').filter fun c => decide (c ≠ []) }
        | none => s

/-- The executable and the categories of a file. -/
def desktopEntry (content : List Char) : Option DesktopEntry :=
  let s := (lines content).foldl parseLine ⟨none, [], false⟩
  s.exeBasename.map fun exe => ⟨String.ofList exe, s.categories.map String.ofList⟩

/-- The executable and the greatest priority of a known category. -/
def parseDesktopFile (categoryPriorities : Map String Nat) (content : List Char) :
    Option (String × Nat) :=
  (desktopEntry content).bind fun d =>
    (d.priority categoryPriorities).map fun prio => (d.exe, prio)

/-! ## The scan -/

/-- The user's directories first. -/
def applicationDirs (home : String) : List String :=
  [home ++ "/.local/share/applications",
    home ++ "/.local/share/flatpak/exports/share/applications",
    "/usr/share/applications",
    "/var/lib/flatpak/exports/share/applications"]

/-- What an entry of a directory adds to the index. -/
def indexed (categoryPriorities : Map String Nat) (entry : DirEntry) : Option (String × Nat) :=
  if extension entry.name = some "desktop".toList then
    entry.content.bind (parseDesktopFile categoryPriorities)
  else none

def scanDir (categoryPriorities : Map String Nat) (readDir : ReadDir) (index : Map String Nat)
    (dir : String) : Map String Nat :=
  match readDir dir with
  | none => index
  | some entries => insertFirsts (indexed categoryPriorities) index entries

def scanDesktopFiles (categoryPriorities : Map String Nat) (home : String) (readDir : ReadDir) :
    Map String Nat :=
  (applicationDirs home).foldl (scanDir categoryPriorities readDir) ∅

/-! ## Listings -/

/-- The same files, listed in another order. -/
def Relisted (readDir' readDir : ReadDir) : Prop :=
  ∀ dir, Option.Rel List.Perm (readDir' dir) (readDir dir)

/-- The file is in the directory, and gives the executable this priority. -/
def Gives (categoryPriorities : Map String Nat) (readDir : ReadDir) (dir : String) (exe : String)
    (prio : Nat) : Prop :=
  ∃ entries entry, readDir dir = some entries ∧ entry ∈ entries ∧
    indexed categoryPriorities entry = some (exe, prio)

/-- The index does not depend on the listings, and with it no priority does. -/
structure Stable (categoryPriorities : Map String Nat) (home : String) (readDir : ReadDir) :
    Prop where
  index : ∀ readDir', Relisted readDir' readDir → ∀ exe,
    (scanDesktopFiles categoryPriorities home readDir').lookup exe =
      (scanDesktopFiles categoryPriorities home readDir).lookup exe
  priority : ∀ readDir', Relisted readDir' readDir → ∀ (cfg : CompiledConfig) name exeBasename,
    { cfg with desktopIndex :=
      scanDesktopFiles categoryPriorities home readDir' }.priorityFor name exeBasename =
        { cfg with desktopIndex :=
          scanDesktopFiles categoryPriorities home readDir }.priorityFor name exeBasename

/-- Files of one directory agree on an executable that no directory before it has. -/
def Agreeing (categoryPriorities : Map String Nat) (home : String) (readDir : ReadDir) : Prop :=
  ∀ before dir after, applicationDirs home = before ++ dir :: after → ∀ exe,
    (∀ earlier ∈ before, ∀ prio, ¬ Gives categoryPriorities readDir earlier exe prio) →
      ∀ p q, Gives categoryPriorities readDir dir exe p →
        Gives categoryPriorities readDir dir exe q → p = q

section

variable {categoryPriorities : Map String Nat} {home exe : String} {readDir readDir' : ReadDir}

/-! ## The index -/

/-- What a directory gives for an executable. -/
def found (categoryPriorities : Map String Nat) (readDir : ReadDir) (exe dir : String) :
    Option Nat :=
  (readDir dir).bind (List.findSome? (valueFor (indexed categoryPriorities) exe))

theorem gives_of_found {dir : String} {prio : Nat}
    (h : found categoryPriorities readDir exe dir = some prio) :
    Gives categoryPriorities readDir dir exe prio := by
  obtain ⟨entries, hDir, hFound⟩ := Option.bind_eq_some_iff.mp h
  obtain ⟨entry, hEntry, hValue⟩ := List.exists_of_findSome?_eq_some hFound
  exact ⟨entries, entry, hDir, hEntry, valueFor_eq_some_iff.mp hValue⟩

theorem found_eq_none_iff {dir : String} :
    found categoryPriorities readDir exe dir = none ↔
      ∀ prio, ¬ Gives categoryPriorities readDir dir exe prio := by
  constructor
  · rintro h prio ⟨entries, entry, hDir, hEntry, hIndexed⟩
    unfold found at h
    rw [hDir, Option.bind_some, List.findSome?_eq_none_iff] at h
    have hNone := h entry hEntry
    rw [valueFor_eq_some_iff.mpr hIndexed] at hNone
    cases hNone
  · intro h
    cases hFound : found categoryPriorities readDir exe dir with
    | none => rfl
    | some prio => exact absurd (gives_of_found hFound) (h prio)

/-- The first directory that has the executable. -/
theorem lookup_foldl_scanDir (dirs : List String) (index : Map String Nat) :
    (dirs.foldl (scanDir categoryPriorities readDir) index).lookup exe =
      (index.lookup exe).or (dirs.findSome? (found categoryPriorities readDir exe)) := by
  induction dirs generalizing index with
  | nil => exact (Option.or_none).symm
  | cons dir rest ih =>
      have hHere : (scanDir categoryPriorities readDir index dir).lookup exe =
          (index.lookup exe).or (found categoryPriorities readDir exe dir) := by
        unfold scanDir found
        cases readDir dir with
        | none => exact (Option.or_none).symm
        | some entries => exact lookup_insertFirsts index entries exe
      rw [List.foldl_cons, ih, hHere, List.findSome?_cons, Option.or_assoc]
      cases found categoryPriorities readDir exe dir with
      | none => rfl
      | some prio => rfl

theorem lookup_scanDesktopFiles :
    (scanDesktopFiles categoryPriorities home readDir).lookup exe =
      (applicationDirs home).findSome? (found categoryPriorities readDir exe) :=
  (lookup_foldl_scanDir _ ∅).trans Option.none_or

/-- The desktop entry of a file with the extension. -/
def desktopEntryOf (entry : DirEntry) : Option DesktopEntry :=
  if extension entry.name = some "desktop".toList then entry.content.bind desktopEntry else none

theorem indexed_eq (categoryPriorities : Map String Nat) (entry : DirEntry) :
    indexed categoryPriorities entry = (desktopEntryOf entry).bind fun d =>
      (d.priority categoryPriorities).map fun prio => (d.exe, prio) := by
  unfold indexed desktopEntryOf
  split
  · cases entry.content with
    | none => rfl
    | some content => rfl
  · rfl

/-- **The scan of `Reload`**, of the files in the order of the directories and of
their listings. -/
theorem scanDesktopFiles_eq (categoryPriorities : Map String Nat) (home : String)
    (readDir : ReadDir) :
    scanDesktopFiles categoryPriorities home readDir =
      Reload.scanDesktopFiles categoryPriorities
        ((applicationDirs home).flatMap fun dir =>
          ((readDir dir).getD []).filterMap desktopEntryOf) := by
  unfold scanDesktopFiles Reload.scanDesktopFiles
  generalize (∅ : Map String Nat) = index
  induction applicationDirs home generalizing index with
  | nil => rfl
  | cons dir rest ih =>
      rw [List.foldl_cons, ih, List.flatMap_cons, List.foldl_append]
      congr 1
      unfold scanDir
      cases readDir dir with
      | none => rfl
      | some entries =>
          show entries.foldl (insertFirst (indexed categoryPriorities)) index =
            (entries.filterMap desktopEntryOf).foldl _ index
          clear ih
          induction entries generalizing index with
          | nil => rfl
          | cons entry more ihEntries =>
              rw [List.foldl_cons, ihEntries]
              unfold insertFirst
              rw [indexed_eq, List.filterMap_cons]
              cases desktopEntryOf entry with
              | none => rfl
              | some d =>
                  rw [List.foldl_cons]
                  congr 1
                  dsimp only [Option.bind_some]
                  cases d.priority categoryPriorities with
                  | none => rfl
                  | some prio =>
                      dsimp only [Option.map_some]
                      cases index.lookup d.exe with
                      | none => rfl
                      | some earlier => rfl

/-! ## Agreeing files -/

theorem found_relisted (hRelisted : Relisted readDir' readDir) {dir : String}
    (hAgree : ∀ p q, Gives categoryPriorities readDir dir exe p →
      Gives categoryPriorities readDir dir exe q → p = q) :
    found categoryPriorities readDir' exe dir = found categoryPriorities readDir exe dir := by
  have hRel := hRelisted dir
  unfold found
  cases hDir : readDir dir with
  | none =>
      cases hOther : readDir' dir with
      | none => rfl
      | some listed =>
          rw [hDir, hOther] at hRel
          cases hRel
  | some entries =>
      cases hOther : readDir' dir with
      | none =>
          rw [hDir, hOther] at hRel
          cases hRel
      | some listed =>
          rw [hDir, hOther] at hRel
          cases hRel with
          | some hPerm =>
              apply findSome?_perm hPerm
              intro x hx y hy p q hp hq
              exact hAgree p q ⟨entries, x, hDir, hx, valueFor_eq_some_iff.mp hp⟩
                ⟨entries, y, hDir, hy, valueFor_eq_some_iff.mp hq⟩

/-- **Files that agree give one index**, whatever the listings. -/
theorem findSome?_relisted (hRelisted : Relisted readDir' readDir)
    (hAgreeing : Agreeing categoryPriorities home readDir) (exe : String)
    {rest : List String} (before : List String) (hDirs : applicationDirs home = before ++ rest)
    (hBefore : ∀ earlier ∈ before, ∀ prio, ¬ Gives categoryPriorities readDir earlier exe prio) :
    rest.findSome? (found categoryPriorities readDir' exe) =
      rest.findSome? (found categoryPriorities readDir exe) := by
  induction rest generalizing before with
  | nil => rfl
  | cons dir rest ih =>
      have hHere := found_relisted hRelisted (hAgreeing before dir rest hDirs exe hBefore)
      rw [List.findSome?_cons, List.findSome?_cons, hHere]
      cases hFound : found categoryPriorities readDir exe dir with
      | some prio => rfl
      | none =>
          apply ih (before ++ [dir])
          · rw [List.append_assoc]
            exact hDirs
          · intro earlier hEarlier
            cases List.mem_append.mp hEarlier with
            | inl hIn => exact hBefore earlier hIn
            | inr hDir =>
                rw [List.mem_singleton.mp hDir]
                exact found_eq_none_iff.mp hFound

theorem stable_of_agreeing (h : Agreeing categoryPriorities home readDir) :
    Stable categoryPriorities home readDir := by
  have hIndex : ∀ readDir', Relisted readDir' readDir → ∀ exe,
      (scanDesktopFiles categoryPriorities home readDir').lookup exe =
        (scanDesktopFiles categoryPriorities home readDir).lookup exe := by
    intro readDir' hRelisted exe
    rw [lookup_scanDesktopFiles, lookup_scanDesktopFiles]
    exact findSome?_relisted hRelisted h exe [] rfl fun _ hNone => nomatch hNone
  refine ⟨hIndex, ?_⟩
  intro readDir' hRelisted cfg name exeBasename
  unfold CompiledConfig.priorityFor
  dsimp only
  rw [show (scanDesktopFiles categoryPriorities home readDir').lookup =
    (scanDesktopFiles categoryPriorities home readDir).lookup from
      funext (hIndex readDir' hRelisted)]

/-- Any file of a directory may be listed first. -/
theorem exists_relisted {before after : List String} {dir : String} {prio : Nat}
    (hDirs : applicationDirs home = before ++ dir :: after)
    (hBefore : ∀ earlier ∈ before, ∀ prio, ¬ Gives categoryPriorities readDir earlier exe prio)
    (h : Gives categoryPriorities readDir dir exe prio) :
    ∃ readDir', Relisted readDir' readDir ∧
      (scanDesktopFiles categoryPriorities home readDir').lookup exe = some prio := by
  obtain ⟨entries, entry, hDir, hEntry, hIndexed⟩ := h
  obtain ⟨listed, hPerm, hFirst⟩ :=
    exists_perm_findSome? hEntry (valueFor_eq_some_iff.mpr hIndexed)
  refine ⟨Function.update readDir dir (some listed), ?_, ?_⟩
  · intro other
    by_cases hOther : other = dir
    · rw [hOther, Function.update_self, hDir]
      exact .some hPerm
    · rw [Function.update_of_ne hOther]
      cases readDir other with
      | none => exact .none
      | some same => exact .some (.refl same)
  · have hEarlier : before.findSome?
        (found categoryPriorities (Function.update readDir dir (some listed)) exe) = none := by
      rw [List.findSome?_eq_none_iff]
      intro earlier hIn
      have hOther : earlier ≠ dir := by
        rintro rfl
        exact hBefore earlier hIn prio ⟨entries, entry, hDir, hEntry, hIndexed⟩
      have hNone := found_eq_none_iff.mpr (hBefore earlier hIn)
      unfold found at hNone ⊢
      rw [Function.update_of_ne hOther]
      exact hNone
    have hHere : found categoryPriorities (Function.update readDir dir (some listed)) exe dir =
        some prio := by
      unfold found
      rw [Function.update_self]
      exact hFirst
    rw [lookup_scanDesktopFiles, hDirs, List.findSome?_append, hEarlier, List.findSome?_cons, hHere]
    rfl

/-- **When the listings make no difference.** -/
theorem stable_iff (categoryPriorities : Map String Nat) (home : String) (readDir : ReadDir) :
    Stable categoryPriorities home readDir ↔ Agreeing categoryPriorities home readDir := by
  refine ⟨?_, stable_of_agreeing⟩
  intro hStable before dir after hDirs exe hBefore p q hp hq
  obtain ⟨first, hFirst, hFirstLookup⟩ := exists_relisted hDirs hBefore hp
  obtain ⟨second, hSecond, hSecondLookup⟩ := exists_relisted hDirs hBefore hq
  rw [hStable.index first hFirst exe] at hFirstLookup
  rw [hStable.index second hSecond exe] at hSecondLookup
  rw [hFirstLookup] at hSecondLookup
  exact Option.some.inj hSecondLookup

end

/-! ## Two flatpaks -/

def chess : DirEntry where
  name := "chess.desktop".toList
  content := some
    "[Desktop Entry]\nExec=/usr/bin/flatpak run chess\nCategories=GNOME;Game;\n".toList

def clocks : DirEntry where
  name := "clocks.desktop".toList
  content := some
    "[Desktop Entry]\nExec=/usr/bin/flatpak run clocks\nCategories=Utility;\n".toList

/-- Both are started by the same program. -/
def flatpaks : ReadDir := fun dir =>
  if dir = "/var/lib/flatpak/exports/share/applications" then some [chess, clocks] else none

/-- Whether `flatpak` is a game depends on which is listed first. -/
theorem flatpaks_unstable :
    ¬ ∀ (categoryPriorities : Map String Nat) (home : String) (readDir : ReadDir),
      Stable categoryPriorities home readDir := by
  intro hAll
  have hStable := hAll (builtinConfig ()).categoryPriorities "/home/user" flatpaks
  have hDirs : applicationDirs "/home/user" = (applicationDirs "/home/user").take 3 ++
      "/var/lib/flatpak/exports/share/applications" :: [] := rfl
  have hBefore : ∀ earlier ∈ (applicationDirs "/home/user").take 3, ∀ prio,
      ¬ Gives (builtinConfig ()).categoryPriorities flatpaks earlier "flatpak" prio := by
    rintro earlier hEarlier prio ⟨entries, entry, hDir, -⟩
    have hOther : ∀ dir ∈ (applicationDirs "/home/user").take 3,
        dir ≠ "/var/lib/flatpak/exports/share/applications" := by decide
    unfold flatpaks at hDir
    rw [if_neg (hOther earlier hEarlier)] at hDir
    cases hDir
  have hChess : indexed (builtinConfig ()).categoryPriorities chess = some ("flatpak", 30) := by
    unfold chess
    repeat rewrite [String.toList_ofList]
    decide +kernel
  have hClocks : indexed (builtinConfig ()).categoryPriorities clocks = some ("flatpak", 65) := by
    unfold clocks
    repeat rewrite [String.toList_ofList]
    decide +kernel
  obtain ⟨first, hFirst, hGame⟩ := exists_relisted hDirs hBefore
    ⟨[chess, clocks], chess, rfl, List.mem_cons_self, hChess⟩
  obtain ⟨second, hSecond, hUtility⟩ := exists_relisted hDirs hBefore
    ⟨[chess, clocks], clocks, rfl, List.mem_cons_of_mem _ List.mem_cons_self, hClocks⟩
  rw [hStable.index first hFirst] at hGame
  rw [hStable.index second hSecond, hGame] at hUtility
  cases hUtility

end Mgd.Config.DesktopScan
