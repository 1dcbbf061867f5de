import Mgd.Lib.Paths
import Mgd.Lib.Run
import Mgd.ProcessNames

/-!
# The checkpoint wrapper

`mgd-checkpoint` holds capabilities, and runs CRIU on an images directory of its
caller's choice.  It validates what the argument resolves to and then hands on
the argument.  Between any two of its steps another process may change the file
system; `only_own_directory` says which changes, and which directories beside
the home, it does not withstand.
-/

namespace Mgd.CheckpointWrapper

open Mgd.Lib.Run Mgd.Lib.Text Mgd.Lib.Paths Mgd.ProcessNames

/-! ## The machine -/

/-- The user who calls, with the home directory of the passwd entry. -/
structure Caller where
  uid : Nat
  home : Option (List Char)

inductive Action
  | dump (pid : Nat)
  | restore

structure Invocation where
  action : Action
  imagesDir : List Char

/-- What the wrapper looks at.  Its working directory is a directory of the
tree. -/
structure World where
  tree : Tree
  cwd : List Name
  cwdDirs : tree.Dirs cwd
  /-- the owner of `/proc/<pid>` -/
  procOwner : Nat → Option Nat
  procCgroup : Nat → Option (List Char)
  /-- one of `CRIU_CANDIDATES` can be executed -/
  criu : Bool

def World.resolve (w : World) (text : List Char) : Option (List Name) := w.tree.resolve w.cwd text

def exitSecurityFail : Nat := 2

def exitCriuFail : Nat := 3

/-- Where the wrapper is; `validate_dir` is the steps from `pathExists` to
`home`. -/
inductive Pc
  | procMeta (pid : Nat)
  | cgroup (pid : Nat)
  | pathExists
  | canonicalize
  | metadata (canonical : List Name)
  | home (canonical : List Name)
  | resolveCriuPath
  | spawn
  | exited (code : Nat)
  /-- CRIU runs, with the world as it was executed in -/
  | running (world : World)

structure State where
  world : World
  pc : Pc

inductive Move
  | wrapper
  /-- another process changes the world -/
  | change (world : World)

section Wrapper

variable (caller : Caller) (inv : Invocation)

def start (w : World) : State where
  world := w
  pc :=
    match inv.action with
    | .dump pid => .procMeta pid
    | .restore => .pathExists

/-- The next step of the wrapper. -/
def next (w : World) : Pc → Pc
  | .procMeta pid =>
      if w.procOwner pid = some caller.uid then .cgroup pid else .exited exitSecurityFail
  | .cgroup pid =>
      match w.procCgroup pid with
      | some data =>
          if isCgroupInUserSlice data then .pathExists else .exited exitSecurityFail
      | none => .exited exitSecurityFail
  | .pathExists =>
      if (w.resolve inv.imagesDir).isSome then .canonicalize else .exited exitSecurityFail
  | .canonicalize =>
      match w.resolve inv.imagesDir with
      | some canonical => .metadata canonical
      | none => .exited exitSecurityFail
  | .metadata canonical =>
      if (w.resolve (pathText canonical)).bind w.tree.ownerAt = some caller.uid then
        .home canonical
      else .exited exitSecurityFail
  | .home canonical =>
      match caller.home with
      | some home =>
          -- `starts_with` on the text
          if (stripPrefix home (pathText canonical)).isSome then .resolveCriuPath
          else .exited exitSecurityFail
      | none => .exited exitSecurityFail
  | .resolveCriuPath => if w.criu then .spawn else .exited exitCriuFail
  | .spawn => if w.criu then .running w else .exited exitCriuFail
  | .exited code => .exited code
  | .running world => .running world

def step (s : State) : Move → State
  | .wrapper => { s with pc := next caller inv s.world s.pc }
  | .change world => { s with world := world }

/-! ## What it promises -/

/-- The argument is the caller's own, in the caller's home directory. -/
def Own (w : World) : Prop :=
  ∃ home ∈ caller.home, ∃ path ∈ w.resolve inv.imagesDir,
    w.tree.ownerAt path = some caller.uid ∧ components home <+: path

/-- CRIU runs on a directory that was the caller's own when it was executed. -/
def OnlyOwn (s : State) : Prop := ∀ world, s.pc = .running world → Own caller inv world

/-- The argument resolves to the same path, of the same owner. -/
def SameTarget (w w' : World) : Prop :=
  w'.resolve inv.imagesDir = w.resolve inv.imagesDir ∧
    ∀ path ∈ w.resolve inv.imagesDir, w'.tree.ownerAt path = w.tree.ownerAt path

/-- The argument has been resolved, and CRIU is not executed yet. -/
def Pc.between : Pc → Bool
  | .metadata _ | .home _ | .resolveCriuPath | .spawn => true
  | _ => false

/-- What starts with the text of the home directory goes on at a boundary. -/
def AtBoundary : Pc → Prop
  | .home canonical => ∀ home ∈ caller.home,
      ∀ rest ∈ stripPrefix home (pathText canonical), Boundary home rest
  | _ => True

/-- A change between validation and execution leaves the target as it was, and
the check of the text compares components. -/
def Benign (s : State) : Move → Prop
  | .change world => s.pc.between = true → SameTarget inv s.world world
  | .wrapper => AtBoundary caller s.pc

instance (w w' : World) : Decidable (SameTarget inv w w') := inferInstanceAs (Decidable (_ ∧ _))

instance : DecidablePred (AtBoundary caller)
  | .home canonical => inferInstanceAs (Decidable (∀ home ∈ caller.home,
      ∀ rest ∈ stripPrefix home (pathText canonical), Boundary home rest))
  | .procMeta _ | .cgroup _ | .pathExists | .canonicalize | .metadata _ | .resolveCriuPath
  | .spawn | .exited _ | .running _ => isTrue trivial

instance (s : State) : DecidablePred (Benign caller inv s)
  | .change world => inferInstanceAs (Decidable (_ → SameTarget inv s.world world))
  | .wrapper => inferInstanceAs (Decidable (AtBoundary caller s.pc))

/-- At the check of the text, the directory is the caller's own exactly when the
text goes on at a boundary. -/
def DecidedByBoundary (s : State) (_ : Move) : Prop :=
  ∀ canonical, s.pc = .home canonical → ∀ home ∈ caller.home, ∀ rest,
    stripPrefix home (pathText canonical) = some rest →
      (Own caller inv s.world ↔ Boundary home rest)

/-! ## One step -/

/-- What has been validated. -/
def ValidatedAt (w : World) : Pc → Prop
  | .metadata canonical => w.resolve inv.imagesDir = some canonical
  | .home canonical =>
      w.resolve inv.imagesDir = some canonical ∧ w.tree.ownerAt canonical = some caller.uid
  | .resolveCriuPath | .spawn => Own caller inv w
  | .running world => Own caller inv world
  | _ => True

def Validated (s : State) : Prop := ValidatedAt caller inv s.world s.pc

variable {caller inv}

theorem Own.of_same {w w' : World} (h : Own caller inv w) (hSame : SameTarget inv w w') :
    Own caller inv w' := by
  obtain ⟨home, hHome, path, hPath, hOwner, hBelow⟩ := h
  refine ⟨home, hHome, path, ?_, ?_, hBelow⟩
  · rw [hSame.1]
    exact hPath
  · rw [hSame.2 path hPath]
    exact hOwner

/-- A resolved path resolves to itself. -/
theorem resolve_resolved {w : World} {text : List Char} {path : List Name}
    (h : w.resolve text = some path) : w.resolve (pathText path) = some path := by
  obtain ⟨hCanonical, hLength⟩ := canonical_resolve w.cwdDirs h
  exact resolve_canonical hCanonical hLength w.cwd

/-- A path below the text of the home directory is below the home directory
exactly when the text goes on at a boundary. -/
theorem below_home_iff {w : World} {text home rest : List Char} {path : List Name}
    (h : w.resolve text = some path) (hText : stripPrefix home (pathText path) = some rest) :
    components home <+: path ↔ Boundary home rest := by
  have hNames := isName_of_canonical (canonical_resolve w.cwdDirs h).1
  have hPath : pathText path = home ++ rest := stripPrefix_eq_some_iff.mp hText
  rw [← components_prefix_iff, ← hPath, components_pathText hNames]

theorem own_iff_boundary {w : World} {home rest : List Char} {canonical : List Name}
    (h : w.resolve inv.imagesDir = some canonical)
    (hOwner : w.tree.ownerAt canonical = some caller.uid) (hHome : caller.home = some home)
    (hText : stripPrefix home (pathText canonical) = some rest) :
    Own caller inv w ↔ Boundary home rest := by
  rw [← below_home_iff h hText]
  constructor
  · rintro ⟨home', hHome', path, hPath, -, hBelow⟩
    rw [hHome] at hHome'
    cases hHome'
    rw [h] at hPath
    cases hPath
    exact hBelow
  · intro hBelow
    exact ⟨home, hHome, canonical, h, hOwner, hBelow⟩

/-- **A change that leaves the target alone** leaves the validation valid. -/
theorem validated_change {s : State} (h : Validated caller inv s) {w : World}
    (hBenign : s.pc.between = true → SameTarget inv s.world w) :
    Validated caller inv { s with world := w } := by
  obtain ⟨world, pc⟩ := s
  cases pc with
  | metadata canonical => exact (hBenign rfl).1.trans h
  | home canonical =>
      exact ⟨(hBenign rfl).1.trans h.1, ((hBenign rfl).2 canonical h.1).trans h.2⟩
  | resolveCriuPath => exact Own.of_same h (hBenign rfl)
  | spawn => exact Own.of_same h (hBenign rfl)
  | running world => exact h
  | procMeta pid => trivial
  | cgroup pid => trivial
  | pathExists => trivial
  | canonicalize => trivial
  | exited code => trivial

/-- **A step of the wrapper** keeps the validation valid. -/
theorem validated_wrapper {s : State} (h : Validated caller inv s)
    (hBenign : Benign caller inv s .wrapper) :
    Validated caller inv (step caller inv s .wrapper) := by
  obtain ⟨world, pc⟩ := s
  show ValidatedAt caller inv world (next caller inv world pc)
  unfold next
  cases pc with
  | procMeta pid => dsimp only; split <;> trivial
  | cgroup pid =>
      dsimp only
      split
      · split <;> trivial
      · trivial
  | pathExists => dsimp only; split <;> trivial
  | canonicalize =>
      dsimp only
      cases hResolve : world.resolve inv.imagesDir with
      | none => trivial
      | some canonical => exact hResolve
  | metadata canonical =>
      have hResolved : world.resolve inv.imagesDir = some canonical := h
      dsimp only
      split
      · next hOwner =>
          rw [resolve_resolved hResolved] at hOwner
          exact ⟨hResolved, hOwner⟩
      · trivial
  | home canonical =>
      obtain ⟨hResolved, hOwner⟩ := h
      dsimp only
      cases hHome : caller.home with
      | none => trivial
      | some home =>
          dsimp only
          cases hText : stripPrefix home (pathText canonical) with
          | none => trivial
          | some rest =>
              exact (own_iff_boundary hResolved hOwner hHome hText).mpr
                (hBenign home hHome rest hText)
  | resolveCriuPath =>
      dsimp only
      split
      · exact h
      · trivial
  | spawn =>
      dsimp only
      split
      · exact h
      · trivial
  | exited code => trivial
  | running world => exact h

theorem validated_step {s : State} (h : Validated caller inv s) {m : Move}
    (hBenign : Benign caller inv s m) : Validated caller inv (step caller inv s m) := by
  cases m with
  | wrapper => exact validated_wrapper h hBenign
  | change world => exact validated_change h hBenign

theorem validated_start (w : World) : Validated caller inv (start inv w) := by
  unfold start Validated
  dsimp only
  cases inv.action <;> trivial

theorem onlyOwn_of_validated {s : State} (h : Validated caller inv s) : OnlyOwn caller inv s := by
  intro world hRunning
  unfold Validated at h
  rw [hRunning] at h
  exact h

theorem decided_of_validated {s : State} (h : Validated caller inv s) (m : Move) :
    DecidedByBoundary caller inv s m := by
  intro canonical hPc home hHome rest hText
  unfold Validated at h
  rw [hPc] at h
  exact own_iff_boundary h.1 h.2 hHome hText

end Wrapper

/-- **CRIU runs only on the caller's own directory**, if the changes on the way
and the directories beside the home are benign. -/
theorem only_own_directory (caller : Caller) (inv : Invocation) (w : World) (moves : List Move)
    (h : EveryStep (step caller inv) (Benign caller inv) (start inv w) moves) :
    Always (step caller inv) (OnlyOwn caller inv) (start inv w) moves ∧
      EveryStep (step caller inv) (DecidedByBoundary caller inv) (start inv w) moves := by
  have hKeeps : ∀ (s : State) (m : Move), Validated caller inv s → Benign caller inv s m →
      Validated caller inv (step caller inv s m) := fun _ _ hInv hOk => validated_step hInv hOk
  have hAlways := always_of_invariant hKeeps (validated_start w) h
  exact ⟨hAlways.imp fun _ hInv => onlyOwn_of_validated hInv,
    everyStep_of_invariant hKeeps (fun _ m hInv _ => decided_of_validated hInv m)
      (validated_start w) h⟩

/-! ## Two homes -/

/-- `/home/bob`, of user 1000, and beside it `/home/bob2` of the same user. -/
def homes (images : List Char) : Tree where
  node path :=
    if path = ["home".toList] then some (.dir 0)
    else if path = ["home".toList, "bob".toList] then some (.dir 1000)
    else if path = ["home".toList, "bob".toList, "images".toList] then some (.link images)
    else if path = ["home".toList, "bob".toList, "dump".toList] then some (.dir 1000)
    else if path = ["home".toList, "bob2".toList] then some (.dir 1000)
    else if path = ["etc".toList] then some (.dir 0)
    else none
  limit := 4096

def bob : Caller := ⟨1000, some "/home/bob".toList⟩

def restoreFrom (imagesDir : String) : Invocation := ⟨.restore, imagesDir.toList⟩

/-- A machine on which `images` of bob is a link. -/
def machine (images : String) : World where
  tree := homes images.toList
  cwd := []
  cwdDirs := dirs_nil
  procOwner := fun _ => none
  procCgroup := fun _ => none
  criu := true

/-- What the images directory is when CRIU runs. -/
def imagesOf (inv : Invocation) (s : State) : Option (Option (List Name)) :=
  match s.pc with
  | .running world => some (world.resolve inv.imagesDir)
  | _ => none

theorem not_own_of_imagesOf {caller : Caller} {inv : Invocation} {s : State} {path : List Name}
    (hImages : imagesOf inv s = some (some path))
    (hOutside : ∀ home ∈ caller.home, ¬ components home <+: path) : ¬ OnlyOwn caller inv s := by
  intro hOwn
  unfold imagesOf at hImages
  split at hImages
  · next world hRunning =>
      obtain ⟨home, hHome, path', hPath, -, hBelow⟩ := hOwn world hRunning
      cases (Option.some.inj hImages).symm.trans hPath
      exact hOutside home hHome hBelow
  · cases hImages

/-- Six steps of the wrapper, from the first look to CRIU. -/
def toTheEnd : List Move := List.replicate 6 .wrapper

/-- Another process turns the link to `/etc` before CRIU is executed. -/
def relinked : List Move := List.replicate 5 .wrapper ++ [.change (machine "/etc"), .wrapper]

/-- **CRIU runs beside the home and in `/etc`.** -/
theorem sibling_and_relink_accepted :
    ¬ Always (step bob (restoreFrom "/home/bob2")) (OnlyOwn bob (restoreFrom "/home/bob2"))
        (start (restoreFrom "/home/bob2") (machine "/home/bob/dump")) toTheEnd ∧
      ¬ Always (step bob (restoreFrom "/home/bob/images"))
        (OnlyOwn bob (restoreFrom "/home/bob/images"))
        (start (restoreFrom "/home/bob/images") (machine "/home/bob/dump")) relinked := by
  constructor
  · intro h
    have hImages : imagesOf (restoreFrom "/home/bob2") (run (step bob (restoreFrom "/home/bob2"))
        (start (restoreFrom "/home/bob2") (machine "/home/bob/dump")) toTheEnd) =
          some (some ["home".toList, "bob2".toList]) := by decide +kernel
    exact not_own_of_imagesOf hImages (by decide +kernel) h.last
  · intro h
    have hImages : imagesOf (restoreFrom "/home/bob/images")
        (run (step bob (restoreFrom "/home/bob/images"))
          (start (restoreFrom "/home/bob/images") (machine "/home/bob/dump")) relinked) =
            some (some ["etc".toList]) := by decide +kernel
    exact not_own_of_imagesOf hImages (by decide +kernel) h.last

/-- A link within the home, turned before the wrapper looks. -/
theorem link_in_home_served :
    Always (step bob (restoreFrom "/home/bob/images"))
        (OnlyOwn bob (restoreFrom "/home/bob/images"))
        (start (restoreFrom "/home/bob/images") (machine "/etc"))
        (.change (machine "/home/bob/dump") :: toTheEnd) ∧
      imagesOf (restoreFrom "/home/bob/images") (run (step bob (restoreFrom "/home/bob/images"))
        (start (restoreFrom "/home/bob/images") (machine "/etc"))
        (.change (machine "/home/bob/dump") :: toTheEnd)) =
          some (some ["home".toList, "bob".toList, "dump".toList]) :=
  ⟨(only_own_directory bob (restoreFrom "/home/bob/images") (machine "/etc")
    (.change (machine "/home/bob/dump") :: toTheEnd) (by decide +kernel)).1, by decide +kernel⟩

end Mgd.CheckpointWrapper
