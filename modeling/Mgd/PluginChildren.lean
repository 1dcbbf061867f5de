import Mgd.UnfreezeCommand
import Mgd.Lib.Run

/-!
# The plugin processes

`plugin_server.rs` starts the plugins the session calls for, looks every minute which
of them have exited, starts these again, and sends the rest a SIGTERM at the end.
`PLUGIN_CHILDREN` has one entry per plugin name.

A child that has exited keeps its PID until the daemon waits for it.  A spawn that
fails leaves no entry, so nothing looks for that plugin again.  `supervised_run` states
what follows from the two, whenever the plugins exit and whatever PIDs the kernel gives.
-/

namespace Mgd.PluginChildren

open Mgd.Types Mgd.Lib.Run Mgd.Lib.AssocMap
open Mgd.UnfreezeCommand (contains)

/-! ## Which plugins -/

section Init

-- `str::to_lowercase`
variable (toLowercase : String → String)

def initDeEnvironment (desktop : String) : List String :=
  if contains (toLowercase desktop) "kde" then ["mgd-kde"] else []

def gpuPlugin (driver : String) : Option String :=
  if driver = "i915" ∨ driver = "xe" then some "mgd-gpu-intel"
  else if driver = "amdgpu" then some "mgd-gpu-amd"
  else none

/-- The first card with a known driver decides. -/
def initGpuDriver (drivers : List String) : List String :=
  (drivers.findSome? gpuPlugin).toList

/-- The plugins to be spawned, from `XDG_CURRENT_DESKTOP` and the drivers of the cards. -/
def initPlugins (desktop : String) (drivers : List String) : List String :=
  initDeEnvironment toLowercase desktop ++ initGpuDriver drivers

theorem gpuPlugin_ne_kde {driver plugin : String} (h : gpuPlugin driver = some plugin) :
    plugin ≠ "mgd-kde" := by
  unfold gpuPlugin at h
  split at h
  · rw [← Option.some.inj h]
    decide
  · split at h
    · rw [← Option.some.inj h]
      decide
    · cases h

theorem initPlugins_nodup (desktop : String) (drivers : List String) :
    (initPlugins toLowercase desktop drivers).Nodup := by
  unfold initPlugins
  refine List.Nodup.append ?_ ?_ ?_
  · unfold initDeEnvironment
    split
    · exact List.nodup_singleton _
    · exact List.nodup_nil
  · unfold initGpuDriver
    cases drivers.findSome? gpuPlugin with
    | none => exact List.nodup_nil
    | some plugin => exact List.nodup_singleton plugin
  · intro n hDe hGpu
    have hKde : n = "mgd-kde" := by
      unfold initDeEnvironment at hDe
      split at hDe
      · exact List.mem_singleton.mp hDe
      · cases hDe
    obtain ⟨driver, -, hPlugin⟩ := List.exists_of_findSome?_eq_some (Option.mem_toList.mp hGpu)
    exact gpuPlugin_ne_kde hPlugin hKde

end Init

/-! ## The daemon and the kernel's processes -/

inductive Proc
  /-- A child of the daemon; one that has exited has not been waited for. -/
  | plugin (name : String) (running : Bool)
  | stranger
deriving DecidableEq

/-- A child that can be waited for. -/
def exited : Option Proc → Bool
  | some (.plugin _ running) => !running
  | _ => false

/-- Where the thread that owns `PLUGIN_CHILDREN` is. -/
inductive Phase
  /-- `spawn_plugin_binary` for each, at the start or after a check -/
  | spawning (todo : List String)
  | idle
  /-- `try_wait` for each child, and those found dead so far -/
  | waiting (todo dead : List String)
  /-- `shutdown_plugins` -/
  | signalling (todo : List String)
  | stopped

/-- The names that wait for a spawn, their child waited for or never there. -/
def Phase.noted : Phase → List String
  | .spawning todo => todo
  | .waiting _ dead => dead
  | _ => []

/-- The names the thread still works on. -/
def Phase.names : Phase → List String
  | .spawning todo => todo
  | .waiting todo dead => dead ++ todo
  | _ => []

structure Daemon where
  procs : Pid → Option Proc
  /-- `PLUGIN_CHILDREN`: the child of a name -/
  children : Map String Pid
  phase : Phase
  /-- the calls of `spawn_plugin_binary` -/
  attempts : List String
  /-- those that failed -/
  failed : List String
  /-- the plugins that exited, each time -/
  exits : List String
  /-- the PIDs sent a SIGTERM, and what had them -/
  signalled : List (Pid × Option Proc)

inductive Move
  /-- The kernel's answer to a spawn: a free PID, or a failure. -/
  | spawn (answer : Option Pid)
  | spawned
  /-- The map is iterated in any order. -/
  | check (order : List String)
  | tryWait (fails : Bool)
  | remove
  | shutdown (order : List String)
  | kill
  | clear
  | exit (pid : Pid)
  | otherStarts (pid : Pid)
  | otherGone (pid : Pid)

namespace Daemon

/-- Nothing of an earlier daemon is a child of this one. -/
def start (plugins : List String) (taken : Pid → Bool) : Daemon where
  procs := fun pid => if taken pid then some .stranger else none
  children := ∅
  phase := .spawning plugins
  attempts := []
  failed := []
  exits := []
  signalled := []

def setProc (d : Daemon) (pid : Pid) (proc : Option Proc) : Daemon :=
  { d with procs := fun p => if p = pid then proc else d.procs p }

/-- `spawn_plugin_binary` -/
def spawnPlugin (d : Daemon) (name : String) (rest : List String) : Option Pid → Daemon
  | none =>
      { d with
        attempts := d.attempts ++ [name]
        failed := d.failed ++ [name]
        phase := .spawning rest }
  | some pid =>
      if d.procs pid = none then
        { d.setProc pid (some (.plugin name true)) with
          children := d.children.insert name pid
          attempts := d.attempts ++ [name]
          phase := .spawning rest }
      else d

/-- `try_wait` for one child.  Waiting for a child that has exited frees its PID; an
error counts as still running. -/
def tryWaitChild (d : Daemon) (name : String) (rest dead : List String) (fails : Bool) : Daemon :=
  match d.children.lookup name with
  | none => { d with phase := .waiting rest dead }
  | some pid =>
      if exited (d.procs pid) = true ∧ fails = false then
        { d.setProc pid none with phase := .waiting rest (dead ++ [name]) }
      else { d with phase := .waiting rest dead }

def killChild (d : Daemon) (name : String) (rest : List String) : Daemon :=
  match d.children.lookup name with
  | none => { d with phase := .signalling rest }
  | some pid =>
      { d with
        signalled := d.signalled ++ [(pid, d.procs pid)]
        phase := .signalling rest }

/-- A move that does not fit does nothing. -/
def step (d : Daemon) : Move → Daemon
  | .spawn answer =>
      match d.phase with
      | .spawning (name :: rest) => d.spawnPlugin name rest answer
      | _ => d
  | .spawned =>
      match d.phase with
      | .spawning [] => { d with phase := .idle }
      | _ => d
  | .check order =>
      match d.phase with
      | .idle => if order.Perm d.children.keys then { d with phase := .waiting order [] } else d
      | _ => d
  | .tryWait fails =>
      match d.phase with
      | .waiting (name :: rest) dead => d.tryWaitChild name rest dead fails
      | _ => d
  | .remove =>
      match d.phase with
      | .waiting [] dead =>
          { d with
            children := retain (fun name _ => decide (name ∉ dead)) d.children
            phase := .spawning dead }
      | _ => d
  | .shutdown order =>
      match d.phase with
      | .idle => if order.Perm d.children.keys then { d with phase := .signalling order } else d
      | _ => d
  | .kill =>
      match d.phase with
      | .signalling (name :: rest) => d.killChild name rest
      | _ => d
  | .clear =>
      match d.phase with
      | .signalling [] => { d with children := ∅, phase := .stopped }
      | _ => d
  | .exit pid =>
      match d.procs pid with
      | some (.plugin name true) =>
          { d.setProc pid (some (.plugin name false)) with exits := d.exits ++ [name] }
      | _ => d
  | .otherStarts pid => if d.procs pid = none then d.setProc pid (some .stranger) else d
  | .otherGone pid => if d.procs pid = some .stranger then d.setProc pid none else d

/-! ## What a move does -/

/-- The moves that fit, and what they find. -/
inductive Steps (d : Daemon) : Daemon → Prop
  | same : Steps d d
  | spawnFailed {name : String} {rest : List String}
      (hPhase : d.phase = .spawning (name :: rest)) : Steps d (d.spawnPlugin name rest none)
  | spawnedAt {name : String} {rest : List String} {pid : Pid}
      (hPhase : d.phase = .spawning (name :: rest)) (hFree : d.procs pid = none) :
      Steps d
        { d.setProc pid (some (.plugin name true)) with
          children := d.children.insert name pid
          attempts := d.attempts ++ [name]
          phase := .spawning rest }
  | spawned (hPhase : d.phase = .spawning []) : Steps d { d with phase := .idle }
  | check {order : List String} (hPhase : d.phase = .idle) (hOrder : order.Perm d.children.keys) :
      Steps d { d with phase := .waiting order [] }
  | waited {name : String} {rest dead : List String} {pid : Pid}
      (hPhase : d.phase = .waiting (name :: rest) dead)
      (hChild : d.children.lookup name = some pid) (hExited : exited (d.procs pid) = true) :
      Steps d { d.setProc pid none with phase := .waiting rest (dead ++ [name]) }
  | notDead {name : String} {rest dead : List String}
      (hPhase : d.phase = .waiting (name :: rest) dead) :
      Steps d { d with phase := .waiting rest dead }
  | removed {dead : List String} (hPhase : d.phase = .waiting [] dead) :
      Steps d
        { d with
          children := retain (fun name _ => decide (name ∉ dead)) d.children
          phase := .spawning dead }
  | shutdown {order : List String} (hPhase : d.phase = .idle)
      (hOrder : order.Perm d.children.keys) : Steps d { d with phase := .signalling order }
  | killed {name : String} {rest : List String} {pid : Pid}
      (hPhase : d.phase = .signalling (name :: rest)) (hChild : d.children.lookup name = some pid) :
      Steps d
        { d with
          signalled := d.signalled ++ [(pid, d.procs pid)]
          phase := .signalling rest }
  | noChild {name : String} {rest : List String}
      (hPhase : d.phase = .signalling (name :: rest)) (hChild : d.children.lookup name = none) :
      Steps d { d with phase := .signalling rest }
  | cleared (hPhase : d.phase = .signalling []) :
      Steps d { d with children := ∅, phase := .stopped }
  | exits {name : String} {pid : Pid} (hRuns : d.procs pid = some (.plugin name true)) :
      Steps d
        { d.setProc pid (some (.plugin name false)) with exits := d.exits ++ [name] }
  | other {pid : Pid} {proc : Option Proc} (hOld : d.procs pid = none ∨ d.procs pid = some .stranger)
      (hNew : proc = none ∨ proc = some .stranger) : Steps d (d.setProc pid proc)

theorem steps_spawn (d : Daemon) (answer : Option Pid) : Steps d (d.step (.spawn answer)) := by
  rw [step]
  split
  · next name rest hPhase =>
      cases answer with
      | none => exact .spawnFailed hPhase
      | some pid =>
          rw [spawnPlugin]
          split
          · next hFree => exact .spawnedAt hPhase hFree
          · exact .same
  · exact .same

theorem steps_tryWait (d : Daemon) (fails : Bool) : Steps d (d.step (.tryWait fails)) := by
  rw [step]
  split
  · next name rest dead hPhase =>
      unfold tryWaitChild
      split
      · exact .notDead hPhase
      · next pid hChild =>
          split
          · next hExited => exact .waited hPhase hChild hExited.1
          · exact .notDead hPhase
  · exact .same

theorem steps_kill (d : Daemon) : Steps d (d.step .kill) := by
  rw [step]
  split
  · next name rest hPhase =>
      unfold killChild
      split
      · next hChild => exact .noChild hPhase hChild
      · next pid hChild => exact .killed hPhase hChild
  · exact .same

theorem steps_step (d : Daemon) (m : Move) : Steps d (d.step m) := by
  cases m with
  | spawn answer => exact steps_spawn d answer
  | spawned =>
      rw [step]
      split
      · next hPhase => exact .spawned hPhase
      · exact .same
  | check order =>
      rw [step]
      split
      · next hPhase =>
          split
          · next hOrder => exact .check hPhase hOrder
          · exact .same
      · exact .same
  | tryWait fails => exact steps_tryWait d fails
  | remove =>
      rw [step]
      split
      · next hPhase => exact .removed hPhase
      · exact .same
  | shutdown order =>
      rw [step]
      split
      · next hPhase =>
          split
          · next hOrder => exact .shutdown hPhase hOrder
          · exact .same
      · exact .same
  | kill => exact steps_kill d
  | clear =>
      rw [step]
      split
      · next hPhase => exact .cleared hPhase
      · exact .same
  | exit pid =>
      rw [step]
      split
      · next hRuns => exact .exits hRuns
      · exact .same
  | otherStarts pid =>
      rw [step]
      split
      · next hFree => exact .other (.inl hFree) (.inr rfl)
      · exact .same
  | otherGone pid =>
      rw [step]
      split
      · next hGone => exact .other (.inr hGone) (.inl rfl)
      · exact .same

/-! ## The children are the entries -/

structure Books (d : Daemon) : Prop where
  /-- An entry whose child was not waited for has its PID. -/
  held : ∀ n p, d.children.lookup n = some p → n ∉ d.phase.noted →
    ∃ r, d.procs p = some (.plugin n r)
  /-- A child has an entry until the daemon stops. -/
  known : d.phase ≠ .stopped → ∀ n p r, d.procs p = some (.plugin n r) →
    d.children.lookup n = some p ∧ n ∉ d.phase.noted
  one : ∀ n p q r r', d.procs p = some (.plugin n r) → d.procs q = some (.plugin n r') → p = q
  nodup : d.phase.names.Nodup
  gone : ∀ todo, d.phase = .spawning todo → ∀ n ∈ todo, d.children.lookup n = none

theorem setProc_procs (d : Daemon) (pid p : Pid) (proc : Option Proc) :
    (d.setProc pid proc).procs p = if p = pid then proc else d.procs p := rfl

theorem exited_iff (proc : Option Proc) :
    exited proc = true ↔ ∃ n, proc = some (.plugin n false) := by
  cases proc with
  | none => simp [exited]
  | some proc =>
      cases proc with
      | plugin name running => simp [exited]
      | stranger => simp [exited]

theorem books_start {plugins : List String} (h : plugins.Nodup) (taken : Pid → Bool) :
    Books (start plugins taken) := by
  have hNone : ∀ p n r, (start plugins taken).procs p ≠ some (.plugin n r) := by
    intro p n r
    show (if taken p then some Proc.stranger else none) ≠ _
    split <;> simp
  exact
    { held := fun n p hEntry _ => by cases hEntry
      known := fun _ n p r hProc => absurd hProc (hNone p n r)
      one := fun n p q r r' hProc _ => absurd hProc (hNone p n r)
      nodup := h
      gone := fun _ _ _ _ => rfl }

/-- The child that was waited for was the one of its entry. -/
theorem Books.waited {d : Daemon} (h : Books d) {name : String} {rest dead : List String} {pid : Pid}
    (hPhase : d.phase = .waiting (name :: rest) dead)
    (hChild : d.children.lookup name = some pid) (hExited : exited (d.procs pid) = true) :
    d.procs pid = some (.plugin name false) ∧ name ∉ dead := by
  have hNodup : (dead ++ name :: rest).Nodup := by simpa [hPhase, Phase.names] using h.nodup
  have hFresh : name ∉ dead := fun hMem =>
    (List.nodup_append.mp hNodup).2.2 name hMem name List.mem_cons_self rfl
  have hNoted : name ∉ d.phase.noted := by simpa [hPhase, Phase.noted] using hFresh
  obtain ⟨r, hProc⟩ := h.held name pid hChild hNoted
  obtain ⟨n, hZombie⟩ := (exited_iff _).mp hExited
  rw [hProc] at hZombie
  cases hZombie
  exact ⟨hProc, hFresh⟩

/-- Only the phase changed. -/
theorem Books.setPhase {d : Daemon} (h : Books d) {phase : Phase} (hLive : d.phase ≠ .stopped)
    (hNoted : phase.noted = d.phase.noted) (hNodup : phase.names.Nodup)
    (hGone : ∀ todo, phase = .spawning todo → ∀ n ∈ todo, d.children.lookup n = none) :
    Books { d with phase := phase } where
  held := fun n p hEntry hn => h.held n p hEntry (hNoted ▸ hn)
  known := fun _ n p r hProc => by
    obtain ⟨hEntry, hn⟩ := h.known hLive n p r hProc
    exact ⟨hEntry, fun hMem => hn (hNoted ▸ hMem)⟩
  one := h.one
  nodup := hNodup
  gone := hGone

theorem Books.spawnFailed {d : Daemon} (h : Books d) {name : String} {rest : List String}
    (hPhase : d.phase = .spawning (name :: rest)) : Books (d.spawnPlugin name rest none) := by
  have hNodup := h.nodup
  have hNoEntry := h.gone (name :: rest) hPhase
  simp only [hPhase, Phase.names, List.nodup_cons] at hNodup
  exact
    { held := by
        intro n p hEntry hn
        refine h.held n p hEntry ?_
        simp only [hPhase, Phase.noted, List.mem_cons, not_or]
        refine ⟨?_, hn⟩
        rintro rfl
        have hNone : d.children.lookup n = none := hNoEntry n List.mem_cons_self
        exact absurd (hNone.symm.trans hEntry) (by simp)
      known := by
        intro _ n p r hProc
        obtain ⟨hEntry, hn⟩ := h.known (by simp [hPhase]) n p r hProc
        refine ⟨hEntry, fun (hMem : n ∈ rest) => hn ?_⟩
        simpa [hPhase, Phase.noted] using Or.inr hMem
      one := h.one
      nodup := hNodup.2
      gone := by
        intro todo hTodo n hn
        cases hTodo
        exact hNoEntry n (List.mem_cons_of_mem name hn) }

theorem Books.spawnedAt {d : Daemon} (h : Books d) {name : String} {rest : List String} {pid : Pid}
    (hPhase : d.phase = .spawning (name :: rest)) (hFree : d.procs pid = none) :
    Books
      { d.setProc pid (some (.plugin name true)) with
        children := d.children.insert name pid
        attempts := d.attempts ++ [name]
        phase := .spawning rest } := by
  have hNodup := h.nodup
  have hNoEntry := h.gone (name :: rest) hPhase
  simp only [hPhase, Phase.names, List.nodup_cons] at hNodup
  -- no child had the name
  have hOld : ∀ n p r, d.procs p = some (.plugin n r) → d.children.lookup n = some p ∧
      n ≠ name ∧ n ∉ rest := by
    intro n p r hProc
    obtain ⟨hEntry, hn⟩ := h.known (by simp [hPhase]) n p r hProc
    simpa [hPhase, Phase.noted] using And.intro hEntry hn
  have hOther : ∀ n p r, d.procs p = some (.plugin n r) → p ≠ pid := by
    rintro n p r hProc rfl
    rw [hFree] at hProc
    cases hProc
  exact
    { held := by
        intro n p hEntry hn
        show ∃ r, (d.setProc pid _).procs p = _
        rw [setProc_procs]
        have hEntry' : (d.children.insert name pid).lookup n = some p := hEntry
        rw [lookup_insert_eq] at hEntry'
        by_cases hSame : n = name
        · rw [if_pos hSame] at hEntry'
          rw [if_pos (Option.some.inj hEntry').symm, hSame]
          exact ⟨true, rfl⟩
        · rw [if_neg hSame] at hEntry'
          obtain ⟨r, hProc⟩ := h.held n p hEntry' (by
            simpa [hPhase, Phase.noted, hSame] using hn)
          rw [if_neg (hOther n p r hProc)]
          exact ⟨r, hProc⟩
      known := by
        intro _ n p r hProc
        show (d.children.insert name pid).lookup n = some p ∧ n ∉ rest
        have hProc' : (if p = pid then some (Proc.plugin name true) else d.procs p) =
            some (.plugin n r) := hProc
        rw [lookup_insert_eq]
        split at hProc'
        · next hPid =>
            cases hProc'
            rw [if_pos rfl, hPid]
            exact ⟨rfl, hNodup.1⟩
        · obtain ⟨hEntry, hne, hn⟩ := hOld n p r hProc'
          rw [if_neg hne]
          exact ⟨hEntry, hn⟩
      one := by
        intro n p q r r' hp hq
        have hp' : (if p = pid then some (Proc.plugin name true) else d.procs p) =
            some (.plugin n r) := hp
        have hq' : (if q = pid then some (Proc.plugin name true) else d.procs q) =
            some (.plugin n r') := hq
        split at hp'
        · next hPid =>
            split at hq'
            · next hQid => rw [hPid, hQid]
            · cases hp'
              exact absurd rfl (hOld _ q r' hq').2.1
        · split at hq'
          · cases hq'
            exact absurd rfl (hOld _ p r hp').2.1
          · exact h.one n p q r r' hp' hq'
      nodup := hNodup.2
      gone := by
        intro todo hTodo n hn
        cases hTodo
        show (d.children.insert name pid).lookup n = none
        have hne : n ≠ name := by
          rintro rfl
          exact hNodup.1 hn
        rw [lookup_insert_eq, if_neg hne]
        exact hNoEntry n (List.mem_cons_of_mem name hn) }

theorem Books.freed {d : Daemon} (h : Books d) {name : String} {rest dead : List String} {pid : Pid}
    (hPhase : d.phase = .waiting (name :: rest) dead)
    (hChild : d.children.lookup name = some pid) (hExited : exited (d.procs pid) = true) :
    Books { d.setProc pid none with phase := .waiting rest (dead ++ [name]) } := by
  obtain ⟨hProc, -⟩ := h.waited hPhase hChild hExited
  have hOld : ∀ n p r, (if p = pid then none else d.procs p) = some (Proc.plugin n r) →
      p ≠ pid ∧ d.procs p = some (.plugin n r) := by
    intro n p r hp
    split at hp
    · cases hp
    · next hne => exact ⟨hne, hp⟩
  exact
    { held := by
        intro n p hEntry hn
        have hn' : n ∉ dead ∧ n ≠ name := by simpa [Phase.noted] using hn
        obtain ⟨r, hp⟩ := h.held n p hEntry (by simpa [hPhase, Phase.noted] using hn'.1)
        refine ⟨r, ?_⟩
        show (d.setProc pid none).procs p = _
        rw [setProc_procs, if_neg, hp]
        rintro rfl
        rw [hProc] at hp
        cases hp
        exact hn'.2 rfl
      known := by
        intro _ n p r hp
        obtain ⟨hne, hp'⟩ := hOld n p r hp
        obtain ⟨hEntry, hn⟩ := h.known (by simp [hPhase]) n p r hp'
        refine ⟨hEntry, ?_⟩
        have hn' : n ∉ dead := by simpa [hPhase, Phase.noted] using hn
        have hName : n ≠ name := by
          rintro rfl
          exact hne (Option.some.inj (hEntry.symm.trans hChild))
        simpa [Phase.noted] using And.intro hn' hName
      one := fun n p q r r' hp hq => h.one n p q r r' (hOld n p r hp).2 (hOld n q r' hq).2
      nodup := by simpa [hPhase, Phase.names] using h.nodup
      gone := fun _ hTodo => by cases hTodo }

theorem Books.removed {d : Daemon} (h : Books d) {dead : List String}
    (hPhase : d.phase = .waiting [] dead) :
    Books
      { d with
        children := retain (fun name _ => decide (name ∉ dead)) d.children
        phase := .spawning dead } where
  held := by
    intro n p hEntry hn
    have hn' : n ∉ dead := hn
    refine h.held n p ?_ (by simpa [hPhase, Phase.noted] using hn')
    exact (lookup_retain_eq_some_iff.mp hEntry).1
  known := by
    intro _ n p r hp
    obtain ⟨hEntry, hn⟩ := h.known (by simp [hPhase]) n p r hp
    have hn' : n ∉ dead := by simpa [hPhase, Phase.noted] using hn
    exact ⟨lookup_retain_eq_some_iff.mpr ⟨hEntry, decide_eq_true hn'⟩, hn'⟩
  one := h.one
  nodup := by simpa [hPhase, Phase.names] using h.nodup
  gone := by
    intro todo hTodo n hn
    cases hTodo
    show (retain _ d.children).lookup n = none
    rw [lookup_retain_key, if_neg (by simpa using hn)]

theorem Books.cleared {d : Daemon} (h : Books d) :
    Books { d with children := ∅, phase := .stopped } where
  held := fun _ _ hEntry => by cases hEntry
  known := fun hLive => absurd rfl hLive
  one := h.one
  nodup := List.nodup_nil
  gone := fun _ hTodo => by cases hTodo

/-- What has the PID changes, but not which plugin it is a child of. -/
theorem Books.setProc {d : Daemon} (h : Books d) {pid : Pid} {proc : Option Proc}
    (hSame : ∀ n, (∃ r, proc = some (.plugin n r)) ↔ ∃ r, d.procs pid = some (.plugin n r)) :
    Books (d.setProc pid proc) := by
  have hOld : ∀ n p, (∃ r, (d.setProc pid proc).procs p = some (.plugin n r)) ↔
      ∃ r, d.procs p = some (.plugin n r) := by
    intro n p
    rw [setProc_procs]
    split
    · next hPid => rw [hPid, hSame]
    · exact Iff.rfl
  exact
    { held := fun n p hEntry hn => (hOld n p).mpr (h.held n p hEntry hn)
      known := fun hLive n p r hp => by
        obtain ⟨r, hp⟩ := (hOld n p).mp ⟨r, hp⟩
        exact h.known hLive n p r hp
      one := fun n p q r r' hp hq => by
        obtain ⟨r, hp⟩ := (hOld n p).mp ⟨r, hp⟩
        obtain ⟨r', hq⟩ := (hOld n q).mp ⟨r', hq⟩
        exact h.one n p q r r' hp hq
      nodup := h.nodup
      gone := h.gone }

/-- The books do not depend on what only the history records. -/
theorem Books.congr {d d' : Daemon} (h : Books d) (hProcs : d'.procs = d.procs)
    (hChildren : d'.children = d.children) (hPhase : d'.phase = d.phase) : Books d' where
  held := by rw [hChildren, hPhase, hProcs]; exact h.held
  known := by rw [hChildren, hPhase, hProcs]; exact h.known
  one := by rw [hProcs]; exact h.one
  nodup := by rw [hPhase]; exact h.nodup
  gone := by rw [hChildren, hPhase]; exact h.gone

theorem Books.steps {d d' : Daemon} (h : Books d) (hStep : Steps d d') : Books d' := by
  have hNodup := h.nodup
  cases hStep with
  | same => exact h
  | spawnFailed hPhase => exact h.spawnFailed hPhase
  | spawnedAt hPhase hFree => exact h.spawnedAt hPhase hFree
  | spawned hPhase =>
      exact h.setPhase (by simp [hPhase]) (by simp [hPhase, Phase.noted]) List.nodup_nil
        fun _ hTodo => by cases hTodo
  | check hPhase hOrder =>
      refine h.setPhase (by simp [hPhase]) (by simp [hPhase, Phase.noted]) ?_
        fun _ hTodo => by cases hTodo
      exact (hOrder.nodup_iff).mpr d.children.keys_nodup
  | waited hPhase hChild hExited => exact h.freed hPhase hChild hExited
  | notDead hPhase =>
      refine h.setPhase (by simp [hPhase]) (by simp [hPhase, Phase.noted]) ?_
        fun _ hTodo => by cases hTodo
      simp only [hPhase, Phase.names] at hNodup ⊢
      exact hNodup.sublist ((List.sublist_cons_self _ _).append_left _)
  | removed hPhase => exact h.removed hPhase
  | shutdown hPhase _ =>
      exact h.setPhase (by simp [hPhase]) (by simp [hPhase, Phase.noted]) List.nodup_nil
        fun _ hTodo => by cases hTodo
  | @killed name rest pid hPhase hChild =>
      have hMoved : Books { d with phase := .signalling rest } :=
        h.setPhase (by simp [hPhase]) (by simp [hPhase, Phase.noted]) List.nodup_nil
          fun _ hTodo => by cases hTodo
      exact hMoved.congr rfl rfl rfl
  | noChild hPhase hChild =>
      exact h.setPhase (by simp [hPhase]) (by simp [hPhase, Phase.noted]) List.nodup_nil
        fun _ hTodo => by cases hTodo
  | cleared hPhase => exact h.cleared
  | @exits name pid hRuns =>
      have hMoved : Books (d.setProc pid (some (.plugin name false))) :=
        h.setProc fun n => by simp [hRuns]
      exact hMoved.congr rfl rfl rfl
  | @other pid proc hOld hNew =>
      refine h.setProc fun n => ?_
      rcases hOld with hOld | hOld <;> rcases hNew with hNew | hNew <;> simp [hOld, hNew]

/-! ## The life of a plugin -/

/-- Where a plugin is. -/
inductive Place
  /-- to be spawned -/
  | waits
  | runs
  /-- exited, not waited for -/
  | exited
  /-- not tracked any more -/
  | givenUp
deriving DecidableEq

/-- The start of the daemon, or an exit, that no spawn has answered. -/
def Place.due : Place → Nat
  | .waits | .exited => 1
  | .runs | .givenUp => 0

def At (d : Daemon) (n : String) : Place → Prop
  | .waits => n ∈ d.phase.noted
  | .runs => ∃ p, d.procs p = some (.plugin n true)
  | .exited => ∃ p, d.procs p = some (.plugin n false)
  | .givenUp => n ∈ d.failed

/-- A plugin is in one place, and every exit of it is answered by one spawn. -/
def Life (d : Daemon) (n : String) : Prop :=
  ∃ place, (∀ other, d.At n other ↔ other = place) ∧
    d.attempts.count n + place.due = d.exits.count n + 1

theorem Life.congr {d d' : Daemon} {n : String} (h : Life d n)
    (hAt : ∀ place, d'.At n place ↔ d.At n place) (hAttempts : d'.attempts.count n = d.attempts.count n)
    (hExits : d'.exits.count n = d.exits.count n) : Life d' n := by
  obtain ⟨place, hPlace, hCount⟩ := h
  refine ⟨place, fun other => (hAt other).trans (hPlace other), ?_⟩
  rw [hAttempts, hExits]
  exact hCount

/-- A plugin that is known to be at a place moves to another. -/
theorem Life.move {d d' : Daemon} {n : String} (h : Life d n) (new : Place) {old : Place} (hOld : d.At n old)
    (hNew : (∀ other, d.At n other ↔ other = old) → ∀ other, d'.At n other ↔ other = new)
    (hCount : d.attempts.count n + old.due = d.exits.count n + 1 →
      d'.attempts.count n + new.due = d'.exits.count n + 1) : Life d' n := by
  obtain ⟨place, hPlace, hOldCount⟩ := h
  have hSame : old = place := (hPlace old).mp hOld
  subst hSame
  exact ⟨new, hNew hPlace, hCount hOldCount⟩

/-- A PID that is and was no child of the plugin. -/
theorem exists_setProc (d : Daemon) {n : String} {r : Bool} {pid : Pid} {proc : Option Proc}
    (hOld : d.procs pid ≠ some (.plugin n r)) (hNew : proc ≠ some (.plugin n r)) :
    (∃ p, (d.setProc pid proc).procs p = some (.plugin n r)) ↔
      ∃ p, d.procs p = some (.plugin n r) := by
  refine exists_congr fun p => ?_
  rw [setProc_procs]
  split
  · next hPid => exact iff_of_false hNew (hPid ▸ hOld)
  · exact Iff.rfl

theorem count_append_other {n name : String} (hne : n ≠ name) (names : List String) :
    (names ++ [name]).count n = names.count n := by
  rw [List.count_append, List.count_singleton, if_neg (by simpa using hne.symm), Nat.add_zero]

theorem count_append_same (n : String) (names : List String) :
    (names ++ [n]).count n = names.count n + 1 := by
  rw [List.count_append, List.count_singleton_self]

theorem Life.spawnFailed {d : Daemon} {n : String} (h : Life d n) (hBooks : Books d) {name : String}
    {rest : List String} (hPhase : d.phase = .spawning (name :: rest)) :
    Life (d.spawnPlugin name rest none) n := by
  have hNodup := hBooks.nodup
  simp only [hPhase, Phase.names, List.nodup_cons] at hNodup
  by_cases hSame : n = name
  · subst hSame
    have hWaits : d.At n .waits := by simp [At, hPhase, Phase.noted]
    refine h.move .givenUp hWaits (fun hPlace other => ?_) fun hCount => ?_
    · cases other with
      | waits => exact iff_of_false hNodup.1 (by decide)
      | runs => exact iff_of_false (fun hAt => by cases (hPlace .runs).mp hAt) (by decide)
      | exited => exact iff_of_false (fun hAt => by cases (hPlace .exited).mp hAt) (by decide)
      | givenUp => exact iff_of_true (List.mem_append_right _ (List.mem_singleton_self n)) rfl
    · show (d.attempts ++ [n]).count n + 0 = d.exits.count n + 1
      rw [count_append_same]
      exact hCount
  · refine h.congr (fun place => ?_) (count_append_other hSame _) rfl
    cases place with
    | waits =>
        show n ∈ rest ↔ n ∈ d.phase.noted
        simp [hPhase, Phase.noted, hSame]
    | runs => exact Iff.rfl
    | exited => exact Iff.rfl
    | givenUp =>
        show n ∈ d.failed ++ [name] ↔ n ∈ d.failed
        simp [hSame]

theorem Life.spawnedAt {d : Daemon} {n : String} (h : Life d n) (hBooks : Books d) {name : String}
    {rest : List String} {pid : Pid} (hPhase : d.phase = .spawning (name :: rest))
    (hFree : d.procs pid = none) :
    Life
      { d.setProc pid (some (.plugin name true)) with
        children := d.children.insert name pid
        attempts := d.attempts ++ [name]
        phase := .spawning rest } n := by
  have hNodup := hBooks.nodup
  simp only [hPhase, Phase.names, List.nodup_cons] at hNodup
  by_cases hSame : n = name
  · subst hSame
    have hWaits : d.At n .waits := by simp [At, hPhase, Phase.noted]
    refine h.move .runs hWaits (fun hPlace other => ?_) fun hCount => ?_
    · cases other with
      | waits => exact iff_of_false hNodup.1 (by decide)
      | runs => exact iff_of_true ⟨pid, if_pos rfl⟩ rfl
      | exited =>
          refine iff_of_false (fun hAt => ?_) (by decide)
          have hOld : d.At n .exited := (exists_setProc d (by simp [hFree]) (by simp)).mp hAt
          cases (hPlace .exited).mp hOld
      | givenUp => exact iff_of_false (fun hAt => by cases (hPlace .givenUp).mp hAt) (by decide)
    · show (d.attempts ++ [n]).count n + 0 = d.exits.count n + 1
      rw [count_append_same]
      exact hCount
  · refine h.congr (fun place => ?_) (count_append_other hSame _) rfl
    cases place with
    | waits =>
        show n ∈ rest ↔ n ∈ d.phase.noted
        simp [hPhase, Phase.noted, hSame]
    | runs => exact exists_setProc d (by simp [hFree]) (by simp [Ne.symm hSame])
    | exited => exact exists_setProc d (by simp [hFree]) (by simp)
    | givenUp => exact Iff.rfl

theorem Life.freed {d : Daemon} {n : String} (h : Life d n) (hBooks : Books d) {name : String}
    {rest dead : List String} {pid : Pid} (hPhase : d.phase = .waiting (name :: rest) dead)
    (hChild : d.children.lookup name = some pid) (hExited : exited (d.procs pid) = true) :
    Life { d.setProc pid none with phase := .waiting rest (dead ++ [name]) } n := by
  obtain ⟨hProc, hFresh⟩ := hBooks.waited hPhase hChild hExited
  by_cases hSame : n = name
  · subst hSame
    have hGone : d.At n .exited := ⟨pid, hProc⟩
    refine h.move .waits hGone (fun hPlace other => ?_) fun hCount => hCount
    cases other with
    | waits => exact iff_of_true (List.mem_append_right _ (List.mem_singleton_self n)) rfl
    | runs =>
        refine iff_of_false (fun hAt => ?_) (by decide)
        have hOld : d.At n .runs := (exists_setProc d (by simp [hProc]) (by simp)).mp hAt
        cases (hPlace .runs).mp hOld
    | exited =>
        refine iff_of_false ?_ (by decide)
        rintro ⟨p, hp⟩
        have hp' : (if p = pid then none else d.procs p) = some (Proc.plugin n false) := hp
        split at hp'
        · cases hp'
        · next hne => exact hne (hBooks.one n p pid false false hp' hProc)
    | givenUp => exact iff_of_false (fun hAt => by cases (hPlace .givenUp).mp hAt) (by decide)
  · refine h.congr (fun place => ?_) rfl rfl
    cases place with
    | waits =>
        show n ∈ dead ++ [name] ↔ n ∈ d.phase.noted
        simp [hPhase, Phase.noted, hSame]
    | runs => exact exists_setProc d (by simp [hProc]) (by simp)
    | exited => exact exists_setProc d (by simp [hProc, Ne.symm hSame]) (by simp)
    | givenUp => exact Iff.rfl

theorem Life.exits {d : Daemon} {n : String} (h : Life d n) (hBooks : Books d) {name : String}
    {pid : Pid} (hRuns : d.procs pid = some (.plugin name true)) :
    Life { d.setProc pid (some (.plugin name false)) with exits := d.exits ++ [name] } n := by
  by_cases hSame : n = name
  · subst hSame
    have hOld : d.At n .runs := ⟨pid, hRuns⟩
    refine h.move .exited hOld (fun hPlace other => ?_) fun hCount => ?_
    · cases other with
      | waits => exact iff_of_false (fun hAt => by cases (hPlace .waits).mp hAt) (by decide)
      | runs =>
          refine iff_of_false ?_ (by decide)
          rintro ⟨p, hp⟩
          have hp' : (if p = pid then some (Proc.plugin n false) else d.procs p) =
              some (.plugin n true) := hp
          split at hp'
          · cases hp'
          · next hne => exact hne (hBooks.one n p pid true true hp' hRuns)
      | exited => exact iff_of_true ⟨pid, if_pos rfl⟩ rfl
      | givenUp => exact iff_of_false (fun hAt => by cases (hPlace .givenUp).mp hAt) (by decide)
    · show d.attempts.count n + 1 = (d.exits ++ [n]).count n + 1
      rw [count_append_same]
      exact congrArg Nat.succ hCount
  · refine h.congr (fun place => ?_) rfl (count_append_other hSame _)
    cases place with
    | waits => exact Iff.rfl
    | runs => exact exists_setProc d (by simp [hRuns, Ne.symm hSame]) (by simp)
    | exited => exact exists_setProc d (by simp [hRuns]) (by simp [Ne.symm hSame])
    | givenUp => exact Iff.rfl

/-- What the plugin is does not depend on the rest of the daemon. -/
theorem Life.of_eq {d d' : Daemon} {n : String} (h : Life d n) (hNoted : d'.phase.noted = d.phase.noted)
    (hProcs : d'.procs = d.procs) (hFailed : d'.failed = d.failed)
    (hAttempts : d'.attempts = d.attempts) (hExits : d'.exits = d.exits) : Life d' n := by
  refine h.congr (fun place => ?_) (by rw [hAttempts]) (by rw [hExits])
  cases place with
  | waits => rw [At, At, hNoted]
  | runs => rw [At, At, hProcs]
  | exited => rw [At, At, hProcs]
  | givenUp => rw [At, At, hFailed]

theorem Life.steps {d d' : Daemon} {n : String} (h : Life d n) (hBooks : Books d)
    (hStep : Steps d d') : Life d' n := by
  cases hStep with
  | same => exact h
  | spawnFailed hPhase => exact h.spawnFailed hBooks hPhase
  | spawnedAt hPhase hFree => exact h.spawnedAt hBooks hPhase hFree
  | spawned hPhase => exact h.of_eq (by simp [hPhase, Phase.noted]) rfl rfl rfl rfl
  | check hPhase _ => exact h.of_eq (by simp [hPhase, Phase.noted]) rfl rfl rfl rfl
  | waited hPhase hChild hExited => exact h.freed hBooks hPhase hChild hExited
  | notDead hPhase => exact h.of_eq (by simp [hPhase, Phase.noted]) rfl rfl rfl rfl
  | removed hPhase => exact h.of_eq (by simp [hPhase, Phase.noted]) rfl rfl rfl rfl
  | shutdown hPhase _ => exact h.of_eq (by simp [hPhase, Phase.noted]) rfl rfl rfl rfl
  | killed hPhase _ => exact h.of_eq (by simp [hPhase, Phase.noted]) rfl rfl rfl rfl
  | noChild hPhase _ => exact h.of_eq (by simp [hPhase, Phase.noted]) rfl rfl rfl rfl
  | cleared hPhase => exact h.of_eq (by simp [hPhase, Phase.noted]) rfl rfl rfl rfl
  | exits hRuns => exact h.exits hBooks hRuns
  | @other pid proc hOld hNew =>
      have hNoPlugin : ∀ r, d.procs pid ≠ some (.plugin n r) ∧ proc ≠ some (.plugin n r) := by
        intro r
        rcases hOld with hOld | hOld <;> rcases hNew with hNew | hNew <;> simp [hOld, hNew]
      refine h.congr (fun place => ?_) rfl rfl
      cases place with
      | waits => exact Iff.rfl
      | runs => exact exists_setProc d (hNoPlugin true).1 (hNoPlugin true).2
      | exited => exact exists_setProc d (hNoPlugin false).1 (hNoPlugin false).2
      | givenUp => exact Iff.rfl

theorem life_start {plugins : List String} (taken : Pid → Bool) {n : String} (h : n ∈ plugins) :
    Life (start plugins taken) n := by
  have hNone : ∀ p r, (start plugins taken).procs p ≠ some (.plugin n r) := by
    intro p r
    show (if taken p then some Proc.stranger else none) ≠ _
    split <;> simp
  refine ⟨.waits, fun other => ?_, rfl⟩
  cases other with
  | waits => exact iff_of_true h rfl
  | runs => exact iff_of_false (fun ⟨p, hp⟩ => hNone p true hp) (by decide)
  | exited => exact iff_of_false (fun ⟨p, hp⟩ => hNone p false hp) (by decide)
  | givenUp => exact iff_of_false (by simp [At, start]) (by decide)

/-! ## The SIGTERMs -/

structure Signals (d : Daemon) : Prop where
  /-- A SIGTERM reaches a child, which may have exited. -/
  own : ∀ e ∈ d.signalled, ∃ n r, e.2 = some (.plugin n r)
  todo : ∀ todo, d.phase = .signalling todo → ∀ n p, d.children.lookup n = some p →
    n ∈ todo ∨ p ∈ d.signalled.map Prod.fst
  asked : d.phase = .stopped → ∀ n p r, d.procs p = some (.plugin n r) →
    p ∈ d.signalled.map Prod.fst

theorem signals_start (plugins : List String) (taken : Pid → Bool) :
    Signals (start plugins taken) where
  own := fun _ hMem => by cases hMem
  todo := fun _ hPhase => by cases hPhase
  asked := fun hPhase => by cases hPhase

/-- Moves before and after the signals are sent. -/
theorem Signals.of_phase {d d' : Daemon} (h : Signals d) (hSignalled : d'.signalled = d.signalled)
    (hTodo : ∀ todo, d'.phase ≠ .signalling todo) (hLive : d'.phase ≠ .stopped) : Signals d' where
  own := by rw [hSignalled]; exact h.own
  todo := fun todo hPhase => absurd hPhase (hTodo todo)
  asked := fun hPhase => absurd hPhase hLive

/-- Moves of the kernel. -/
theorem Signals.of_procs {d d' : Daemon} (h : Signals d) (hSignalled : d'.signalled = d.signalled)
    (hPhase : d'.phase = d.phase) (hChildren : d'.children = d.children)
    (hProcs : ∀ n p r, d'.procs p = some (.plugin n r) → ∃ r, d.procs p = some (.plugin n r)) :
    Signals d' where
  own := by rw [hSignalled]; exact h.own
  todo := by rw [hSignalled, hPhase, hChildren]; exact h.todo
  asked := by
    intro hStopped n p r hp
    obtain ⟨r, hp⟩ := hProcs n p r hp
    rw [hSignalled]
    exact h.asked (hPhase ▸ hStopped) n p r hp

theorem Signals.killed {d : Daemon} (h : Signals d) (hBooks : Books d) {name : String}
    {rest : List String} {pid : Pid} (hPhase : d.phase = .signalling (name :: rest))
    (hChild : d.children.lookup name = some pid) :
    Signals
      { d with
        signalled := d.signalled ++ [(pid, d.procs pid)]
        phase := .signalling rest } where
  own := by
    intro e he
    rcases List.mem_append.mp he with hOld | hNew
    · exact h.own e hOld
    · rw [List.mem_singleton.mp hNew]
      obtain ⟨r, hProc⟩ := hBooks.held name pid hChild (by simp [hPhase, Phase.noted])
      exact ⟨name, r, hProc⟩
  todo := by
    intro todo hTodo n p hEntry
    cases hTodo
    rw [List.map_append, List.mem_append]
    rcases h.todo _ hPhase n p hEntry with hMem | hDone
    · rcases List.mem_cons.mp hMem with rfl | hRest
      · -- this is the one that is signalled
        rw [Option.some.inj (hEntry.symm.trans hChild)]
        exact .inr (.inr (List.mem_singleton_self pid))
      · exact .inl hRest
    · exact .inr (.inl hDone)
  asked := fun hStopped => by cases hStopped

theorem Signals.noChild {d : Daemon} (h : Signals d) {name : String} {rest : List String}
    (hPhase : d.phase = .signalling (name :: rest)) (hChild : d.children.lookup name = none) :
    Signals { d with phase := .signalling rest } where
  own := h.own
  todo := by
    intro todo hTodo n p hEntry
    cases hTodo
    rcases h.todo _ hPhase n p hEntry with hMem | hDone
    · rcases List.mem_cons.mp hMem with rfl | hRest
      · exact absurd (hChild.symm.trans hEntry) (by simp)
      · exact .inl hRest
    · exact .inr hDone
  asked := fun hStopped => by cases hStopped

theorem Signals.cleared {d : Daemon} (h : Signals d) (hBooks : Books d)
    (hPhase : d.phase = .signalling []) :
    Signals { d with children := ∅, phase := .stopped } where
  own := h.own
  todo := fun _ hTodo => by cases hTodo
  asked := by
    intro _ n p r hp
    -- its entry was in the map that was iterated
    obtain ⟨hEntry, -⟩ := hBooks.known (by simp [hPhase]) n p r hp
    rcases h.todo _ hPhase n p hEntry with hMem | hDone
    · cases hMem
    · exact hDone

theorem Signals.steps {d d' : Daemon} (h : Signals d) (hBooks : Books d) (hStep : Steps d d') :
    Signals d' := by
  cases hStep with
  | same => exact h
  | spawnFailed hPhase => exact h.of_phase rfl (fun _ => by simp [spawnPlugin]) (by simp [spawnPlugin])
  | spawnedAt hPhase hFree => exact h.of_phase rfl (fun _ => by simp) (by simp)
  | spawned hPhase => exact h.of_phase rfl (fun _ => by simp) (by simp)
  | check hPhase _ => exact h.of_phase rfl (fun _ => by simp) (by simp)
  | waited hPhase hChild hExited => exact h.of_phase rfl (fun _ => by simp) (by simp)
  | notDead hPhase => exact h.of_phase rfl (fun _ => by simp) (by simp)
  | removed hPhase => exact h.of_phase rfl (fun _ => by simp) (by simp)
  | @shutdown order hPhase hOrder =>
      exact
        { own := h.own
          todo := by
            intro todo hTodo n p hEntry
            cases hTodo
            exact .inl (hOrder.mem_iff.mpr (mem_keys_iff.mpr ⟨p, hEntry⟩))
          asked := fun hStopped => by cases hStopped }
  | killed hPhase hChild => exact h.killed hBooks hPhase hChild
  | noChild hPhase hChild => exact h.noChild hPhase hChild
  | cleared hPhase => exact h.cleared hBooks hPhase
  | @exits name pid hRuns =>
      refine h.of_procs rfl rfl rfl fun n p r hp => ?_
      have hp' : (if p = pid then some (Proc.plugin name false) else d.procs p) =
          some (.plugin n r) := hp
      split at hp'
      · next hPid =>
          cases hp'
          exact ⟨true, hPid ▸ hRuns⟩
      · exact ⟨r, hp'⟩
  | @other pid proc hOld hNew =>
      refine h.of_procs rfl rfl rfl fun n p r hp => ?_
      rw [setProc_procs] at hp
      split at hp
      · rcases hNew with hNew | hNew <;> rw [hNew] at hp <;> cases hp
      · exact ⟨r, hp⟩

/-! ## The run -/

structure Supervised (plugins : List String) (d : Daemon) : Prop where
  /-- No plugin runs twice, not even next to one that has exited. -/
  one : ∀ n p q r r', d.procs p = some (.plugin n r) → d.procs q = some (.plugin n r') → p = q
  /-- Every exit is answered by one spawn, until one fails. -/
  life : ∀ n ∈ plugins, d.Life n
  /-- No process but the daemon's own plugins is sent a SIGTERM. -/
  own : ∀ e ∈ d.signalled, ∃ n r, e.2 = some (.plugin n r)
  /-- No plugin is left behind without one. -/
  asked : d.phase = .stopped → ∀ n p, d.procs p = some (.plugin n true) →
    p ∈ d.signalled.map Prod.fst

/-- **The plugins are supervised.**  In every interleaving of the daemon with exits of
its plugins and with other processes that take and leave PIDs, a plugin is to be
spawned, runs, has exited or was given up, and only one of these; the spawns answer the
start and the exits one by one; a plugin is given up only by a failed spawn; and the
shutdown signals children of the daemon alone, every running plugin among them. -/
theorem supervised_run (toLowercase : String → String) (desktop : String) (drivers : List String)
    (taken : Pid → Bool) (moves : List Move) :
    Always step (Supervised (initPlugins toLowercase desktop drivers))
      (start (initPlugins toLowercase desktop drivers) taken) moves := by
  let plugins := initPlugins toLowercase desktop drivers
  let Inv : Daemon → Prop := fun d => Books d ∧ (∀ n ∈ plugins, Life d n) ∧ Signals d
  have hStart : Inv (start plugins taken) :=
    ⟨books_start (initPlugins_nodup toLowercase desktop drivers) taken,
      fun n hn => life_start taken hn, signals_start plugins taken⟩
  have hStep : ∀ d m, Inv d → True → Inv (step d m) := by
    intro d m ⟨hBooks, hLife, hSignals⟩ _
    have hSteps := steps_step d m
    exact ⟨hBooks.steps hSteps, fun n hn => (hLife n hn).steps hBooks hSteps,
      hSignals.steps hBooks hSteps⟩
  have hInv : Always step Inv (start plugins taken) moves :=
    always_of_invariant hStep hStart (everyStep_true _ moves)
  refine hInv.imp fun d ⟨hBooks, hLife, hSignals⟩ => ?_
  exact
    { one := hBooks.one
      life := hLife
      own := hSignals.own
      asked := fun hStopped n p hp => hSignals.asked hStopped n p true hp }

end Daemon

end Mgd.PluginChildren
