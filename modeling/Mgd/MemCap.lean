import Mgd.Lib.KeyedLoop
import Mgd.Lib.Run
import Mgd.ThrottleLedger

/-!
# Memory caps of background cgroups

`MemCapManager` of `throttle.rs`: at High pressure and above it writes a finite
`memory.max` to the cgroups of expendable background processes, and it lifts the
cap again when the cgroup comes to the front, when the pressure drops and at
shutdown.

As for the CPU throttle, a write either takes effect or fails, the functions
give the writes that took effect in order, and the order in which the loop
takes the cgroups does not matter: a round touches its own cgroup only
(`keepsOthers_capRound`).
-/

namespace Mgd.MemCap

open Mgd.Types Mgd.Monitor Mgd.Config Mgd.Lib.AssocMap Mgd.Lib.KeyedLoop Mgd.Lib.Run
open Mgd.Engine.Planner Mgd.Throttle
open Mgd.ThrottleLedger hiding step LedgerComplete

/-! ## The file -/

/-- A write to the `memory.max` of a cgroup. -/
inductive MemWrite
  | cap (cgroupPath : String) (bytes : Nat)
  | restore (cgroupPath : String)
deriving DecidableEq

def MemWrite.cgroupPath : MemWrite → String
  | .cap path _ => path
  | .restore path => path

/-- Which writes succeed. -/
abbrev MemSysfs := MemWrite → Bool

/-- A value of `memory.max`. -/
inductive MemLimit
  | finite (bytes : Nat)
  | unlimited
deriving DecidableEq

/-- The last value written to each `memory.max`, `none` before the first. -/
abbrev MemFiles := String → Option MemLimit

def MemFiles.untouched : MemFiles := fun _ => none

def MemFiles.apply (files : MemFiles) : MemWrite → MemFiles
  | .cap path bytes => fun p => if p = path then some (.finite bytes) else files p
  | .restore path => fun p => if p = path then some .unlimited else files p

def MemFiles.applyAll (files : MemFiles) (ws : List MemWrite) : MemFiles :=
  ws.foldl MemFiles.apply files

/-! ## The manager -/

structure MemCapManager where
  /-- cgroup path → cap in bytes currently written -/
  capped : Map String Nat
  /-- cgroup path → when it entered the background -/
  tracker : Map String Instant

def MemCapManager.new : MemCapManager := ⟨∅, ∅⟩

/-- The arguments of `update`, with what it reads from the clock and what
becomes of its writes. -/
structure MemCapArgs where
  planProcs : List Process
  activePid : Option Pid
  level : PressureLevel
  cfg : CompiledConfig
  clock : ThrottleClock
  sysfs : MemSysfs

/-- The RSS of a cgroup, as `cgroup_groups` adds it up. -/
def totalRss (processes : List Process) : Kb :=
  processes.foldl (fun total p => total.saturatingAdd p.rssKb) (Kb.clamp 0)

/-- The current RSS and 512 MB of headroom, in bytes. -/
def capBytes (processes : List Process) : Nat :=
  ((totalRss processes).saturatingAdd (Kb.clamp (512 * 1024))).bytes

/-- Never capped: the foreground, and what is not expendable. -/
def sparedFromCap (args : MemCapArgs) (path : String) : Bool :=
  decide (some path = findForegroundCgroup args.planProcs args.activePid) ||
    decide (minPriority args.cfg (cgroupMembers args.planProcs path) < 60)

/-- One round of the loop of `update`. -/
def capCgroup (args : MemCapArgs) (m : MemCapManager) (path : String) :
    MemCapManager × List MemWrite :=
  if sparedFromCap args path then
    (⟨m.capped.erase path, m.tracker.erase path⟩,
      if (m.capped.lookup path).isSome && args.sysfs (.restore path) then [.restore path] else [])
  else if (m.capped.lookup path).isSome then (m, [])
  else
    let since := (m.tracker.lookup path).getD (args.clock.enter path)
    let tracker := m.tracker.insert path since
    let bgSecs := Instant.secsSince (args.clock.read path) since
    if bgSecs < 10 then (⟨m.capped, tracker⟩, [])
    else
      let bytes := capBytes (cgroupMembers args.planProcs path)
      if args.sysfs (.cap path bytes) then
        (⟨m.capped.insert path bytes, tracker⟩, [.cap path bytes])
      else (⟨m.capped, tracker⟩, [])

/-- A round, the writes collected behind those of the rounds before it. -/
def capRound (args : MemCapArgs) (done : MemCapManager × List MemWrite) (path : String) :
    MemCapManager × List MemWrite :=
  let here := capCgroup args done.1 path
  (here.1, done.2 ++ here.2)

/-- `update`: nothing below High. -/
def MemCapManager.update (m : MemCapManager) (args : MemCapArgs) :
    MemCapManager × List MemWrite :=
  if args.level < .high then (m, [])
  else
    let paths := cgroupPaths args.planProcs
    paths.foldl (capRound args)
      (⟨m.capped, retain (fun path _ => decide (path ∈ paths)) m.tracker⟩, [])

/-- `restore_all`: every entry is dropped, whatever becomes of the writes. -/
def MemCapManager.restoreAll (m : MemCapManager) (sysfs : MemSysfs) :
    MemCapManager × List MemWrite :=
  (.new, (m.capped.keys.map MemWrite.restore).filter sysfs)

/-! ## One round -/

section Round

variable {args : MemCapArgs} {m : MemCapManager} {path p : String}

/-- The cgroup has been in the background for the debounce of 10 s. -/
def backgroundLongEnough (args : MemCapArgs) (m : MemCapManager) (path : String) : Bool :=
  decide (10 ≤ Instant.secsSince (args.clock.read path)
    ((m.tracker.lookup path).getD (args.clock.enter path)))

/-- The round writes a cap, and the write succeeds. -/
def capsNow (args : MemCapArgs) (m : MemCapManager) (path : String) : Bool :=
  !sparedFromCap args path && (m.capped.lookup path).isNone &&
    backgroundLongEnough args m path &&
    args.sysfs (.cap path (capBytes (cgroupMembers args.planProcs path)))

/-- What a round does to the caps: it lifts its own, it caps its own cgroup, or
it leaves both the entry and the file alone. -/
theorem capCgroup_cases (args : MemCapArgs) (m : MemCapManager) (path : String) :
    (sparedFromCap args path = true ∧
      (capCgroup args m path).1.capped = m.capped.erase path ∧
      (capCgroup args m path).2 =
        if (m.capped.lookup path).isSome && args.sysfs (.restore path) then [.restore path]
        else []) ∨
    (capsNow args m path = true ∧
      (capCgroup args m path).1.capped =
        m.capped.insert path (capBytes (cgroupMembers args.planProcs path)) ∧
      (capCgroup args m path).2 =
        [.cap path (capBytes (cgroupMembers args.planProcs path))]) ∨
    (sparedFromCap args path = false ∧ capsNow args m path = false ∧
      (capCgroup args m path).1.capped = m.capped ∧ (capCgroup args m path).2 = []) := by
  unfold capCgroup capsNow backgroundLongEnough
  dsimp only
  cases sparedFromCap args path with
  | true => exact Or.inl ⟨rfl, rfl, rfl⟩
  | false =>
      right
      cases m.capped.lookup path with
      | some bytes => exact Or.inr ⟨rfl, rfl, rfl, rfl⟩
      | none =>
          by_cases hEarly : Instant.secsSince (args.clock.read path)
              ((m.tracker.lookup path).getD (args.clock.enter path)) < 10
          · right
            have hNot : ¬ 10 ≤ Instant.secsSince (args.clock.read path)
                ((m.tracker.lookup path).getD (args.clock.enter path)) := by
              omega
            simp [hEarly, hNot]
          · have hLate : 10 ≤ Instant.secsSince (args.clock.read path)
                ((m.tracker.lookup path).getD (args.clock.enter path)) := by
              omega
            cases args.sysfs (.cap path (capBytes (cgroupMembers args.planProcs path))) with
            | true => exact Or.inl (by simp [hEarly, hLate])
            | false => exact Or.inr (by simp [hEarly, hLate])

/-- What belongs to a cgroup: its entries, and the writes to its file. -/
def capView (done : MemCapManager × List MemWrite) (path : String) :
    Option Nat × Option Instant × List MemWrite :=
  (done.1.capped.lookup path, done.1.tracker.lookup path,
    done.2.filter fun w => decide (w.cgroupPath = path))

theorem capCgroup_frame (args : MemCapArgs) (m : MemCapManager) (hp : p ≠ path) :
    (capCgroup args m path).1.capped.lookup p = m.capped.lookup p ∧
      (capCgroup args m path).1.tracker.lookup p = m.tracker.lookup p := by
  unfold capCgroup
  dsimp only
  split
  · simp [hp]
  split
  · exact ⟨rfl, rfl⟩
  split
  · simp [hp]
  split
  · simp [hp]
  · simp [hp]

/-- A round writes to its own file only. -/
theorem cgroupPath_of_mem_capCgroup {w : MemWrite} (h : w ∈ (capCgroup args m path).2) :
    w.cgroupPath = path := by
  rcases capCgroup_cases args m path with
    ⟨-, -, hWrites⟩ | ⟨-, -, hWrites⟩ | ⟨-, -, -, hWrites⟩
  · rw [hWrites] at h
    split at h
    · rw [List.mem_singleton.mp h]
      rfl
    · cases h
  · rw [hWrites] at h
    rw [List.mem_singleton.mp h]
    rfl
  · rw [hWrites] at h
    cases h

theorem keepsOthers_capRound (args : MemCapArgs) : KeepsOthers (capRound args) capView := by
  intro done path p hp
  obtain ⟨hCapped, hTracker⟩ := capCgroup_frame args done.1 hp
  have hWrites : (capCgroup args done.1 path).2.filter
      (fun w => decide (w.cgroupPath = p)) = [] := by
    rw [List.filter_eq_nil_iff]
    intro w hw
    rw [cgroupPath_of_mem_capCgroup hw]
    simpa using Ne.symm hp
  unfold capView capRound
  dsimp only
  rw [hCapped, hTracker, List.filter_append, hWrites, List.append_nil]

end Round

/-! ## One call -/

section Call

variable {args : MemCapArgs} {m : MemCapManager} {p : String}

/-- The writes to the file of one cgroup. -/
def writesTo (path : String) (ws : List MemWrite) : List MemWrite :=
  ws.filter fun w => decide (w.cgroupPath = path)

/-- Below High an `update` does nothing, and it leaves the cgroups it does not
list alone. -/
theorem update_idle (hIdle : args.level < .high ∨ p ∉ cgroupPaths args.planProcs) :
    (m.update args).1.capped.lookup p = m.capped.lookup p ∧
      writesTo p (m.update args).2 = [] := by
  unfold MemCapManager.update
  split
  · exact ⟨rfl, rfl⟩
  · next hHigh =>
      have hUnlisted := hIdle.resolve_left hHigh
      have hView := foldl_other (keepsOthers_capRound args) hUnlisted
        (⟨m.capped, retain (fun path _ => decide (path ∈ cgroupPaths args.planProcs)) m.tracker⟩,
          [])
      obtain ⟨hCapped, hRest⟩ := Prod.mk.inj hView
      exact ⟨hCapped, (Prod.mk.inj hRest).2⟩

/-- At High or above each cgroup listed has one round of its own, which finds the
cap and the clock of the cgroup as they were before the call. -/
theorem exists_round (hHigh : ¬ args.level < .high) (hp : p ∈ cgroupPaths args.planProcs) :
    ∃ found : MemCapManager, found.capped.lookup p = m.capped.lookup p ∧
      capsNow args found p = capsNow args m p ∧
      (m.update args).1.capped.lookup p = (capCgroup args found p).1.capped.lookup p ∧
      writesTo p (m.update args).2 = (capCgroup args found p).2 := by
  have hTracker : (retain (fun path _ => decide (path ∈ cgroupPaths args.planProcs))
      m.tracker).lookup p = m.tracker.lookup p := by
    rw [lookup_retain_key, if_pos (by simpa using hp)]
  obtain ⟨done, hBefore, hAfter⟩ := foldl_own (keepsOthers_capRound args)
    (List.nodup_dedup _) hp
    (⟨m.capped, retain (fun path _ => decide (path ∈ cgroupPaths args.planProcs)) m.tracker⟩, [])
  obtain ⟨hCapped, hRest⟩ := Prod.mk.inj hBefore
  obtain ⟨hTracked, hNoWrite⟩ := Prod.mk.inj hRest
  rw [hTracker] at hTracked
  obtain ⟨hEntry, hRest⟩ := Prod.mk.inj hAfter
  have hWrites := (Prod.mk.inj hRest).2
  have hUpdate : m.update args = (cgroupPaths args.planProcs).foldl (capRound args)
      (⟨m.capped, retain (fun path _ => decide (path ∈ cgroupPaths args.planProcs)) m.tracker⟩,
        []) := by
    unfold MemCapManager.update
    rw [if_neg hHigh]
  have hOwn : writesTo p (capCgroup args done.1 p).2 = (capCgroup args done.1 p).2 := by
    apply List.filter_eq_self.mpr
    intro w hw
    simpa using cgroupPath_of_mem_capCgroup hw
  refine ⟨done.1, hCapped, ?_, ?_, ?_⟩
  · unfold capsNow backgroundLongEnough
    rw [hCapped, hTracked]
  · rw [hUpdate]
    exact hEntry
  · have hNone : writesTo p done.2 = [] := hNoWrite
    rw [hUpdate]
    calc writesTo p _ = writesTo p (capRound args done p).2 := hWrites
      _ = writesTo p done.2 ++ writesTo p (capCgroup args done.1 p).2 := List.filter_append _ _
      _ = (capCgroup args done.1 p).2 := by rw [hNone, hOwn, List.nil_append]

/-- **What a call at High or above does to a cgroup it lists**, read before the
call. -/
theorem update_listed (hHigh : ¬ args.level < .high) (hp : p ∈ cgroupPaths args.planProcs) :
    (sparedFromCap args p = true ∧ (m.update args).1.capped.lookup p = none ∧
      writesTo p (m.update args).2 =
        if (m.capped.lookup p).isSome && args.sysfs (.restore p) then [.restore p] else []) ∨
    (capsNow args m p = true ∧
      (m.update args).1.capped.lookup p =
        some (capBytes (cgroupMembers args.planProcs p)) ∧
      writesTo p (m.update args).2 =
        [.cap p (capBytes (cgroupMembers args.planProcs p))]) ∨
    (sparedFromCap args p = false ∧ capsNow args m p = false ∧
      (m.update args).1.capped.lookup p = m.capped.lookup p ∧
      writesTo p (m.update args).2 = []) := by
  obtain ⟨found, hCapped, hSame, hEntry, hWrites⟩ := @exists_round args m p hHigh hp
  rw [hEntry, hWrites]
  rcases capCgroup_cases args found p with
    ⟨hSpared, hErased, hLift⟩ | ⟨hNow, hInserted, hCap⟩ | ⟨hSpared, hNot, hKept, hNone⟩
  · left
    rw [hErased, lookup_erase_eq, if_pos rfl, hLift, hCapped]
    exact ⟨hSpared, rfl, rfl⟩
  · right
    left
    rw [hInserted, lookup_insert_eq, if_pos rfl, hCap]
    exact ⟨hSame ▸ hNow, rfl, rfl⟩
  · right
    right
    rw [hKept, hCapped, hNone]
    exact ⟨hSpared, hSame ▸ hNot, rfl, rfl⟩

theorem restoreAll_capped (m : MemCapManager) (sysfs : MemSysfs) (p : String) :
    (m.restoreAll sysfs).1.capped.lookup p = none := rfl

/-- `restore_all` lifts each recorded cap whose write succeeds. -/
theorem writesTo_restoreAll (m : MemCapManager) (sysfs : MemSysfs) (p : String) :
    writesTo p (m.restoreAll sysfs).2 =
      if (m.capped.lookup p).isSome && sysfs (.restore p) then [.restore p] else [] := by
  have hOne : m.capped.keys.filter (fun path => decide (path = p)) =
      if (m.capped.lookup p).isSome then [p] else [] := by
    have hKey : p ∈ m.capped.keys ↔ (m.capped.lookup p).isSome = true := by
      rw [mem_keys_iff, Option.isSome_iff_exists]
    rw [List.filter_eq, (AList.keys_nodup _).count]
    simp only [hKey]
    split <;> rfl
  have hKeys : writesTo p (m.restoreAll sysfs).2 =
      ((m.capped.keys.filter fun path => decide (path = p)).map MemWrite.restore).filter sysfs := by
    unfold writesTo MemCapManager.restoreAll
    dsimp only
    rw [List.filter_comm, List.filter_map]
    rfl
  rw [hKeys, hOne]
  cases m.capped.lookup p with
  | none => rfl
  | some bytes => cases hWrite : sysfs (.restore p) <;> simp [hWrite]

/-- Only the writes to a file change it. -/
theorem MemFiles.applyAll_at (files : MemFiles) (ws : List MemWrite) :
    files.applyAll ws p = files.applyAll (writesTo p ws) p := by
  have hOne : ∀ files : MemFiles, ∀ w : MemWrite, w.cgroupPath ≠ p → files.apply w p = files p := by
    intro files w hw
    cases w with
    | cap path bytes => exact if_neg (Ne.symm hw)
    | restore path => exact if_neg (Ne.symm hw)
  have hCongr : ∀ ws : List MemWrite, ∀ files files' : MemFiles, files p = files' p →
      files.applyAll ws p = files'.applyAll ws p := by
    intro ws
    induction ws with
    | nil => exact fun _ _ h => h
    | cons w rest ih =>
        intro files files' h
        apply ih
        cases w <;> simp [MemFiles.apply, h]
  induction ws generalizing files with
  | nil => rfl
  | cons w rest ih =>
      by_cases hw : w.cgroupPath = p
      · have hKeep : writesTo p (w :: rest) = w :: writesTo p rest :=
          List.filter_cons_of_pos (by simpa using hw)
        rw [hKeep]
        exact ih (files.apply w)
      · have hDrop : writesTo p (w :: rest) = writesTo p rest :=
          List.filter_cons_of_neg (by simpa using hw)
        rw [hDrop, ← ih files]
        exact hCongr rest _ _ (hOne files w hw)

end Call

/-! ## The caps against the cgroups -/

/-- The RSS of some processes, in KiB. -/
def rssSum (processes : List Process) : Nat := (processes.map fun p => p.rssKb.val).sum

theorem totalRss_val (processes : List Process) :
    (totalRss processes).val = min (rssSum processes) u64Max := by
  have hSum : totalRss processes = Kb.sum (processes.map Process.rssKb) := by
    unfold totalRss Kb.sum
    rw [List.foldl_map]
  rw [hSum, Kb.sum_val, List.map_map]
  rfl

/-- What a cap covers, saturation included. -/
theorem capBytes_eq (processes : List Process) :
    capBytes processes =
      min (min (min (rssSum processes) u64Max + 512 * 1024) u64Max * 1024) u64Max := by
  have hHeadroom : (Kb.clamp (512 * 1024)).val = 512 * 1024 := by decide
  unfold capBytes Kb.bytes Kb.saturatingAdd
  rw [totalRss_val, hHeadroom]
  rfl

/-- The snapshot of a cycle, with the PIDs that are left out of the list the
manager gets: frozen processes and spike victims. -/
structure CapCycle where
  procs : List Process
  frozenPids : List Pid
  victimPids : List Pid
  activePid : Option Pid
  level : PressureLevel
  cfg : CompiledConfig
  clock : ThrottleClock
  sysfs : MemSysfs

namespace CapCycle

variable (c : CapCycle)

def excluded (p : Process) : Bool := decide (p.pid ∈ c.frozenPids ++ c.victimPids)

def args : MemCapArgs where
  planProcs := c.procs.filter fun p => !c.excluded p
  activePid := c.activePid
  level := c.level
  cfg := c.cfg
  clock := c.clock
  sysfs := c.sysfs

/-- The call caps the cgroup. -/
def caps (m : MemCapManager) (path : String) : Prop :=
  ¬ c.level < .high ∧ path ∈ cgroupPaths c.args.planProcs ∧ capsNow c.args m path = true

/-- Every cap written covers the RSS of the whole cgroup and 512 MB. -/
def CapsCover (m : MemCapManager) : Prop :=
  ∀ path bytes, .cap path bytes ∈ (m.update c.args).2 →
    (rssSum (cgroupMembers c.procs path) + 512 * 1024) * 1024 ≤ bytes

theorem mem_update_cap_iff (m : MemCapManager) (path : String) (bytes : Nat) :
    .cap path bytes ∈ (m.update c.args).2 ↔
      c.caps m path ∧ bytes = capBytes (cgroupMembers c.args.planProcs path) := by
  have hOwn : ∀ ws : List MemWrite, .cap path bytes ∈ ws ↔ .cap path bytes ∈ writesTo path ws := by
    intro ws
    simp [writesTo, MemWrite.cgroupPath]
  rw [hOwn]
  unfold caps
  by_cases hIdle : c.level < .high ∨ path ∉ cgroupPaths c.args.planProcs
  · have hNone : writesTo path (m.update c.args).2 = [] := (update_idle hIdle).2
    rw [hNone]
    constructor
    · intro h
      cases h
    · intro h
      cases hIdle with
      | inl hLow => exact absurd hLow h.1.1
      | inr hUnlisted => exact absurd h.1.2.1 hUnlisted
  · rw [not_or, not_not] at hIdle
    rcases update_listed (m := m) hIdle.1 hIdle.2 with
      ⟨hSpared, -, hWrites⟩ | ⟨hNow, -, hWrites⟩ | ⟨-, hNot, -, hWrites⟩
    · have hNot : capsNow c.args m path = false := by
        unfold capsNow
        rw [hSpared]
        rfl
      rw [hWrites, hNot]
      split <;> simp
    · rw [hWrites, hNow]
      simp [hIdle]
    · rw [hWrites, hNot]
      simp

/-- The RSS of a cgroup, split by what the manager is given. -/
theorem rssSum_split (path : String) :
    rssSum (cgroupMembers c.procs path) =
      rssSum (cgroupMembers c.args.planProcs path) +
        rssSum ((cgroupMembers c.procs path).filter c.excluded) := by
  have hFilter : ∀ xs : List Process,
      rssSum xs = rssSum (xs.filter fun p => !c.excluded p) + rssSum (xs.filter c.excluded) := by
    intro xs
    induction xs with
    | nil => rfl
    | cons p rest ih =>
        have hCons : ∀ p ps, rssSum (p :: ps) = p.rssKb.val + rssSum ps := fun _ _ => rfl
        rw [hCons, ih, List.filter_cons, List.filter_cons]
        cases c.excluded p with
        | true =>
            simp only [Bool.not_true, Bool.false_eq_true, if_false, if_true, hCons]
            omega
        | false =>
            simp only [Bool.not_false, Bool.false_eq_true, if_false, if_true, hCons]
            omega
  have hMembers : cgroupMembers c.args.planProcs path =
      (cgroupMembers c.procs path).filter fun p => !c.excluded p := by
    unfold cgroupMembers args
    exact List.filter_comm _ _ _
  rw [hMembers]
  exact hFilter _

/-- **A cap covers its cgroup** exactly when no frozen process and no spike
victim in the cgroups that get one is resident, and no sum exceeds the range of
a byte count. -/
theorem capsCover_iff (m : MemCapManager) :
    c.CapsCover m ↔
      ∀ path, c.caps m path →
        rssSum ((cgroupMembers c.procs path).filter c.excluded) = 0 ∧
          (rssSum (cgroupMembers c.procs path) + 512 * 1024) * 1024 ≤ u64Max := by
  unfold CapsCover
  have hCovers : ∀ path, (rssSum (cgroupMembers c.procs path) + 512 * 1024) * 1024 ≤
      capBytes (cgroupMembers c.args.planProcs path) ↔
        rssSum ((cgroupMembers c.procs path).filter c.excluded) = 0 ∧
          (rssSum (cgroupMembers c.procs path) + 512 * 1024) * 1024 ≤ u64Max := by
    intro path
    have hSplit := c.rssSum_split path
    have hMax : u64Max = 18446744073709551615 := rfl
    rw [capBytes_eq]
    omega
  simp only [mem_update_cap_iff]
  constructor
  · intro h path hCaps
    exact (hCovers path).mp (h path _ ⟨hCaps, rfl⟩)
  · intro h path bytes hCap
    rw [hCap.2]
    exact (hCovers path).mpr (h path hCap.1)

end CapCycle

/-- A cycle at High pressure over the indexer and a frozen helper of its own. -/
def frozenHelperCycle (secs : Nat) : CapCycle where
  procs := [indexer, { indexer with pid := ⟨2001⟩ }]
  frozenPids := [⟨2001⟩]
  victimPids := []
  activePid := none
  level := .high
  cfg := indexerConfig
  clock := ⟨fun _ => Instant.ofSecs secs, fun _ => Instant.ofSecs secs⟩
  sysfs := fun _ => true

/-- **A cap below its cgroup.**  The helper is left out of the sum, and the cap is
short of its 200 MB. -/
theorem frozenHelper_not_covered : ¬ ∀ m c, CapCycle.CapsCover c m := by
  intro h
  have hCap : .cap "/user.slice/app-baloo.service" 741670912 ∈
      ((MemCapManager.new.update (frozenHelperCycle 0).args).1.update
        (frozenHelperCycle 10).args).2 := by decide +kernel
  have hNeeded : (rssSum (cgroupMembers (frozenHelperCycle 10).procs
      "/user.slice/app-baloo.service") + 512 * 1024) * 1024 = 946470912 := by decide +kernel
  have hCovered := h _ (frozenHelperCycle 10) _ _ hCap
  rw [hNeeded] at hCovered
  omega

/-! ## The ledger -/

/-- The manager and the files it writes. -/
structure MemCapping where
  mgr : MemCapManager
  files : MemFiles

def MemCapping.initial : MemCapping where
  mgr := .new
  files := .untouched

inductive MemCapCall
  | update (args : MemCapArgs)
  | restoreAll (sysfs : MemSysfs)

namespace MemCapCall

def sysfs : MemCapCall → MemSysfs
  | update args => args.sysfs
  | restoreAll sysfs => sysfs

/-- The call drops the entry of the cgroup, if there is one. -/
def lifts : MemCapCall → String → Prop
  | update args, path =>
      ¬ args.level < .high ∧ path ∈ cgroupPaths args.planProcs ∧ sparedFromCap args path = true
  | restoreAll _, _ => True

def perform (m : MemCapManager) : MemCapCall → MemCapManager × List MemWrite
  | update args => m.update args
  | restoreAll sysfs => m.restoreAll sysfs

/-- **What a call does to a cgroup**: it drops its entry and tries to lift the
cap, it caps it and records that, or it does neither. -/
theorem perform_cases (m : MemCapManager) (c : MemCapCall) (path : String) :
    (c.lifts path ∧ (c.perform m).1.capped.lookup path = none ∧
      writesTo path (c.perform m).2 =
        if (m.capped.lookup path).isSome && c.sysfs (.restore path) then [.restore path]
        else []) ∨
    (∃ bytes, ¬ c.lifts path ∧ (c.perform m).1.capped.lookup path = some bytes ∧
      writesTo path (c.perform m).2 = [.cap path bytes]) ∨
    (¬ c.lifts path ∧ (c.perform m).1.capped.lookup path = m.capped.lookup path ∧
      writesTo path (c.perform m).2 = []) := by
  cases c with
  | restoreAll sysfs =>
      exact Or.inl ⟨trivial, restoreAll_capped m sysfs path, writesTo_restoreAll m sysfs path⟩
  | update args =>
      by_cases hIdle : args.level < .high ∨ path ∉ cgroupPaths args.planProcs
      · right
        right
        refine ⟨?_, update_idle hIdle⟩
        intro hLifts
        cases hIdle with
        | inl hLow => exact hLifts.1 hLow
        | inr hUnlisted => exact hUnlisted hLifts.2.1
      · rw [not_or, not_not] at hIdle
        rcases update_listed hIdle.1 hIdle.2 with
          ⟨hSpared, hEntry, hWrites⟩ | ⟨hNow, hEntry, hWrites⟩ | ⟨hSpared, -, hEntry, hWrites⟩
        · exact Or.inl ⟨⟨hIdle.1, hIdle.2, hSpared⟩, hEntry, hWrites⟩
        · refine Or.inr (Or.inl ⟨_, ?_, hEntry, hWrites⟩)
          intro hLifts
          unfold capsNow at hNow
          rw [hLifts.2.2] at hNow
          cases hNow
        · refine Or.inr (Or.inr ⟨?_, hEntry, hWrites⟩)
          intro hLifts
          rw [hLifts.2.2] at hSpared
          cases hSpared

end MemCapCall

/-- One call of the manager. -/
def step (s : MemCapping) (c : MemCapCall) : MemCapping :=
  let done := c.perform s.mgr
  ⟨done.1, s.files.applyAll done.2⟩

/-- Every cgroup whose last successful write was a finite value is recorded. -/
def LedgerComplete (s : MemCapping) : Prop :=
  ∀ path bytes, s.files path = some (.finite bytes) → path ∈ s.mgr.capped

/-- What is recorded is capped. -/
def LedgerSound (s : MemCapping) : Prop :=
  ∀ path, path ∈ s.mgr.capped → ∃ bytes, s.files path = some (.finite bytes)

/-- Each recorded cap that the call drops is lifted. -/
def DropsOnlyLifted (s : MemCapping) (c : MemCapCall) : Prop :=
  ∀ path ∈ s.mgr.capped, c.lifts path → c.sysfs (.restore path) = true

section Ledger

variable {s : MemCapping}

theorem ledgerSound_step (h : LedgerSound s) (c : MemCapCall) : LedgerSound (step s c) := by
  intro path hRecorded
  rw [mem_iff_lookup] at hRecorded
  unfold step at hRecorded ⊢
  dsimp only at hRecorded ⊢
  rw [MemFiles.applyAll_at]
  rcases c.perform_cases s.mgr path with
    ⟨-, hEntry, -⟩ | ⟨bytes, -, -, hWrites⟩ | ⟨-, hEntry, hWrites⟩
  · rw [hEntry] at hRecorded
    obtain ⟨bytes, hNone⟩ := hRecorded
    cases hNone
  · rw [hWrites]
    exact ⟨bytes, if_pos rfl⟩
  · rw [hWrites]
    rw [hEntry] at hRecorded
    exact h path (mem_iff_lookup.mpr hRecorded)

theorem files_step (s : MemCapping) (c : MemCapCall) (path : String) :
    (step s c).files path = s.files.applyAll (writesTo path (c.perform s.mgr).2) path :=
  MemFiles.applyAll_at s.files _

/-- A call that lifts each recorded cap it drops leaves no finite value where it
lifts. -/
theorem not_capped_of_lifts (h : LedgerComplete s) {c : MemCapCall}
    (hLifted : DropsOnlyLifted s c) {path : String} (hLifts : c.lifts path) (bytes : Nat) :
    (step s c).files path ≠ some (.finite bytes) := by
  intro hCapped
  rw [files_step] at hCapped
  rcases c.perform_cases s.mgr path with ⟨-, -, hWrites⟩ | ⟨-, hKeeps, -⟩ | ⟨hKeeps, -⟩
  · by_cases hRecorded : path ∈ s.mgr.capped
    · have hSome := Option.isSome_iff_exists.mpr (mem_iff_lookup.mp hRecorded)
      rw [hWrites, hSome, hLifted path hRecorded hLifts] at hCapped
      have hLimit : some MemLimit.unlimited = some (.finite bytes) :=
        (if_pos rfl).symm.trans hCapped
      cases hLimit
    · have hNone : (s.mgr.capped.lookup path).isSome = false := by
        rw [← Bool.not_eq_true, Option.isSome_iff_exists, ← mem_iff_lookup]
        exact hRecorded
      rw [hWrites, hNone] at hCapped
      exact hRecorded (h path bytes hCapped)
  · exact hKeeps hLifts
  · exact hKeeps hLifts

/-- A call keeps the ledger complete exactly when it drops no cap it fails to
lift. -/
theorem ledgerComplete_step_iff (hSound : LedgerSound s) (h : LedgerComplete s)
    (c : MemCapCall) : LedgerComplete (step s c) ↔ DropsOnlyLifted s c := by
  constructor
  · intro hComplete path hRecorded hLifts
    by_contra hFails
    obtain ⟨bytes, hCapped⟩ := hSound path hRecorded
    rcases c.perform_cases s.mgr path with
      ⟨-, hEntry, hWrites⟩ | ⟨-, hKeeps, -⟩ | ⟨hKeeps, -⟩
    · rw [Bool.not_eq_true] at hFails
      rw [hFails, Bool.and_false] at hWrites
      have hStill : (step s c).files path = some (.finite bytes) := by
        rw [files_step, hWrites]
        exact hCapped
      obtain ⟨bytes', hKept⟩ := mem_iff_lookup.mp (hComplete path bytes hStill)
      rw [show (step s c).mgr.capped.lookup path = none from hEntry] at hKept
      cases hKept
    · exact hKeeps hLifts
    · exact hKeeps hLifts
  · intro hLifted path bytes hCapped
    rw [mem_iff_lookup]
    rcases c.perform_cases s.mgr path with
      ⟨hLifts, -, -⟩ | ⟨bytes', -, hEntry, -⟩ | ⟨-, hEntry, hWrites⟩
    · exact absurd hCapped (not_capped_of_lifts h hLifted hLifts bytes)
    · exact ⟨bytes', hEntry⟩
    · rw [files_step, hWrites] at hCapped
      obtain ⟨bytes', hRecorded⟩ := mem_iff_lookup.mp (h path bytes hCapped)
      exact ⟨bytes', hEntry.trans hRecorded⟩

/-- **The memory-cap ledger is complete** after every call of a run exactly when
no call drops a cap whose `max` it fails to write. -/
theorem memCapLedger_iff (calls : List MemCapCall) :
    Always step LedgerComplete MemCapping.initial calls ↔
      EveryStep step DropsOnlyLifted MemCapping.initial calls := by
  have hSound : LedgerSound MemCapping.initial := by
    intro path hRecorded
    obtain ⟨bytes, hNone⟩ := mem_iff_lookup.mp hRecorded
    cases hNone
  have hComplete : LedgerComplete MemCapping.initial := by
    intro path bytes hCapped
    cases hCapped
  exact always_iff_everyStep (fun s c _ hInv _ _ => ledgerSound_step hInv c)
    (fun s c _ hInv hP => ledgerComplete_step_iff hInv hP c) (everyStep_true _ calls)
    hSound hComplete

end Ledger

/-- An `update` at High pressure over the indexer alone. -/
def indexerCall (secs : Nat) (activePid : Option Pid) (sysfs : MemSysfs) : MemCapCall :=
  .update
    { planProcs := [indexer]
      activePid := activePid
      level := .high
      cfg := indexerConfig
      clock := ⟨fun _ => Instant.ofSecs secs, fun _ => Instant.ofSecs secs⟩
      sysfs := sysfs }

/-- The indexer is capped after 10 s; then its window comes to the front, and the
write of `max` fails. -/
def unliftedRun : List MemCapCall :=
  [indexerCall 0 none fun _ => true, indexerCall 10 none fun _ => true,
    indexerCall 15 (some ⟨2000⟩) fun _ => false]

/-- **A cap nobody remembers.**  The file is still capped, and the manager has no
entry to lift. -/
theorem unliftedRun_forgets_cap : ¬ Always step LedgerComplete MemCapping.initial unliftedRun := by
  intro hAlways
  have hCapped : (run step MemCapping.initial unliftedRun).files
      "/user.slice/app-baloo.service" = some (.finite 741670912) := by decide +kernel
  have hForgotten : (run step MemCapping.initial unliftedRun).mgr.capped.lookup
      "/user.slice/app-baloo.service" = none := by decide +kernel
  obtain ⟨bytes, hKept⟩ := mem_iff_lookup.mp (hAlways.last _ _ hCapped)
  rw [hForgotten] at hKept
  cases hKept

end Mgd.MemCap
