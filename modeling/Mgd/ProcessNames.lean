import Mathlib.Data.List.Infix
import Mgd.AutoKill
import Mgd.Lib.Text

/-!
# Process names

Two readers of `/proc/<pid>/status`: `read_process` of the daemon, whose names
every rule is matched against, and `find_pid_by_name` of the common crate.  The
first takes a column of the line, the second all of it; `name_eq_compared_iff`
says for which names they agree.
-/

namespace Mgd.ProcessNames

open Mgd.Types Mgd.Monitor Mgd.Config Mgd.Lib.Text Mgd.Lib.AssocMap Mgd.AutoKill

/-! ## Reading a process -/

/-- What the files of `/proc/<pid>` give, `none` when one cannot be read as
text. -/
structure ProcDir where
  ownerUid : Option Nat
  cgroup : Option (List Char)
  status : Option (List Char)
  oomScore : Option (List Char)
  /-- the last component of the link `exe` -/
  exeName : Option String
  stat : Option (List Char)
  /-- the arguments that are not empty -/
  arguments : Option (List String)

def contains (text part : List Char) : Bool := decide (part <:+: text)

def isCgroupInUserSlice (cgroupContent : List Char) : Bool :=
  (lines cgroupContent).any fun line =>
    contains line "/user.slice/".toList ||
      (contains line "/user@".toList && contains line ".service".toList)

/-- The unified cgroup, unless it is the root. -/
def cgroupPath (cgroupContent : List Char) : Option String :=
  (lines cgroupContent).findSome? fun line =>
    ((stripPrefix "0::".toList line).filter fun p => decide (trim p ≠ ['/'])).map fun p =>
      String.ofList (trim p)

def startsWith (field line : List Char) : Bool := (stripPrefix field line).isSome

/-- The second column of the first line that starts with the field. -/
def parseStatusField (status field : List Char) : Option (List Char) :=
  ((lines status).find? (startsWith field)).bind fun l => (splitWhitespace l)[1]?

def parseStatusKb (status field : List Char) : Option Nat :=
  (parseStatusField status field).bind (parseUnsigned u64Max)

/-- What follows the last occurrence of the separator. -/
def rsplitOnce (sep : List Char) : List Char → Option (List Char)
  | [] => none
  | c :: rest => (rsplitOnce sep rest).or (stripPrefix sep (c :: rest))

/-- CPU ticks and major page faults of `/proc/<pid>/stat`. -/
def readProcStat (stat : Option (List Char)) : Option Nat × Nat :=
  match stat.bind (rsplitOnce ") ".toList) with
  | none => (none, 0)
  | some afterComm =>
      let number := fun i => (splitWhitespace afterComm)[i]?.bind (parseUnsigned u64Max)
      let ticks := (number 11).bind fun u => (number 12).map fun s => (u + s) % 2 ^ 64
      (ticks, (number 9).getD 0)

/-- The machine around the reader. -/
structure Host where
  sys : Sysconf
  ourUid : Nat
  /-- Unix seconds -/
  now : Nat

/-- A process of the user's session, and the CPU cache with its sample. -/
def processOf (host : Host) (cache : Map Pid Sample) (pid : Pid) (dir : ProcDir)
    (cgroupContent status : List Char) : Process × Map Pid Sample :=
  let (ticks, majflt) := readProcStat dir.stat
  ({ pid := pid
     name := String.ofList ((parseStatusField status "Name:".toList).getD "unknown".toList)
     exeBasename := dir.exeName
     rssKb := Kb.clamp ((parseStatusKb status "VmRSS:".toList).getD 0)
     swapKb := Kb.clamp ((parseStatusKb status "VmSwap:".toList).getD 0)
     oomScore := (dir.oomScore.bind fun s => parseSigned (2 ^ 31 - 1) (trim s)).getD 0
     cgroupPath := cgroupPath cgroupContent
     cpuPct :=
       match ticks with
       | some ticks => computeCpuPct host.sys (cache.lookup pid) ticks host.now
       | none => 0
     majflt := majflt
     cmdline := " ".intercalate (dir.arguments.getD []) },
    match ticks with
    | some ticks => cache.insert pid ⟨ticks, host.now⟩
    | none => cache)

/-- `none` is an error, which the caller drops: not owned by the user, not in the
user's slice, or a file that cannot be read. -/
def readProcess (host : Host) (cache : Map Pid Sample) (pid : Pid) (dir : ProcDir) :
    Option (Process × Map Pid Sample) :=
  (dir.ownerUid.filter fun uid => decide (uid = host.ourUid)).bind fun _ =>
    (dir.cgroup.filter isCgroupInUserSlice).bind fun cgroupContent =>
      dir.status.map fun status => processOf host cache pid dir cgroupContent status

/-! ## Finding a process -/

/-- A line of a status file, after the name and the user found so far. -/
def scanLine (found : List Char × Nat) (line : List Char) : List Char × Nat :=
  match stripPrefix "Name:".toList line with
  | some n => (trim n, found.2)
  | none =>
      match stripPrefix "Uid:".toList line with
      | some u =>
          let first := (splitWhitespace u).head?.getD ['0']
          (found.1, (parseUnsigned (2 ^ 32 - 1) first).getD 0)
      | none => found

def scanStatus (status : List Char) : List Char × Nat := (lines status).foldl scanLine ([], 0)

/-- The first of the processes, with their status files, that has the name. -/
def findPidByName (entries : List (Nat × Option (List Char))) (ownUid : Nat)
    (targetName : List Char) : Option Nat :=
  entries.findSome? fun (pid, status) =>
    status.bind fun status =>
      let found := scanStatus status
      if found.1 = targetName ∧ found.2 = ownUid then some pid else none

/-- The name that `find_pid_by_name` compares with its target. -/
def comparedName (status : List Char) : List Char := (scanStatus status).1

/-! ## What the kernel prints -/

/-- The status file of a process. -/
def statusOf (printed rest : List Char) : List Char :=
  "Name:\t".toList ++ printed ++ '\n' :: rest

/-- The kernel escapes line feeds in a name, and prints one name. -/
structure Printed (printed rest : List Char) : Prop where
  oneLine : '\n' ∉ printed
  oneName : ∀ line ∈ lines rest, startsWith "Name:".toList line = false

variable {printed rest : List Char}

theorem lines_statusOf (h : Printed printed rest) :
    lines (statusOf printed rest) = ("Name:\t".toList ++ dropCr printed) :: lines rest := by
  have hLine : '\n' ∉ "Name:\t".toList ++ printed := by
    rw [List.mem_append, not_or]
    exact ⟨by decide, h.oneLine⟩
  unfold statusOf
  rw [lines_append hLine, dropCr_append (by decide)]

/-- What is found of a name stays, when no later line has one. -/
theorem foldl_scanLine_fst {ls : List (List Char)}
    (h : ∀ line ∈ ls, startsWith "Name:".toList line = false) (found : List Char × Nat) :
    (ls.foldl scanLine found).1 = found.1 := by
  induction ls generalizing found with
  | nil => rfl
  | cons line rest ih =>
      rw [List.forall_mem_cons] at h
      have hNone : stripPrefix "Name:".toList line = none := by
        have hHere := h.1
        unfold startsWith at hHere
        rwa [Option.isSome_eq_false_iff, Option.isNone_iff_eq_none] at hHere
      rw [List.foldl_cons, ih h.2]
      unfold scanLine
      rw [hNone]
      dsimp only
      split <;> rfl

/-- `find_pid_by_name` compares all of the name. -/
theorem comparedName_statusOf (h : Printed printed rest) :
    comparedName (statusOf printed rest) = trim printed := by
  have hTab : stripPrefix "Name:".toList ("Name:\t".toList ++ dropCr printed) =
      some ('\t' :: dropCr printed) := stripPrefix_eq_some_iff.mpr rfl
  unfold comparedName scanStatus
  rw [lines_statusOf h, List.foldl_cons, foldl_scanLine_fst h.oneName]
  unfold scanLine
  rw [hTab]
  show trim ('\t' :: dropCr printed) = trim printed
  rw [trim_cons_space (by decide), congr_dropCr trim_append_space]

/-- `read_process` takes the first column of the name. -/
theorem parseStatusField_statusOf (h : Printed printed rest) :
    parseStatusField (statusOf printed rest) "Name:".toList = (splitWhitespace printed).head? := by
  have hFirst : startsWith "Name:".toList ("Name:\t".toList ++ dropCr printed) = true := by
    have hTab : stripPrefix "Name:".toList ("Name:\t".toList ++ dropCr printed) =
        some ('\t' :: dropCr printed) := stripPrefix_eq_some_iff.mpr rfl
    unfold startsWith
    rw [hTab]
    rfl
  have hColumns : splitWhitespace ("Name:\t".toList ++ dropCr printed) =
      "Name:".toList :: splitWhitespace printed := by
    show splitWhitespace ("Name:".toList ++ '\t' :: dropCr printed) = _
    have hWord : ∀ c ∈ "Name:".toList, isWhitespace c = false := by
      intro c hc
      have hAll : "Name:".toList.all (fun c => !isWhitespace c) = true := by decide
      simpa using List.all_eq_true.mp hAll c hc
    have hTab : ∀ c ∈ ('\t' :: dropCr printed).head?, isWhitespace c = true := by
      intro c hc
      cases hc
      decide
    rw [splitWhitespace_word (by decide) hWord hTab,
      splitWhitespace_cons_space (by decide), congr_dropCr splitWhitespace_append_space]
  unfold parseStatusField
  rw [lines_statusOf h, List.find?_cons_of_pos hFirst]
  show (splitWhitespace ("Name:\t".toList ++ dropCr printed))[1]? = _
  rw [hColumns, List.getElem?_cons_succ, List.head?_eq_getElem?]

theorem name_of_readProcess {host : Host} {cache : Map Pid Sample} {pid : Pid} {dir : ProcDir}
    {status : List Char} {p : Process × Map Pid Sample} (hStatus : dir.status = some status)
    (hRead : readProcess host cache pid dir = some p) :
    p.1.name = String.ofList ((parseStatusField status "Name:".toList).getD "unknown".toList) := by
  unfold readProcess at hRead
  rw [hStatus] at hRead
  simp only [Option.bind_eq_some_iff, Option.map_some, Option.some.injEq] at hRead
  obtain ⟨-, -, cgroupContent, -, rfl⟩ := hRead
  rfl

/-- **A process has its whole name** exactly when the name is one column. -/
theorem name_eq_compared_iff {host : Host} {cache : Map Pid Sample} {pid : Pid} {dir : ProcDir}
    {p : Process × Map Pid Sample} (hPrinted : Printed printed rest)
    (hStatus : dir.status = some (statusOf printed rest))
    (hRead : readProcess host cache pid dir = some p) :
    comparedName (statusOf printed rest) = trim printed ∧
      (p.1.name = String.ofList (comparedName (statusOf printed rest)) ↔
        (splitWhitespace printed).length = 1) := by
  rw [name_of_readProcess hStatus hRead, parseStatusField_statusOf hPrinted,
    comparedName_statusOf hPrinted, String.ofList_inj]
  refine ⟨rfl, ?_⟩
  cases hColumns : splitWhitespace printed with
  | nil =>
      rw [trim_eq_nil_iff.mpr hColumns]
      decide
  | cons column columns =>
      rw [List.head?_cons, Option.getD_some, eq_comm, trim_eq_iff hColumns, List.length_cons]
      simp

/-! ## A browser's child -/

def desktopHost : Host := ⟨⟨100, 8⟩, 1000, 1700000000⟩

/-- A process of the user with this name. -/
def dirOf (name : String) : ProcDir where
  ownerUid := some 1000
  cgroup := some "0::/user.slice/user-1000.slice/session-2.scope\n".toList
  status := some (statusOf name.toList "Umask:\t0022\nUid:\t1000\t1000\n".toList)
  oomScore := none
  exeName := none
  stat := none
  arguments := none

/-- One word, and the two readers agree. -/
theorem firefox_has_its_name :
    (readProcess desktopHost ∅ ⟨4321⟩ (dirOf "firefox")).map (fun p => p.1.name) =
      some "firefox" := by
  have hPrinted : Printed "firefox".toList "Umask:\t0022\nUid:\t1000\t1000\n".toList :=
    ⟨by decide, by decide +kernel⟩
  have hSome : (readProcess desktopHost ∅ ⟨4321⟩ (dirOf "firefox")).isSome = true := by
    unfold dirOf
    repeat rewrite [String.toList_ofList]
    decide +kernel
  obtain ⟨p, hRead⟩ := Option.isSome_iff_exists.mp hSome
  obtain ⟨hCompared, hName⟩ := name_eq_compared_iff hPrinted rfl hRead
  have hColumn : (splitWhitespace "firefox".toList).length = 1 := by decide +kernel
  have hTrim : trim "firefox".toList = "firefox".toList := by decide +kernel
  rw [hRead, Option.map_some, hName.mpr hColumn, hCompared, hTrim, String.ofList_toList]

/-- The configured pattern for `Web Content` never sees that name. -/
theorem web_content_cut :
    (readProcess desktopHost ∅ ⟨4321⟩ (dirOf "Web Content")).map (fun p => p.1.name) =
        some "Web" ∧
      findPidByName [(4321, (dirOf "Web Content").status)] 1000 "Web Content".toList =
        some 4321 ∧
      (Regex.exact "Web Content").isMatch "Web" = false := by
  unfold dirOf
  repeat rewrite [String.toList_ofList]
  decide +kernel

end Mgd.ProcessNames
