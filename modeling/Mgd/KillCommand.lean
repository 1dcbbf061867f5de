import Mgd.Lib.Retention
import Mgd.UnfreezeCommand

/-!
# `mgctl kill`, from the command line to the signals and back

`mgctl` writes one line, `route_ipc_connection` reads one line, `dispatch` cuts it at
the first blank, and `cmd_kill` sends SIGKILL to every process that matches.  An empty
pattern is a part of every name, so what keeps a blank argument away from the matcher
decides whether one process dies or all.

`kill_served` gives, for every argument and every timeline of the kernel, the calls of
`kill(2)`, the events and what the user reads.
-/

namespace Mgd.KillCommand

open Mgd.Types Mgd.Monitor Mgd.Lib.Accesses Mgd.Lib.Retention Mgd.Lib.Text Mgd.UnfreezeCommand
open Mgd.Executor.Signals
open Mgd.Executor.Registry (OpResult)

/-! ## The line -/

/-- The commands that take a PID or a part of a name. -/
inductive Verb
  | unfreeze
  | freeze
  | restore
  | info
  | kill
deriving DecidableEq

def Verb.name : Verb → List Char
  | .unfreeze => "unfreeze".toList
  | .freeze => "freeze".toList
  | .restore => "restore".toList
  | .info => "info".toList
  | .kill => "kill".toList

def verbs : List Verb := [.unfreeze, .freeze, .restore, .info, .kill]

/-- The commands without an argument. -/
def plainCommands : List (List Char) :=
  ["status", "list", "ps", "events", "reload", "gpu-info", "spike-status", "leak-status"].map
    String.toList

/-- `format!("{cmd} {}", args[2])` of `mgctl`. -/
def request (verb : Verb) (arg : List Char) : List Char := verb.name ++ ' ' :: arg

/-- `writeln!` -/
def writeln (text : List Char) : List Char := text ++ ['\n']

/-- `read_line`: the line with its break, if it has one. -/
def readLine (stream : List Char) : List Char :=
  stream.takeWhile (fun c => decide (c ≠ '\n')) ++
    (stream.dropWhile fun c => decide (c ≠ '\n')).take 1

/-- `splitn(2, ' ')` -/
def splitBlank (text : List Char) : List Char × Option (List Char) :=
  (text.takeWhile (fun c => decide (c ≠ ' ')),
    match text.dropWhile fun c => decide (c ≠ ' ') with
    | [] => none
    | _ :: rest => some rest)

inductive Command
  | plain (name : List Char)
  | onTarget (verb : Verb) (arg : List Char)
  | usage (verb : Verb)
  | unknown (name : List Char)
deriving DecidableEq

/-- The command of a line, which was trimmed. -/
def dispatch (raw : List Char) : Command :=
  let cmd := (splitBlank raw).1
  let arg := trim ((splitBlank raw).2.getD [])
  if plainCommands.contains cmd then .plain cmd
  else
    match verbs.find? fun verb => verb.name == cmd with
    | some verb => if arg.isEmpty then .usage verb else .onTarget verb arg
    | none => .unknown cmd

/-- What a connection turns out to be. -/
inductive Route
  | nothing
  /-- The line is the first message of a plugin. -/
  | plugin (line : List Char)
  | command (c : Command)
deriving DecidableEq

def route (line : List Char) : Route :=
  if line.isEmpty then .nothing
  else if line.head? = some '{' then .plugin line
  else .command (dispatch (trim line))

/-! ## The command -/

structure ActionEvent where
  timestamp : Nat
  action : String
  pid : Pid
  name : String
  detail : String
deriving DecidableEq

def MAX_EVENTS : Nat := 100

/-- `events::push` on the deque, oldest first. -/
def push (log : List ActionEvent) (event : ActionEvent) : List ActionEvent :=
  (if log.length ≥ MAX_EVENTS then log.drop 1 else log) ++ [event]

/-- The newest events, as many as are kept. -/
def newest (log : List ActionEvent) : List ActionEvent := log.rtake MAX_EVENTS

theorem push_eq {log : List ActionEvent} (h : log.length ≤ MAX_EVENTS) (event : ActionEvent) :
    push log event = newest (log ++ [event]) := by
  unfold push newest List.rtake
  rw [List.length_append, List.length_singleton]
  split
  · next hFull =>
      have hOne : log.length + 1 - MAX_EVENTS = 1 := by omega
      rw [hOne, List.drop_append_of_le_length (by unfold MAX_EVENTS at hFull; omega)]
  · next hRoom =>
      have hZero : log.length + 1 - MAX_EVENTS = 0 := by omega
      rw [hZero, List.drop_zero]

theorem length_newest_le (log : List ActionEvent) : (newest log).length ≤ MAX_EVENTS := by
  unfold newest List.rtake
  rw [List.length_drop]
  omega

/-- Whatever was pushed, the newest events are there. -/
theorem foldl_push {log : List ActionEvent} (h : log.length ≤ MAX_EVENTS)
    (events : List ActionEvent) : events.foldl push log = newest (log ++ events) := by
  induction events using List.reverseRecOn with
  | nil =>
      rw [List.append_nil]
      exact (rtake_of_length_le h).symm
  | append_singleton rest event ih =>
      rw [List.foldl_append, ih, List.foldl_cons, List.foldl_nil, push_eq (length_newest_le _)]
      unfold newest
      rw [rtake_rtake_append, List.append_assoc]

inductive KillLine
  | killed (pid : Pid) (name : String)
  | failed (pid : Pid) (name : String) (error : Option String)
deriving DecidableEq

def KillLine.text : KillLine → String
  | .killed pid name => "✓ killed pid=" ++ displayPid pid ++ " (" ++ name ++ ")"
  | .failed pid name error =>
      "✗ pid=" ++ displayPid pid ++ " (" ++ name ++ "): " ++ error.getD ""

structure KillReply where
  text : String
  /-- the events pushed, in order -/
  events : List ActionEvent

def ok (data : String) : String := "OK " ++ data

def err (msg : String) : String := "ERR " ++ msg

section Command

-- `str::to_lowercase`, and the time at which the event of a process is pushed
variable (toLowercase : String → String) (clock : Pid → Nat)

def killedEvent (p : Process) : ActionEvent where
  timestamp := clock p.pid
  action := "KILL_MANUAL"
  pid := p.pid
  name := p.name
  detail := "killed via mgctl"

/-- What one SIGKILL adds to the lines and the events. -/
def recordKill (acc : List KillLine × List ActionEvent) (p : Process) (r : OpResult) :
    List KillLine × List ActionEvent :=
  if r.success then (acc.1 ++ [.killed p.pid p.name], acc.2 ++ [killedEvent clock p])
  else (acc.1 ++ [.failed p.pid p.name r.error], acc.2)

def killAll : List Process → List KillLine × List ActionEvent →
    Syscalls (List KillLine × List ActionEvent)
  | [], acc => .ret acc
  | p :: rest, acc => (sigkill p.pid).bind fun r => killAll rest (recordKill clock acc p r)

/-- The processes a pattern stands for, among those that were listed. -/
def candidates (procs : List Process) (arg : String) : List Process :=
  procs.filter fun p => isMatch toLowercase arg p.pid p.name

def cmdKill (procs : List Process) (arg : String) : Syscalls KillReply :=
  if (candidates toLowercase procs arg).isEmpty then
    .ret ⟨err ("no running process matching '" ++ arg ++ "'"), []⟩
  else
    (killAll clock (candidates toLowercase procs arg) ([], [])).bind fun done =>
      .ret ⟨ok ("\n".intercalate (done.1.map KillLine.text)), done.2⟩

/-- The daemon's side of a connection, `others` being what it does for the other
commands and the plugins. -/
def routeIpcConnection (others : Route → Syscalls KillReply) (procs : List Process)
    (line : List Char) : Syscalls KillReply :=
  match route line with
  | .command (.onTarget .kill arg) => cmdKill toLowercase clock procs (String.ofList arg)
  | .command (.usage .kill) => .ret ⟨err "usage: kill <pid|name>", []⟩
  | other => others other

end Command

/-- What `query_socket` makes of the reply: the text to print, or the error. -/
def querySocket (reply : List Char) : Except (List Char) (List Char) :=
  match stripPrefix "OK ".toList (trim reply) with
  | some rest => .ok rest
  | none =>
      match stripPrefix "ERR ".toList (trim reply) with
      | some rest => .error ("error: ".toList ++ rest)
      | none => .ok (trim reply)

/-! ## What the daemon reads -/

/-- The text up to the first line break. -/
def firstLine (text : List Char) : List Char := text.takeWhile fun c => decide (c ≠ '\n')

/-- The text without the white space at its end. -/
def trimEnd (text : List Char) : List Char := (text.reverse.dropWhile isWhitespace).reverse

theorem readLine_writeln (text : List Char) : readLine (writeln text) = firstLine text ++ ['\n'] := by
  unfold readLine writeln firstLine
  induction text with
  | nil => rfl
  | cons c rest ih =>
      by_cases hBreak : c = '\n'
      · simp [hBreak]
      · rw [List.cons_append, List.takeWhile_cons_of_pos (by simpa using hBreak),
          List.dropWhile_cons_of_pos (by simpa using hBreak), List.cons_append, ih,
          List.takeWhile_cons_of_pos (by simpa using hBreak), List.cons_append]

theorem verb_word (verb : Verb) : ∀ c ∈ verb.name, isWhitespace c = false := by
  have hNone : verb.name.any isWhitespace = false := by
    cases verb <;> decide
  exact fun c hc => Bool.eq_false_iff.mpr (List.any_eq_false.mp hNone c hc)

theorem verb_ne_nil (verb : Verb) : verb.name ≠ [] := by
  cases verb <;> decide

/-- No white space, so neither a blank nor a break. -/
theorem verb_takeWhile (verb : Verb) {stop : Char} (hStop : isWhitespace stop = true)
    (rest : List Char) :
    (verb.name ++ rest).takeWhile (fun c => decide (c ≠ stop)) =
      verb.name ++ rest.takeWhile fun c => decide (c ≠ stop) := by
  refine List.takeWhile_append_of_pos fun c hc => decide_eq_true ?_
  rintro rfl
  exact absurd ((verb_word verb c hc).symm.trans hStop) (by decide)

theorem verb_dropWhile (verb : Verb) {stop : Char} (hStop : isWhitespace stop = true)
    (rest : List Char) :
    (verb.name ++ rest).dropWhile (fun c => decide (c ≠ stop)) =
      rest.dropWhile fun c => decide (c ≠ stop) := by
  refine List.dropWhile_append_of_pos fun c hc => decide_eq_true ?_
  rintro rfl
  exact absurd ((verb_word verb c hc).symm.trans hStop) (by decide)

theorem firstLine_request (verb : Verb) (arg : List Char) :
    firstLine (request verb arg) = request verb (firstLine arg) := by
  unfold firstLine request
  rw [verb_takeWhile verb (by decide), List.takeWhile_cons_of_pos (by decide)]

theorem trimEnd_append_space (text : List Char) {w : Char} (hSpace : isWhitespace w = true) :
    trimEnd (text ++ [w]) = trimEnd text := by
  unfold trimEnd
  rw [List.reverse_append, List.reverse_singleton, List.singleton_append, List.dropWhile_cons,
    if_pos hSpace]

theorem trim_trimEnd (text : List Char) : trim (trimEnd text) = trim text := by
  induction text using List.reverseRecOn with
  | nil => rfl
  | append_singleton rest c ih =>
      by_cases hSpace : isWhitespace c = true
      · rw [trimEnd_append_space rest hSpace, trim_append_space rest c hSpace, ih]
      · unfold trimEnd
        rw [List.reverse_append, List.reverse_singleton, List.singleton_append,
          List.dropWhile_cons, if_neg hSpace]
        simp

/-- A blank before a text is cut with it or kept. -/
theorem trimEnd_cons_blank (text : List Char) :
    trimEnd (' ' :: text) = if trimEnd text = [] then [] else ' ' :: trimEnd text := by
  have hCut : trimEnd (' ' :: text) =
      (if (text.reverse.dropWhile isWhitespace).isEmpty then [' '].dropWhile isWhitespace
        else text.reverse.dropWhile isWhitespace ++ [' ']).reverse := by
    unfold trimEnd
    rw [List.reverse_cons, List.dropWhile_append]
  have hNil : trimEnd text = [] ↔ (text.reverse.dropWhile isWhitespace).isEmpty = true := by
    unfold trimEnd
    rw [List.reverse_eq_nil_iff, List.isEmpty_iff]
  by_cases hNone : trimEnd text = []
  · rw [if_pos hNone, hCut, if_pos (hNil.mp hNone)]
    rfl
  · rw [if_neg hNone, hCut, if_neg (mt hNil.mpr hNone), List.reverse_append]
    rfl

/-- The two parts of a request that was trimmed. -/
theorem splitBlank_request (verb : Verb) (arg : List Char) :
    (splitBlank (trim (request verb arg))).1 = verb.name ∧
      trim ((splitBlank (trim (request verb arg))).2.getD []) = trim arg := by
  have hTrim : trim (request verb arg) = verb.name ++ trimEnd (' ' :: arg) :=
    trim_append (verb_ne_nil verb) (fun c hc => verb_word verb c (List.mem_of_mem_head? hc))
      (fun c hc => verb_word verb c (List.mem_of_getLast? hc)) (' ' :: arg)
  rw [hTrim, trimEnd_cons_blank]
  unfold splitBlank
  rw [verb_takeWhile verb (by decide), verb_dropWhile verb (by decide)]
  by_cases hBlank : trimEnd arg = []
  · rw [if_pos hBlank]
    refine ⟨List.append_nil _, ?_⟩
    rw [← trim_trimEnd arg, hBlank]
    rfl
  · rw [if_neg hBlank]
    exact ⟨List.append_nil _, trim_trimEnd arg⟩

theorem dispatch_request (verb : Verb) (arg : List Char) :
    dispatch (trim (request verb arg)) =
      if trim arg = [] then .usage verb else .onTarget verb (trim arg) := by
  obtain ⟨hCmd, hArg⟩ := splitBlank_request verb arg
  have hPlain : plainCommands.contains verb.name = false := by cases verb <;> decide
  have hFind : (verbs.find? fun v => v.name == verb.name) = some verb := by
    cases verb <;> decide
  unfold dispatch
  dsimp only
  rw [hCmd, hArg, hPlain, hFind, if_neg (by decide)]
  dsimp only
  by_cases hBlank : trim arg = []
  · rw [if_pos hBlank, if_pos (List.isEmpty_iff.mpr hBlank)]
  · rw [if_neg hBlank, if_neg (mt List.isEmpty_iff.mp hBlank)]

/-- What the daemon reads of a request: the first line of the argument, trimmed. -/
theorem route_request (verb : Verb) (arg : List Char) :
    route (readLine (writeln (request verb arg))) =
      .command
        (if trim (firstLine arg) = [] then .usage verb
        else .onTarget verb (trim (firstLine arg))) := by
  rw [readLine_writeln, firstLine_request]
  have hSome : request verb (firstLine arg) ++ ['\n'] ≠ [] := by simp
  have hHead : (request verb (firstLine arg) ++ ['\n']).head? ≠ some '{' := by
    have hName : verb.name.head? ≠ some '{' := by cases verb <;> decide
    unfold request
    rwa [List.append_assoc, List.head?_append_of_ne_nil _ (verb_ne_nil verb)]
  unfold route
  rw [if_neg (mt List.isEmpty_iff.mp hSome), if_neg hHead, trim_append_space _ _ (by decide),
    dispatch_request]

/-! ## What the command does -/

/-- The SIGKILLs of a list of processes, one access each, and their outcomes. -/
def attempts (tl : Timeline) : Nat → List Process → List (Process × OpResult)
  | _, [] => []
  | t, p :: rest => (p, (sigkill p.pid).result tl.answer t) :: attempts tl (t + 1) rest

def killLine (a : Process × OpResult) : KillLine :=
  if a.2.success then .killed a.1.pid a.1.name else .failed a.1.pid a.1.name a.2.error

/-- The events of the kills that succeeded. -/
def killEvents (clock : Pid → Nat) (as : List (Process × OpResult)) : List ActionEvent :=
  (as.filter fun a => a.2.success).map fun a => killedEvent clock a.1

section Kills

variable {clock : Pid → Nat} {tl : Timeline} {t : Nat}

theorem killAll_result (ps : List Process) (acc : List KillLine × List ActionEvent) :
    (killAll clock ps acc).result tl.answer t =
      (acc.1 ++ (attempts tl t ps).map killLine, acc.2 ++ killEvents clock (attempts tl t ps)) := by
  induction ps generalizing t acc with
  | nil => simp [killAll, attempts, killEvents]
  | cons p rest ih =>
      have hFinish : (sigkill p.pid).finish tl.answer t = t + 1 := rfl
      unfold killAll attempts
      rw [Program.result_bind, ih, hFinish]
      unfold recordKill killEvents
      cases hSuccess : ((sigkill p.pid).result tl.answer t).success with
      | false => simp [hSuccess, killLine]
      | true => simp [hSuccess, killLine]

/-- One call of `kill(2)` for each process, in order. -/
theorem killAll_accesses (ps : List Process) (acc : List KillLine × List ActionEvent) :
    (((killAll clock ps acc).run tl.answer t).2).map Prod.snd =
      ps.map fun p => .kill (asPidT p.pid) (some .kill) := by
  induction ps generalizing t acc with
  | nil => rfl
  | cons p rest ih =>
      unfold killAll
      rw [Program.run_bind]
      dsimp only
      rw [List.map_append, ih]
      rfl

theorem attempts_eq_nil {ps : List Process} : attempts tl t ps = [] ↔ ps = [] := by
  cases ps <;> simp [attempts]

theorem getLast?_toList_append (front : String) {tail : String} {c : Char}
    (h : tail.toList.getLast? = some c) : (front ++ tail).toList.getLast? = some c := by
  have hSome : tail.toList ≠ [] := by
    intro hNil
    rw [hNil] at h
    cases h
  rw [String.toList_append, List.getLast?_append_of_ne_nil _ hSome]
  exact h

/-- Both error texts end with the number of the error. -/
theorem errno_text_end (e : Errno) :
    ("SIGKILL failed: " ++ e.text).toList.getLast? = some ')' := by
  refine getLast?_toList_append _ ?_
  cases e <;> unfold Errno.text <;> rewrite [String.toList_ofList] <;> rfl

/-- No line ends with white space. -/
theorem killLine_end {a : Process × OpResult} {ps : List Process}
    (h : a ∈ attempts tl t ps) : (killLine a).text.toList.getLast? = some ')' := by
  induction ps generalizing t with
  | nil => cases h
  | cons p rest ih =>
      cases List.mem_cons.mp h with
      | inr hRest => exact ih hRest
      | inl hFirst =>
          have hResult : (sigkill p.pid).result tl.answer t =
              opResult "SIGKILL failed: " ((tl.kernel t).kill (asPidT p.pid) (some .kill)) := rfl
          rw [hFirst, hResult]
          cases (tl.kernel t).kill (asPidT p.pid) (some .kill) with
          | none => exact getLast?_toList_append _ (by decide)
          | some e => exact getLast?_toList_append _ (errno_text_end e)

end Kills

theorem getLast?_intercalate {sep : List Char} {c : Char} {ls : List (List Char)} (hSome : ls ≠ [])
    (hEnd : ∀ l ∈ ls, l.getLast? = some c) : (sep.intercalate ls).getLast? = some c := by
  induction ls with
  | nil => exact absurd rfl hSome
  | cons l rest ih =>
      rw [List.forall_mem_cons] at hEnd
      cases rest with
      | nil => rw [List.intercalate_singleton]; exact hEnd.1
      | cons next more =>
          have hRest := ih (List.cons_ne_nil next more) hEnd.2
          have hNonempty : sep.intercalate (next :: more) ≠ [] := by
            intro hNil
            rw [hNil] at hRest
            cases hRest
          rw [List.intercalate_cons_cons, List.getLast?_append_of_ne_nil _ hNonempty]
          exact hRest

/-! ## What the user reads -/

/-- A text that begins and ends with no white space, and a line break. -/
theorem trim_writeln {text : List Char} (hSome : text ≠ [])
    (hFirst : ∀ c ∈ text.head?, isWhitespace c = false)
    (hLast : ∀ c ∈ text.getLast?, isWhitespace c = false) : trim (writeln text) = text := by
  unfold writeln
  rw [trim_append hSome hFirst hLast]
  exact List.append_nil text

theorem querySocket_ok {data : String} {c : Char} (hEnd : data.toList.getLast? = some c)
    (hSpace : isWhitespace c = false) :
    querySocket (writeln (ok data).toList) = .ok data.toList := by
  have hText : (ok data).toList = "OK ".toList ++ data.toList := String.toList_append
  have hSome : (ok data).toList ≠ [] := by simp [hText]
  have hTrim : trim (writeln (ok data).toList) = (ok data).toList := by
    refine trim_writeln hSome ?_ ?_
    · rw [hText]
      intro x hx
      cases hx
      decide
    · rw [show (ok data).toList.getLast? = some c from getLast?_toList_append "OK " hEnd]
      intro x hx
      cases hx
      exact hSpace
  unfold querySocket
  rw [hTrim, hText, stripPrefix_eq_some_iff.mpr rfl]

theorem querySocket_err {msg : String} {c : Char} (hEnd : msg.toList.getLast? = some c)
    (hSpace : isWhitespace c = false) :
    querySocket (writeln (err msg).toList) = .error ("error: " ++ msg).toList := by
  have hText : (err msg).toList = "ERR ".toList ++ msg.toList := String.toList_append
  have hSome : (err msg).toList ≠ [] := by simp [hText]
  have hTrim : trim (writeln (err msg).toList) = (err msg).toList := by
    refine trim_writeln hSome ?_ ?_
    · rw [hText]
      intro x hx
      cases hx
      decide
    · rw [show (err msg).toList.getLast? = some c from getLast?_toList_append "ERR " hEnd]
      intro x hx
      cases hx
      exact hSpace
  have hNoOk : stripPrefix "OK ".toList ("ERR ".toList ++ msg.toList) = none := rfl
  unfold querySocket
  rw [hTrim, hText, hNoOk, stripPrefix_eq_some_iff.mpr rfl, String.toList_append]

/-! ## The whole command -/

section Served

variable (toLowercase : String → String) (clock : Pid → Nat) (others : Route → Syscalls KillReply)
  (procs : List Process) (arg : List Char)

/-- What the daemon does about `mgctl kill arg`. -/
def killSession : Syscalls KillReply :=
  routeIpcConnection toLowercase clock others procs (readLine (writeln (request .kill arg)))

/-- The pattern the daemon acts on. -/
def pattern : String := String.ofList (trim (firstLine arg))

/-- No process for a blank pattern. -/
def killTargets : List Process :=
  if trim (firstLine arg) = [] then [] else candidates toLowercase procs (pattern arg)

/-- What the user is to read. -/
def killShown (as : List (Process × OpResult)) : Except (List Char) (List Char) :=
  if trim (firstLine arg) = [] then .error "error: usage: kill <pid|name>".toList
  else if as.isEmpty then
    .error ("error: no running process matching '" ++ pattern arg ++ "'").toList
  else .ok ("\n".intercalate (as.map fun a => (killLine a).text)).toList

/-- One connection of `mgctl kill`, served from an access on. -/
structure KillServed (tl : Timeline) (t : Nat) : Prop where
  /-- SIGKILL for every match, once and in order, and no other access. -/
  accesses : ((killSession toLowercase clock others procs arg).run tl.answer t).2.map Prod.snd =
    (killTargets toLowercase procs arg).map fun p => .kill (asPidT p.pid) (some .kill)
  /-- An event for every kill that succeeded. -/
  events : ((killSession toLowercase clock others procs arg).result tl.answer t).events =
    killEvents clock (attempts tl t (killTargets toLowercase procs arg))
  /-- The newest events are in the log, if nobody else has pushed any. -/
  log : ∀ log : List ActionEvent, log.length ≤ MAX_EVENTS →
    ((killSession toLowercase clock others procs arg).result tl.answer t).events.foldl push log =
      newest (log ++ killEvents clock (attempts tl t (killTargets toLowercase procs arg)))
  /-- The user reads what was done. -/
  shown : querySocket
      (writeln ((killSession toLowercase clock others procs arg).result tl.answer t).text.toList) =
    killShown arg (attempts tl t (killTargets toLowercase procs arg))

end Served

section ServedLemmas

variable {toLowercase : String → String} {clock : Pid → Nat} {others : Route → Syscalls KillReply}
  {procs : List Process} {arg : List Char} {tl : Timeline} {t : Nat}

theorem killSession_eq :
    killSession toLowercase clock others procs arg =
      if trim (firstLine arg) = [] then .ret ⟨err "usage: kill <pid|name>", []⟩
      else cmdKill toLowercase clock procs (pattern arg) := by
  unfold killSession routeIpcConnection
  rw [route_request]
  by_cases hBlank : trim (firstLine arg) = []
  · rw [if_pos hBlank, if_pos hBlank]
  · rw [if_neg hBlank, if_neg hBlank]
    rfl

/-- What the log holds follows from the events. -/
theorem KillServed.of_events
    (hAccesses : ((killSession toLowercase clock others procs arg).run tl.answer t).2.map Prod.snd =
      (killTargets toLowercase procs arg).map fun p => .kill (asPidT p.pid) (some .kill))
    (hEvents : ((killSession toLowercase clock others procs arg).result tl.answer t).events =
      killEvents clock (attempts tl t (killTargets toLowercase procs arg)))
    (hShown : querySocket (writeln
        ((killSession toLowercase clock others procs arg).result tl.answer t).text.toList) =
      killShown arg (attempts tl t (killTargets toLowercase procs arg))) :
    KillServed toLowercase clock others procs arg tl t where
  accesses := hAccesses
  events := hEvents
  log := by
    intro log hLog
    rw [hEvents, foldl_push hLog]
  shown := hShown

theorem killServed_blank (hBlank : trim (firstLine arg) = []) :
    KillServed toLowercase clock others procs arg tl t := by
  have hSession : killSession toLowercase clock others procs arg =
      .ret ⟨err "usage: kill <pid|name>", []⟩ := by rw [killSession_eq, if_pos hBlank]
  have hTargets : killTargets toLowercase procs arg = [] := if_pos hBlank
  have hShown : killShown arg (attempts tl t []) = .error "error: usage: kill <pid|name>".toList :=
    if_pos hBlank
  refine KillServed.of_events ?_ ?_ ?_
  · rw [hSession, hTargets]
    rfl
  · rw [hSession, hTargets]
    rfl
  · rw [hSession, hTargets, hShown]
    exact querySocket_err (c := '>') (by decide +kernel) (by decide)

theorem killServed_none (hSome : trim (firstLine arg) ≠ [])
    (hNone : candidates toLowercase procs (pattern arg) = []) :
    KillServed toLowercase clock others procs arg tl t := by
  have hSession : killSession toLowercase clock others procs arg =
      .ret ⟨err ("no running process matching '" ++ pattern arg ++ "'"), []⟩ := by
    rw [killSession_eq, if_neg hSome]
    unfold cmdKill
    rw [if_pos (List.isEmpty_iff.mpr hNone)]
  have hTargets : killTargets toLowercase procs arg = [] := (if_neg hSome).trans hNone
  have hShown : killShown arg (attempts tl t []) =
      .error ("error: no running process matching '" ++ pattern arg ++ "'").toList := by
    unfold killShown
    rw [if_neg hSome]
    rfl
  refine KillServed.of_events ?_ ?_ ?_
  · rw [hSession, hTargets]
    rfl
  · rw [hSession, hTargets]
    rfl
  · rw [hSession, hTargets, hShown]
    have hText : "error: no running process matching '" ++ pattern arg ++ "'" =
        "error: " ++ ("no running process matching '" ++ pattern arg ++ "'") := by
      rw [← String.append_assoc, ← String.append_assoc]
      rfl
    rw [hText]
    exact querySocket_err (c := '\'') (getLast?_toList_append _ (by decide)) (by decide)

theorem killServed_some (hSome : trim (firstLine arg) ≠ [])
    (hMatch : candidates toLowercase procs (pattern arg) ≠ []) :
    KillServed toLowercase clock others procs arg tl t := by
  have hTargets : killTargets toLowercase procs arg = candidates toLowercase procs (pattern arg) :=
    if_neg hSome
  have hSession : killSession toLowercase clock others procs arg =
      (killAll clock (candidates toLowercase procs (pattern arg)) ([], [])).bind fun done =>
        .ret ⟨ok ("\n".intercalate (done.1.map KillLine.text)), done.2⟩ := by
    rw [killSession_eq, if_neg hSome]
    unfold cmdKill
    rw [if_neg (mt List.isEmpty_iff.mp hMatch)]
  rw [← hTargets] at hSession hMatch
  have hAttempts : attempts tl t (killTargets toLowercase procs arg) ≠ [] :=
    mt attempts_eq_nil.mp hMatch
  have hShown : killShown arg (attempts tl t (killTargets toLowercase procs arg)) =
      .ok ("\n".intercalate ((attempts tl t (killTargets toLowercase procs arg)).map fun a =>
        (killLine a).text)).toList := by
    unfold killShown
    rw [if_neg hSome, if_neg (mt List.isEmpty_iff.mp hAttempts)]
  have hEnd : ("\n".intercalate ((attempts tl t (killTargets toLowercase procs arg)).map fun a =>
      (killLine a).text)).toList.getLast? = some ')' := by
    rw [String.toList_intercalate]
    refine getLast?_intercalate (by simpa using hAttempts) fun l hl => ?_
    obtain ⟨text, hText, rfl⟩ := List.mem_map.mp hl
    obtain ⟨a, ha, rfl⟩ := List.mem_map.mp hText
    exact killLine_end ha
  refine KillServed.of_events ?_ ?_ ?_
  · rw [hSession, Program.run_bind]
    show ((((killAll clock _ _).run tl.answer t).2 ++ []).map Prod.snd) = _
    rw [List.append_nil]
    exact killAll_accesses _ _
  · rw [hSession, Program.result_bind, killAll_result]
    rfl
  · rw [hSession, Program.result_bind, killAll_result, hShown, Program.result_ret, List.nil_append,
      List.map_map]
    exact querySocket_ok hEnd (by decide)

end ServedLemmas

/-- **What `mgctl kill` does**, for every argument, every list of processes and every
timeline of the kernel. -/
theorem kill_served (toLowercase : String → String) (clock : Pid → Nat)
    (others : Route → Syscalls KillReply) (procs : List Process) (arg : List Char) (tl : Timeline)
    (t : Nat) : KillServed toLowercase clock others procs arg tl t := by
  by_cases hBlank : trim (firstLine arg) = []
  · exact killServed_blank hBlank
  · by_cases hNone : candidates toLowercase procs (pattern arg) = []
    · exact killServed_none hBlank hNone
    · exact killServed_some hBlank hNone

end Mgd.KillCommand
