import Mgd.DiscoverReaper
import Mgd.Lib.SharedStream
import Mgd.PluginWire

/-!
# The active window

A script that `mgd-kde` loads into KWin prints the PID of every window that is
activated, and a thread of the plugin reads the journal and tells the core
(`watch_active_window`).  The main loop of the plugin writes to the same socket.
`writeln!` on a socket is two writes, the JSON and the line feed, and nothing keeps
those of one thread together.

In front of all of it stands the `Identify` of the plugin, and what arrives in one
read with the end of that line is dropped with the first buffer of the core.

`focus_followed` says what the core acts on, for every journal, everything the main
loop has to say, every order of the writes and every cutting of the bytes, and that it
follows the last activated window where no line is begun within another.
-/

namespace Mgd.ActiveWindow

open Mgd.Types Mgd.Lib.Run Mgd.Lib.Text Mgd.Lib.Utf8 Mgd.Lib.Json Mgd.Lib.Serde
open Mgd.Lib.JsonNumbers (wholeNumbers)
open Mgd.Lib.LineStream hiding linesFrom
open Mgd.Lib.SharedStream Mgd.PluginWire Mgd.DiscoverReaper
open Mgd.PluginServer hiding step
open Mgd.PlasmaRestart hiding step

/-! ## The journal -/

/-- A line as `lines` gives it. -/
def chomp (line : List Char) : List Char :=
  if line.getLast? = some '\n' then dropCr line.dropLast else line

/-- The PID a line of the journal announces; a line that is no text is skipped. -/
def announced (line : Bytes) : Option Pid :=
  (decode line).bind fun l =>
    (stripPrefix "ACTIVE_WINDOW_PID:".toList (trim (chomp l))).bind fun pidStr =>
      (parseUnsigned (2 ^ 32 - 1) (trim pidStr)).map fun n => ⟨UInt32.ofNat n⟩

/-- The windows that are activated, as the journal has them. -/
def announcements (journal : Bytes) : List Pid := (byteLines journal).filterMap announced

def focusMessage (pid : Pid) : PluginMessage := .activeWindow (some pid)

/-- What `connect_and_identify` writes before there are two threads. -/
def identify (version : String) : PluginMessage := .identify "mgd-kde" version ["idle_reap"]

/-! ## The main loop -/

/-- What `check_plasma_discover` and `check_plasma_gpu` write. -/
inductive LoopMessage
  | kill (cfg : PlasmaDiscoverConfig) (pid : Pid) (rssKb : Nat)
  | query (pid : Pid)
  | restart (cfg : PlasmaConfig) (kb : Kb)

def LoopMessage.message : LoopMessage → PluginMessage
  | .kill cfg pid rssKb => killRequest cfg pid rssKb
  | .query pid => .queryGpu pid
  | .restart cfg kb => restartRequest cfg kb

/-! ## The socket -/

/-- The threads that write. -/
inductive Sender
  | mainLoop
  | watcher
deriving DecidableEq

/-- What they have to write. -/
def queues (journal : Bytes) (loop : List LoopMessage) : Sender → List PluginMessage
  | .mainLoop => loop.map LoopMessage.message
  | .watcher => (announcements journal).map focusMessage

/-- The window a message announces. -/
def focusOf : PluginMessage → Option (Option Pid)
  | .activeWindow pid => some pid
  | _ => none

/-- The last one of them. -/
def lastFocus (ms : List PluginMessage) : Option (Option Pid) := (ms.filterMap focusOf).getLast?

theorem lastFocus_eq {ms ms' : List PluginMessage}
    (h : ms.filterMap focusOf = ms'.filterMap focusOf) : lastFocus ms = lastFocus ms' := by
  rw [lastFocus, h, lastFocus]

/-- The last ones of the messages announce the same window last, or none. -/
theorem lastFocus_suffix {kept ms : List PluginMessage} (h : kept <:+ ms) :
    lastFocus kept = lastFocus ms ∨ lastFocus kept = none := by
  obtain ⟨gone, rfl⟩ := h
  rw [lastFocus, lastFocus, List.filterMap_append, List.getLast?_append]
  cases (kept.filterMap focusOf).getLast? with
  | none => exact Or.inr rfl
  | some pid => exact Or.inl rfl

theorem focusOf_loop (m : LoopMessage) : focusOf m.message = none := by
  cases m <;> rfl

theorem lastFocus_focusMessage (pids : List Pid) :
    lastFocus (pids.map focusMessage) = pids.getLast?.map some := by
  have hAll : (pids.map focusMessage).filterMap focusOf = pids.map some := by
    rw [List.filterMap_map]
    exact congrFun (List.filterMap_eq_map (f := some)) pids
  rw [lastFocus, hAll, List.getLast?_map]

/-! ## The core -/

/-- A line sets the window it announces. -/
theorem activePid_step (core : PluginState) (l : PluginServer.Line) :
    (PluginServer.step core l).activePid = (l.parsed.bind focusOf).getD core.activePid := by
  have hFound : (found core l).activePid = core.activePid := rfl
  unfold PluginServer.step PluginServer.handle
  cases hParsed : l.parsed with
  | none => exact hFound
  | some m =>
      cases m with
      | observation plugin metric pid value =>
          cases pid with
          | none => exact hFound
          | some p =>
              show (processPluginLine (some (.observation plugin metric (some p) value)) l.now
                (found core l)).state.activePid = core.activePid
              simp only [processPluginLine]
              split
              · exact hFound
              · exact hFound
      | _ => rfl

/-- The core hears of windows from one plugin only: the lines it gets on all of its
connections announce what the messages of that plugin announce. -/
def OnlySource (lines : List PluginServer.Line) (ms : List PluginMessage) : Prop :=
  (lines.filterMap PluginServer.Line.parsed).filterMap focusOf = ms.filterMap focusOf

/-- The window the core knows is the last one that was announced. -/
theorem activePid_run (core : PluginState) (lines : List PluginServer.Line) :
    (run PluginServer.step core lines).activePid =
      (lastFocus (lines.filterMap PluginServer.Line.parsed)).getD core.activePid := by
  induction lines generalizing core with
  | nil => rfl
  | cons l rest ih =>
      rw [run_cons, ih, activePid_step]
      cases hParsed : l.parsed with
      | none => rw [List.filterMap_cons_none hParsed]; rfl
      | some m =>
          rw [List.filterMap_cons_some hParsed, lastFocus, lastFocus]
          cases hFocus : focusOf m with
          | none =>
              rw [List.filterMap_cons_none hFocus]
              simp [hFocus]
          | some pid =>
              rw [List.filterMap_cons_some hFocus, List.getLast?_cons]
              simp only [Option.bind_some, hFocus, Option.getD_some]

/-! ## From the journal to the core -/

section Followed

variable {floats : Floats ℚ} {asDouble : Int → ℚ}

/-- The stream after the threads have made these writes. -/
def socket (journal : Bytes) (loop : List LoopMessage) (moves : List Sender) :
    Pipe Sender PluginMessage :=
  run step (Pipe.new (queues journal loop)) moves

theorem sendable_queues (floats : Floats ℚ) (journal : Bytes) (loop : List LoopMessage)
    (i : Sender) : ∀ m ∈ queues journal loop i, Sendable floats m := by
  intro m hm
  cases i with
  | mainLoop =>
      obtain ⟨l, -, rfl⟩ := List.mem_map.mp hm
      cases l <;> exact trivial
  | watcher =>
      obtain ⟨pid, -, rfl⟩ := List.mem_map.mp hm
      exact trivial

/-- The announcements among what is written are those of the watcher. -/
theorem lastFocus_written (journal : Bytes) (loop : List LoopMessage) (moves : List Sender) :
    lastFocus (written (socket journal loop moves).chunks) =
      lastFocus (sentBy .watcher (socket journal loop moves).chunks) := by
  refine lastFocus_eq (filterMap_written fun i m hMem hOther => ?_)
  have hQueue : m ∈ queues journal loop i := mem_queue hMem
  cases i with
  | watcher => exact absurd rfl hOther
  | mainLoop =>
      obtain ⟨l, -, rfl⟩ := List.mem_map.mp hQueue
      exact focusOf_loop l

/-- **The core follows the active window.**  For every journal, everything the main loop has to
say, every order of the writes of the two threads and every cutting of the bytes, the core acts on
`Identify` and then, if nothing came in with its end, on the messages that have a line of their
own.  Those are all of them if and only if no line is begun within another.  Then the core acts
on the last of them, and takes the window the watcher announced last for the active one as long
as it hears of windows from no one else, unless every announcement so far was dropped. -/
theorem focus_followed {version : String} {journal : Bytes} {loop : List LoopMessage}
    {moves : List Sender} {pieces : List Bytes}
    (hBytes : pieces.flatten =
      (pluginCodec floats asDouble).lineFormat.sent [identify version] ++
        wire (pluginCodec floats asDouble).lineFormat (socket journal loop moves).chunks) :
    ∃ kept, handled floats asDouble pieces = identify version :: kept ∧
      (dropped pieces = [] → kept = (linesOf (socket journal loop moves).chunks).alone) ∧
      ((linesOf (socket journal loop moves).chunks).alone =
          written (socket journal loop moves).chunks ↔
        EveryStep step OwnLine (Pipe.new (queues journal loop)) moves) ∧
      (EveryStep step OwnLine (Pipe.new (queues journal loop)) moves →
        kept <:+ written (socket journal loop moves).chunks ∧
        (kept = written (socket journal loop moves).chunks ↔ dropped pieces = []) ∧
        ∃ said, said <+: announcements journal ∧
          (((socket journal loop moves).writer .watcher).queue = [] →
            said = announcements journal) ∧
          ∀ (core : PluginState) (lines : List PluginServer.Line),
            OnlySource lines (handled floats asDouble pieces) →
            (run PluginServer.step core lines).activePid =
                (said.getLast?.map some).getD core.activePid ∨
              (dropped pieces ≠ [] ∧ lastFocus kept = none ∧
                (run PluginServer.step core lines).activePid = core.activePid)) := by
  have hSent : ∀ m ∈ written (socket journal loop moves).chunks, Sendable floats m := by
    intro m hm
    obtain ⟨i, hi⟩ := exists_sender hm
    exact sendable_queues floats journal loop i m (mem_queue hi)
  have hIdentify : Sendable floats (identify version) := trivial
  obtain ⟨later, hLater, hHandled⟩ := handled_first hIdentify hBytes
  refine ⟨_, hHandled, fun hWhole => ?_, kept_iff _ _, fun hOwn => ?_⟩
  · rw [hWhole, List.nil_append] at hLater
    exact received_wire (separate_lineFormat _) hSent hLater
  · obtain ⟨ms, last, hAll, hWire⟩ : ∃ ms last,
        written (socket journal loop moves).chunks = ms ++ Option.toList last ∧
          wire (pluginCodec floats asDouble).lineFormat (socket journal loop moves).chunks =
            (pluginCodec floats asDouble).lineFormat.sent ms ++
              (pluginCodec floats asDouble).lineFormat.unended last := wire_of_ownLine hOwn
    rw [hAll, List.forall_mem_append] at hSent
    obtain ⟨hSuffix, hExact⟩ := (pluginCodec floats asDouble).lineFormat.messages_after hSent.1
      (fun a ha => hSent.2 a (Option.mem_toList.mpr ha)) (hLater.trans hWire)
    rw [← hAll] at hSuffix hExact
    have hQueue : sentBy .watcher (socket journal loop moves).chunks ++
        ((socket journal loop moves).writer .watcher).queue =
          (announcements journal).map focusMessage :=
      sentBy_append_queue (queues journal loop) moves .watcher
    obtain ⟨said, rest, hSplit, hSaid, hRest⟩ := List.map_eq_append_iff.mp hQueue.symm
    refine ⟨hSuffix, hExact, said, ⟨rest, hSplit.symm⟩, fun hDone => ?_,
      fun core lines hLines => ?_⟩
    · rw [hDone] at hRest
      rw [hSplit, List.map_eq_nil_iff.mp hRest, List.append_nil]
    · have hLast : lastFocus (written (socket journal loop moves).chunks) =
          said.getLast?.map some := by
        rw [lastFocus_written, ← hSaid, lastFocus_focusMessage]
      have hFocus : lastFocus (lines.filterMap PluginServer.Line.parsed) =
          lastFocus ((pluginCodec floats asDouble).lineFormat.received later) := by
        rw [lastFocus_eq hLines, hHandled, lastFocus]
        rfl
      rw [activePid_run, hFocus]
      cases lastFocus_suffix hSuffix with
      | inl hSame =>
          rw [hSame, hLast]
          exact Or.inl rfl
      | inr hNone =>
          by_cases hWhole : dropped pieces = []
          · rw [hExact.mpr hWhole, hLast]
            exact Or.inl rfl
          · rw [hNone]
            exact Or.inr ⟨hWhole, rfl, rfl⟩

end Followed

/-- The journal after a window of process 42 was activated. -/
def activated : Bytes := encode "ACTIVE_WINDOW_PID:42\n".toList

/-- The main loop asks for the GPU memory of plasmashell. -/
def polling : List LoopMessage := [.query ⟨7⟩]

/-- The bytes of the plugin, in one read for `Identify` and one for the rest. -/
def twoReads (moves : List Sender) : List Bytes :=
  [(pluginCodec wholeNumbers Int.cast).lineFormat.sent [identify "0.4.0"],
    wire (pluginCodec wholeNumbers Int.cast).lineFormat (socket activated polling moves).chunks]

/-- The same bytes in one read. -/
def oneRead (moves : List Sender) : List Bytes := [(twoReads moves).flatten]

/-- Each thread ends its line before the other one begins. -/
def inTurn : List Sender := [.mainLoop, .mainLoop, .watcher, .watcher]

/-- The watcher writes its line between the two writes of the main loop. -/
def between : List Sender := [.mainLoop, .watcher, .watcher, .mainLoop]

theorem twoReads_flatten (moves : List Sender) :
    (twoReads moves).flatten =
      (pluginCodec wholeNumbers Int.cast).lineFormat.sent [identify "0.4.0"] ++
        wire (pluginCodec wholeNumbers Int.cast).lineFormat
          (socket activated polling moves).chunks := by
  rw [twoReads, List.flatten_cons, List.flatten_singleton]

/-- In turn, the window is known; in one read with `Identify` both messages are dropped;
and within one line both are lost. -/
theorem focus_followed_between :
    (handled wholeNumbers Int.cast (twoReads inTurn) =
        [identify "0.4.0", .queryGpu ⟨7⟩, focusMessage ⟨42⟩] ∧
      ∀ (core : PluginState) (lines : List PluginServer.Line),
        OnlySource lines (handled wholeNumbers Int.cast (twoReads inTurn)) →
        (run PluginServer.step core lines).activePid = some ⟨42⟩) ∧
      handled wholeNumbers Int.cast (oneRead inTurn) = [identify "0.4.0"] ∧
      handled wholeNumbers Int.cast (twoReads between) = [identify "0.4.0"] := by
  obtain ⟨kept, hKept, hWhole, -, hFollows⟩ := focus_followed (twoReads_flatten inTurn)
  obtain ⟨kept', hKept', hAlone, -, -⟩ := focus_followed (twoReads_flatten between)
  have hOwn : EveryStep step OwnLine (Pipe.new (queues activated polling)) inTurn := by
    rw [← kept_iff]
    rfl
  have hOnTime : dropped (twoReads inTurn) = [] := by decide +kernel
  have hDropped : dropped (oneRead inTurn) =
      wire (pluginCodec wholeNumbers Int.cast).lineFormat
        (socket activated polling inTurn).chunks := by decide +kernel
  refine ⟨⟨?_, fun core lines hLines => ?_⟩, ?_, ?_⟩
  · rw [hKept, hWhole hOnTime]
    rfl
  · obtain ⟨-, -, said, -, hSaid, hFocus⟩ := hFollows hOwn
    have hAll : said = [⟨42⟩] := (hSaid rfl).trans (by decide +kernel)
    rcases hFocus core lines hLines with hKnown | ⟨hLost, -⟩
    · rw [hKnown, hAll]
      rfl
    · exact absurd hOnTime hLost
  · have hIdentify : Sendable wholeNumbers (identify "0.4.0") := trivial
    obtain ⟨later, hLater, hHandled⟩ := handled_first hIdentify
      ((List.flatten_singleton ..).trans (twoReads_flatten inTurn))
    rw [← oneRead, hDropped, List.append_right_eq_self] at hLater
    rw [oneRead, hHandled]
    exact congrArg _ (LineFormat.received_sent (List.forall_mem_nil _) hLater)
  · rw [hKept', hAlone (by decide +kernel)]
    rfl

end Mgd.ActiveWindow
