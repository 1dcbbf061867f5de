import Mathlib.Data.Fintype.Basic
import Mgd.PluginServer

/-!
# Restarts of plasmashell

`mgd-kde` asks the core for the GPU memory of plasmashell, keeps what the
observations say in a cache that carries no PID, and requests a restart when the
cached value is above a threshold.  The core approves every request and
broadcasts answers and observations to all plugins; the reader thread of
`mgd-kde` restarts plasmashell on every approval it reads and notes the time,
which the main loop compares with `min_restart_interval_min` before it asks
again.

The threads take turns in any order.  A connection is a queue of lines to the
core and, for an `mgd-kde`, a queue of messages back.  `ι` indexes the
connections, and any of them may send any line.  The `Option PluginMessage` of a
line is what the parser makes of it.  `limited_of_guarded` gives the conditions
under which requests are justified and restarts rate-limited along a whole run.
-/

namespace Mgd.PlasmaRestart

open Mgd.Types Mgd.Lib.Run Mgd.PluginServer

universe u

/-! ## Configuration -/

/-- `[plasma]` -/
structure PlasmaConfig where
  minRestartIntervalMin : Nat
  gpuLeakThresholdMb : Nat
deriving DecidableEq

def defaultPlasmaCooldownMin : Nat := 30

def defaultPlasmaGpuThresholdMb : Nat := 1024

def PlasmaConfig.default : PlasmaConfig where
  minRestartIntervalMin := defaultPlasmaCooldownMin
  gpuLeakThresholdMb := defaultPlasmaGpuThresholdMb

/-- The interval in seconds. -/
def PlasmaConfig.intervalSecs (cfg : PlasmaConfig) : Nat := cfg.minRestartIntervalMin * 60

/-- The product of `u64`s the loop compares with; it wraps in a release build. -/
def PlasmaConfig.cooldownSecs (cfg : PlasmaConfig) : Nat := cfg.intervalSecs % 2 ^ 64

def PlasmaConfig.exceeds (cfg : PlasmaConfig) (kb : Kb) : Bool :=
  decide (kb.val / 1024 > cfg.gpuLeakThresholdMb)

/-! ## The PID of plasmashell -/

structure PidCache where
  pid : Pid
  startTime : Nat

/-- What `/proc` answers to `resolve_pid`. -/
structure ProcReading where
  startTime : Pid → Option Nat
  /-- `find_pid_by_name`, and the start time read for it -/
  found : Option Pid
  foundStartTime : Option Nat

def findAgain (proc : ProcReading) : Option PidCache × Option Pid :=
  match proc.found with
  | none => (none, none)
  | some pid =>
      match proc.foundStartTime with
      | none => (none, none)
      | some startTime => (some ⟨pid, startTime⟩, some pid)

def resolvePid (cache : Option PidCache) (proc : ProcReading) : Option PidCache × Option Pid :=
  match cache with
  | some c =>
      if proc.startTime c.pid = some c.startTime then (some c, some c.pid) else findAgain proc
  | none => findAgain proc

/-! ## mgd-kde -/

/-- Where the main loop is in `check_plasma_gpu`: the PID it resolved, and the
clock and the last restart it read. -/
inductive PollPc
  | idle
  /-- `QueryGpu` is to be written. -/
  | checked (pid : Pid) (now lastRestart : Nat)
  /-- The cache is to be read. -/
  | queried (pid : Pid) (now lastRestart : Nat)
  /-- The value read is above the threshold, `ActionRequest` is to be written. -/
  | deciding (pid : Pid) (now lastRestart : Nat) (kb : Kb)
  /-- The cache is to be reset. -/
  | requested

structure Kde where
  /-- sent by the core and not read yet, with the number of the line answered -/
  inbox : List (CoreMessage × Nat)
  /-- `gpu_kb_cache` -/
  cache : Kb
  /-- `LAST_PLASMA_RESTART`, in Unix seconds -/
  lastRestart : Nat
  pidCache : Option PidCache
  poll : PollPc
  /-- the latest observation received about a PID -/
  latest : Pid → Option Kb

/-- An `mgd-kde` that has just connected. -/
def Kde.new : Kde where
  inbox := []
  cache := Kb.clamp 0
  lastRestart := 0
  pidCache := none
  poll := .idle
  latest := fun _ => none

/-- The approval on which the reader thread restarts plasmashell. -/
def approves : CoreMessage → Bool
  | .actionResponse (.restartProcess name) approved _ => approved && name == "plasmashell"
  | .actionResponse (.freezePid _) _ _ => false
  | .actionResponse (.killPid _) _ _ => false
  | .gpuObservation _ _ _ _ _ => false

/-- What the reader thread does with a message. -/
def Kde.read (k : Kde) (msg : CoreMessage) (clock : Nat) : Kde :=
  match msg with
  | .gpuObservation pid kb _ _ _ =>
      { k with cache := kb, latest := Function.update k.latest pid (some kb) }
  | .actionResponse _ _ _ => if approves msg then { k with lastRestart := clock } else k

/-- The first lines of `check_plasma_gpu`, up to the PID. -/
def Kde.check (k : Kde) (cfg : PlasmaConfig) (clock : Nat) (proc : ProcReading) : Kde :=
  if clock - k.lastRestart < cfg.cooldownSecs then k
  else
    let resolved := resolvePid k.pidCache proc
    { k with
      pidCache := resolved.1
      poll :=
        match resolved.2 with
        | some pid => .checked pid clock k.lastRestart
        | none => .idle }

/-! ## The connections -/

/-- A line on its way to the core. -/
structure Line where
  parsed : Option PluginMessage
  /-- a request of the main loop: how many restarts had been executed -/
  after : Option Nat

/-- A restart that `mgd-kde` executed, and the number of the request. -/
structure Restart where
  time : Nat
  request : Nat
deriving DecidableEq

structure World (ι : Type u) where
  /-- Unix seconds -/
  clock : Nat
  core : PluginState
  /-- lines the core has handled so far -/
  handled : Nat
  lines : ι → List Line
  kdes : ι → Option Kde
  /-- for every request of `mgd-kde`, the latest observation of the PID it resolved -/
  requests : List (Option Kb)
  /-- the last one first -/
  executed : List Restart

inductive Move (ι : Type u)
  | tick (secs : Nat)
  /-- An `mgd-kde` connects. -/
  | connect (i : ι)
  | disconnect (i : ι)
  /-- A line that is not from `check_plasma_gpu`. -/
  | write (i : ι) (parsed : Option PluginMessage)
  /-- The main loop of an `mgd-kde` begins a poll. -/
  | check (i : ι) (proc : ProcReading)
  /-- It takes the next step of the poll. -/
  | poll (i : ι)
  /-- The core handles the next line of the connection. -/
  | handle (i : ι) (now : Instant)
  /-- The reader thread of an `mgd-kde` handles the next message. -/
  | receive (i : ι)

section Steps

variable {ι : Type u}

/-- The core and no plugin, at that Unix time. -/
def World.start (core : PluginState) (clock : Nat) : World ι where
  clock := clock
  core := core
  handled := 0
  lines := fun _ => []
  kdes := fun _ => none
  requests := []
  executed := []

variable [DecidableEq ι]

def World.setKde (w : World ι) (i : ι) (k : Option Kde) : World ι :=
  { w with kdes := Function.update w.kdes i k }

/-- `writeln!` on a connection. -/
def World.send (w : World ι) (i : ι) (line : Line) : World ι :=
  { w with lines := Function.update w.lines i (w.lines i ++ [line]) }

/-- The request `check_plasma_gpu` writes. -/
def restartRequest (cfg : PlasmaConfig) (kb : Kb) : PluginMessage :=
  .actionRequest "mgd-kde" (.restartProcess "plasmashell")
    ("gpu memory " ++ toString (kb.val / 1024) ++ "MB > " ++ toString cfg.gpuLeakThresholdMb ++
      "MB")

/-- The poll, after its check. -/
def pollStep (cfg : PlasmaConfig) (w : World ι) (i : ι) (k : Kde) : World ι :=
  match k.poll with
  | .idle => w
  | .checked pid now lastRestart =>
      (w.send i ⟨some (.queryGpu pid), none⟩).setKde i
        (some { k with poll := .queried pid now lastRestart })
  | .queried pid now lastRestart =>
      w.setKde i (some { k with
        poll := if cfg.exceeds k.cache then .deciding pid now lastRestart k.cache else .idle })
  | .deciding pid _ _ kb =>
      { w.send i ⟨some (restartRequest cfg kb), some w.executed.length⟩ with
        requests := k.latest pid :: w.requests }.setKde i (some { k with poll := .requested })
  | .requested => w.setKde i (some { k with cache := Kb.clamp 0, poll := .idle })

/-- `process_plugin_line`; what it sends goes to every `mgd-kde`. -/
def handleStep (w : World ι) (i : ι) (now : Instant) : World ι :=
  match w.lines i with
  | [] => w
  | line :: rest =>
      let handled := processPluginLine line.parsed now w.core
      { w with
        core := handled.state
        handled := w.handled + 1
        lines := Function.update w.lines i rest
        kdes := fun j => (w.kdes j).map fun k =>
          { k with inbox := k.inbox ++ handled.broadcasts.map fun msg => (msg, w.handled) } }

/-- The reader thread; `systemctl restart` is spawned on an approval. -/
def receiveStep (w : World ι) (i : ι) (k : Kde) : World ι :=
  match k.inbox with
  | [] => w
  | (msg, request) :: rest =>
      { w with
        executed :=
          if approves msg then ⟨w.clock, request⟩ :: w.executed else w.executed }.setKde i
        (some ({ k with inbox := rest }.read msg w.clock))

def step (cfg : PlasmaConfig) (w : World ι) : Move ι → World ι
  | .tick secs => { w with clock := w.clock + secs }
  | .connect i =>
      match w.kdes i with
      | none => w.setKde i (some Kde.new)
      | some _ => w
  | .disconnect i => w.setKde i none
  | .write i parsed => w.send i ⟨parsed, none⟩
  | .check i proc =>
      match w.kdes i with
      | none => w
      | some k =>
          match k.poll with
          | .idle => w.setKde i (some (k.check cfg w.clock proc))
          | _ => w
  | .poll i =>
      match w.kdes i with
      | none => w
      | some k => pollStep cfg w i k
  | .handle i now => handleStep w i now
  | .receive i =>
      match w.kdes i with
      | none => w
      | some k => receiveStep w i k

end Steps

/-! ## What is promised -/

/-- Requests are justified, and restarts are rate-limited. -/
structure Limited {ι : Type u} (cfg : PlasmaConfig) (w : World ι) : Prop where
  /-- plasmashell's own latest observation is above the threshold -/
  justified : ∀ latest ∈ w.requests, ∃ kb, latest = some kb ∧ cfg.exceeds kb = true
  /-- a request leads to one restart at most -/
  once : (w.executed.map Restart.request).Nodup
  spaced : w.executed.Pairwise fun later earlier =>
    earlier.time + cfg.intervalSecs ≤ later.time

/-- The interval is over for every restart so far. -/
def Cool {ι : Type u} (cfg : PlasmaConfig) (w : World ι) : Prop :=
  ∀ r ∈ w.executed, r.time + cfg.intervalSecs ≤ w.clock

/-- The approvals among these messages, by the number of the request. -/
def approvals (inbox : List (CoreMessage × Nat)) : List Nat :=
  (inbox.filter fun m => approves m.1).map Prod.snd

def requestsRestart : Option PluginMessage → Bool
  | some (.actionRequest _ (.restartProcess name) _) => name == "plasmashell"
  | _ => false

section Guard

variable {ι : Type u}

/-- A poll that writes a request read the value of the latest observation of its
own PID, and has seen every restart of the interval. -/
def PollPc.Guarded (cfg : PlasmaConfig) (w : World ι) (latest : Pid → Option Kb) : PollPc → Prop
  | .idle => True
  | .checked _ _ _ => True
  | .queried _ _ _ => True
  | .deciding pid now lastRestart kb =>
      latest pid = some kb ∧ cfg.intervalSecs < 2 ^ 64 ∧
        ∀ r ∈ w.executed, r.time ≤ lastRestart ∨ r.time + cfg.intervalSecs ≤ now
  | .requested => True

/-- A restart request that reaches an `mgd-kde` reaches no other, finds no
approval waiting there, and has not been overtaken by a restart. -/
def GuardedRequest (cfg : PlasmaConfig) (w : World ι) (line : Line) : Prop :=
  ∀ i, ∀ k ∈ w.kdes i,
    (∀ j, (w.kdes j).isSome = true → j = i) ∧ approvals k.inbox = [] ∧
      (line.after = some w.executed.length ∨ Cool cfg w)

def Guarded (cfg : PlasmaConfig) (w : World ι) : Move ι → Prop
  | .poll i => ∀ k ∈ w.kdes i, k.poll.Guarded cfg w k.latest
  | .handle i _ =>
      ∀ line ∈ (w.lines i).head?,
        requestsRestart line.parsed = true → GuardedRequest cfg w line
  | _ => True

instance (cfg : PlasmaConfig) (w : World ι) : Decidable (Cool cfg w) :=
  inferInstanceAs (Decidable (∀ r ∈ w.executed, _))

instance decidablePollGuarded (cfg : PlasmaConfig) (w : World ι) (latest : Pid → Option Kb) :
    ∀ pc : PollPc, Decidable (pc.Guarded cfg w latest)
  | .idle => isTrue trivial
  | .checked _ _ _ => isTrue trivial
  | .queried _ _ _ => isTrue trivial
  | .deciding _ _ _ _ => inferInstanceAs (Decidable (_ ∧ _ ∧ _))
  | .requested => isTrue trivial

instance [Fintype ι] [DecidableEq ι] (cfg : PlasmaConfig) (w : World ι) (line : Line) :
    Decidable (GuardedRequest cfg w line) :=
  inferInstanceAs (Decidable (∀ i, ∀ k ∈ w.kdes i, _))

instance decidableGuarded [Fintype ι] [DecidableEq ι] (cfg : PlasmaConfig) (w : World ι) :
    ∀ m : Move ι, Decidable (Guarded cfg w m)
  | .tick _ => isTrue trivial
  | .connect _ => isTrue trivial
  | .disconnect _ => isTrue trivial
  | .write _ _ => isTrue trivial
  | .check _ _ => isTrue trivial
  | .poll i => inferInstanceAs (Decidable (∀ k ∈ w.kdes i, _))
  | .handle i _ => inferInstanceAs (Decidable (∀ line ∈ (w.lines i).head?, _))
  | .receive _ => isTrue trivial

end Guard

/-! ## Messages -/

theorem approvals_append (xs ys : List (CoreMessage × Nat)) :
    approvals (xs ++ ys) = approvals xs ++ approvals ys := by
  unfold approvals
  rw [List.filter_append, List.map_append]

theorem approvals_cons (msg : CoreMessage) (request : Nat) (rest : List (CoreMessage × Nat)) :
    approvals ((msg, request) :: rest) =
      if approves msg then request :: approvals rest else approvals rest := by
  unfold approvals
  rw [List.filter_cons]
  split <;> rfl

/-- **A line is answered with an approval exactly when it requests a restart**, and
with one at most. -/
theorem approvals_broadcasts (line : Option PluginMessage) (now : Instant) (s : PluginState)
    (number : Nat) :
    approvals ((processPluginLine line now s).broadcasts.map fun msg => (msg, number)) =
      if requestsRestart line then [number] else [] := by
  cases line with
  | none => rfl
  | some msg =>
      cases msg with
      | identify name version capabilities => rfl
      | observation plugin metric pid value =>
          cases pid with
          | none => rfl
          | some p =>
              simp only [processPluginLine]
              split <;> rfl
      | actionRequest plugin action reason =>
          cases action with
          | restartProcess name =>
              have hSame : approvals [(CoreMessage.actionResponse (.restartProcess name) true none,
                  number)] = if name == "plasmashell" then [number] else [] := by
                rw [approvals_cons]
                rfl
              exact hSame
          | freezePid pid => rfl
          | killPid pid => rfl
      | queryGpu pid => rfl
      | activeWindow pid => cases pid <;> rfl

@[simp] theorem read_inbox (k : Kde) (msg : CoreMessage) (clock : Nat) :
    (k.read msg clock).inbox = k.inbox := by
  unfold Kde.read
  split
  · rfl
  · split <;> rfl

@[simp] theorem read_poll (k : Kde) (msg : CoreMessage) (clock : Nat) :
    (k.read msg clock).poll = k.poll := by
  unfold Kde.read
  split
  · rfl
  · split <;> rfl

@[simp] theorem check_inbox (k : Kde) (cfg : PlasmaConfig) (clock : Nat) (proc : ProcReading) :
    (k.check cfg clock proc).inbox = k.inbox := by
  unfold Kde.check
  split <;> rfl

/-! ## The invariant -/

/-- What the poll knows: it read the clock and found the cooldown over, and the
value it is deciding on is above the threshold. -/
def PollPc.Sound (cfg : PlasmaConfig) (clock : Nat) : PollPc → Prop
  | .idle => True
  | .checked _ now lastRestart => now ≤ clock ∧ cfg.cooldownSecs ≤ now - lastRestart
  | .queried _ now lastRestart => now ≤ clock ∧ cfg.cooldownSecs ≤ now - lastRestart
  | .deciding _ now lastRestart kb =>
      now ≤ clock ∧ cfg.cooldownSecs ≤ now - lastRestart ∧ cfg.exceeds kb = true
  | .requested => True

theorem PollPc.Sound.later {cfg : PlasmaConfig} {clock : Nat} {pc : PollPc}
    (h : pc.Sound cfg clock) (secs : Nat) : pc.Sound cfg (clock + secs) := by
  cases pc with
  | idle => trivial
  | checked pid now lastRestart => exact ⟨Nat.le_add_right_of_le h.1, h.2⟩
  | queried pid now lastRestart => exact ⟨Nat.le_add_right_of_le h.1, h.2⟩
  | deciding pid now lastRestart kb => exact ⟨Nat.le_add_right_of_le h.1, h.2⟩
  | requested => trivial

theorem sound_check {k : Kde} (cfg : PlasmaConfig) (clock : Nat) (proc : ProcReading)
    (h : k.poll.Sound cfg clock) : (k.check cfg clock proc).poll.Sound cfg clock := by
  unfold Kde.check
  split
  · exact h
  · next hOver =>
      dsimp only
      split
      · exact ⟨Nat.le_refl clock, Nat.le_of_not_lt hOver⟩
      · trivial

section Invariant

variable {ι : Type u} {cfg : PlasmaConfig} {w : World ι}

/-- A request is on its way with its cooldown checked, or a restart came after. -/
def Line.Sound (cfg : PlasmaConfig) (w : World ι) (line : Line) : Prop :=
  ∀ n, line.after = some n → n ≤ w.executed.length ∧ (n = w.executed.length → Cool cfg w)

structure Inv (cfg : PlasmaConfig) (w : World ι) : Prop where
  limited : Limited cfg w
  past : ∀ r ∈ w.executed, r.time ≤ w.clock
  numbered : ∀ r ∈ w.executed, r.request < w.handled
  polls : ∀ i, ∀ k ∈ w.kdes i, k.poll.Sound cfg w.clock
  lines : ∀ i, ∀ line ∈ w.lines i, line.Sound cfg w
  /-- an approval waits for one `mgd-kde`, alone, with the interval over -/
  waiting : ∀ i, ∀ k ∈ w.kdes i, ∀ n ∈ approvals k.inbox,
    approvals k.inbox = [n] ∧ Cool cfg w ∧ n < w.handled ∧
      n ∉ w.executed.map Restart.request ∧
      ∀ j, ∀ k' ∈ w.kdes j, approvals k'.inbox ≠ [] → j = i

theorem inv_start (core : PluginState) (clock : Nat) :
    Inv cfg (World.start core clock : World ι) where
  limited := ⟨by simp [World.start], List.nodup_nil, List.Pairwise.nil⟩
  past := by simp [World.start]
  numbered := by simp [World.start]
  polls := by simp [World.start]
  lines := by simp [World.start]
  waiting := by simp [World.start]

theorem Inv.tick (h : Inv cfg w) (secs : Nat) :
    Inv cfg { w with clock := w.clock + secs } := by
  have hCool : Cool cfg w → Cool cfg { w with clock := w.clock + secs } := fun hCool r hr =>
    Nat.le_add_right_of_le (hCool r hr)
  refine ⟨⟨h.limited.justified, h.limited.once, h.limited.spaced⟩, ?_, h.numbered, ?_, ?_, ?_⟩
  · exact fun r hr => Nat.le_add_right_of_le (h.past r hr)
  · exact fun i k hk => (h.polls i k hk).later secs
  · intro i line hLine n hAfter
    obtain ⟨hLe, hSame⟩ := h.lines i line hLine n hAfter
    exact ⟨hLe, fun hn => hCool (hSame hn)⟩
  · intro i k hk n hn
    obtain ⟨hOne, hOver, hRest⟩ := h.waiting i k hk n hn
    exact ⟨hOne, hCool hOver, hRest⟩

/-- A line that is not a request of the main loop. -/
theorem sound_of_after_none {parsed : Option PluginMessage} :
    (⟨parsed, none⟩ : Line).Sound cfg w := by
  intro n hAfter
  cases hAfter

variable {i : ι}

/-- **The cooldown.**  A poll that has seen every restart of the interval asks
only when the interval is over for all of them. -/
theorem cool_of_deciding (h : Inv cfg w) {k : Kde} (hk : k ∈ w.kdes i) {pid : Pid}
    {now lastRestart : Nat} {kb : Kb} (hPc : k.poll = .deciding pid now lastRestart kb)
    (hGuard : k.poll.Guarded cfg w k.latest) : Cool cfg w := by
  have hSound := h.polls i k hk
  rw [hPc] at hSound hGuard
  obtain ⟨hNow, hOver, -⟩ := hSound
  obtain ⟨-, hFits, hSeen⟩ := hGuard
  have hCooldown : cfg.cooldownSecs = cfg.intervalSecs := Nat.mod_eq_of_lt hFits
  intro r hr
  have hPast := h.past r hr
  rcases hSeen r hr with hKnown | hOld
  · omega
  · omega

theorem Inv.request (h : Inv cfg w) {latest : Option Kb}
    (hLatest : ∃ kb, latest = some kb ∧ cfg.exceeds kb = true) :
    Inv cfg { w with requests := latest :: w.requests } := by
  refine ⟨⟨?_, h.limited.once, h.limited.spaced⟩, h.past, h.numbered, h.polls, h.lines, h.waiting⟩
  intro latest' hMem
  rcases List.mem_cons.mp hMem with rfl | hOld
  · exact hLatest
  · exact h.limited.justified latest' hOld

variable [DecidableEq ι]

theorem mem_setKde {after : Option Kde} {j : ι} {k : Kde} :
    k ∈ (w.setKde i after).kdes j ↔ if j = i then k ∈ after else k ∈ w.kdes j := by
  by_cases hj : j = i
  · rw [if_pos hj, hj]
    simp [World.setKde]
  · rw [if_neg hj]
    simp [World.setKde, Function.update_of_ne hj]

/-- A step of one `mgd-kde` that adds no approval. -/
theorem Inv.setKde (h : Inv cfg w) (i : ι) {after : Option Kde}
    (hPoll : ∀ k ∈ after, k.poll.Sound cfg w.clock)
    (hInbox : ∀ k ∈ after, approvals k.inbox = [] ∨
      ∃ before ∈ w.kdes i, approvals k.inbox = approvals before.inbox) :
    Inv cfg (w.setKde i after) := by
  -- an approval that waits now was waiting before
  have hBefore : ∀ j, ∀ k ∈ (w.setKde i after).kdes j, approvals k.inbox ≠ [] →
      ∃ before ∈ w.kdes j, approvals k.inbox = approvals before.inbox := by
    intro j k hk hSome
    rw [mem_setKde] at hk
    split at hk
    · next hj =>
        rw [hj]
        exact (hInbox k hk).resolve_left hSome
    · exact ⟨k, hk, rfl⟩
  refine ⟨⟨h.limited.justified, h.limited.once, h.limited.spaced⟩, h.past, h.numbered, ?_,
    h.lines, ?_⟩
  · intro j k hk
    rw [mem_setKde] at hk
    split at hk
    · exact hPoll k hk
    · exact h.polls j k hk
  · intro j k hk n hn
    obtain ⟨before, hMem, hSame⟩ := hBefore j k hk (List.ne_nil_of_mem hn)
    rw [hSame] at hn ⊢
    obtain ⟨hOne, hOver, hNumber, hFresh, hAlone⟩ := h.waiting j before hMem n hn
    refine ⟨hOne, hOver, hNumber, hFresh, fun j' k' hk' hSome => ?_⟩
    obtain ⟨before', hMem', hSame'⟩ := hBefore j' k' hk' hSome
    exact hAlone j' before' hMem' (hSame' ▸ hSome)

theorem Inv.send (h : Inv cfg w) (i : ι) {line : Line} (hLine : line.Sound cfg w) :
    Inv cfg (w.send i line) := by
  refine ⟨⟨h.limited.justified, h.limited.once, h.limited.spaced⟩, h.past, h.numbered, h.polls,
    ?_, h.waiting⟩
  intro j l hl
  by_cases hj : j = i
  · subst hj
    simp only [World.send, Function.update_self, List.mem_append, List.mem_singleton] at hl
    rcases hl with hOld | hNew
    · exact h.lines j l hOld
    · rw [hNew]
      exact hLine
  · exact h.lines j l (by simpa [World.send, Function.update_of_ne hj] using hl)

/-! ## Polls -/

theorem Inv.pollStep (h : Inv cfg w) {k : Kde} (hk : k ∈ w.kdes i)
    (hGuard : k.poll.Guarded cfg w k.latest) : Inv cfg (pollStep cfg w i k) := by
  have hSound := h.polls i k hk
  have hInbox : ∀ k' ∈ some k, approvals k'.inbox = [] ∨
      ∃ before ∈ w.kdes i, approvals k'.inbox = approvals before.inbox := by
    intro k' hk'
    cases hk'
    exact Or.inr ⟨k, hk, rfl⟩
  unfold PlasmaRestart.pollStep
  cases hPc : k.poll with
  | idle => exact h
  | checked pid now lastRestart =>
      rw [hPc] at hSound
      refine (h.send i sound_of_after_none).setKde i ?_ ?_
      · rintro k' ⟨⟩
        exact hSound
      · rintro k' ⟨⟩
        exact hInbox k rfl
  | queried pid now lastRestart =>
      rw [hPc] at hSound
      refine h.setKde i ?_ ?_
      · rintro k' ⟨⟩
        dsimp only
        split
        · next hAbove => exact ⟨hSound.1, hSound.2, hAbove⟩
        · trivial
      · rintro k' ⟨⟩
        exact hInbox k rfl
  | deciding pid now lastRestart kb =>
      have hCool : Cool cfg w := cool_of_deciding h hk hPc hGuard
      rw [hPc] at hSound hGuard
      have hLine : (⟨some (restartRequest cfg kb), some w.executed.length⟩ : Line).Sound cfg w := by
        intro n hAfter
        cases hAfter
        exact ⟨Nat.le_refl _, fun _ => hCool⟩
      refine ((h.send i hLine).request ⟨kb, hGuard.1, hSound.2.2⟩).setKde i ?_ ?_
      · rintro k' ⟨⟩
        trivial
      · rintro k' ⟨⟩
        exact hInbox k rfl
  | requested =>
      refine h.setKde i ?_ ?_
      · rintro k' ⟨⟩
        trivial
      · rintro k' ⟨⟩
        exact hInbox k rfl

/-! ## The core and the reader threads -/

theorem Inv.handleStep (h : Inv cfg w) (now : Instant)
    (hGuard : ∀ line ∈ (w.lines i).head?,
      requestsRestart line.parsed = true → GuardedRequest cfg w line) :
    Inv cfg (handleStep w i now) := by
  unfold PlasmaRestart.handleStep
  split
  · exact h
  next line rest hLines =>
  have hLine : line.Sound cfg w := h.lines i line (by rw [hLines]; exact List.mem_cons_self)
  have hRequest : requestsRestart line.parsed = true → GuardedRequest cfg w line :=
    hGuard line (by rw [hLines]; rfl)
  refine ⟨⟨h.limited.justified, h.limited.once, h.limited.spaced⟩, h.past, ?_, ?_, ?_, ?_⟩
  · exact fun r hr => Nat.lt_succ_of_lt (h.numbered r hr)
  · intro j k' hk'
    obtain ⟨k, hk, rfl⟩ := Option.map_eq_some_iff.mp hk'
    exact h.polls j k hk
  · intro j l hl
    by_cases hj : j = i
    · subst hj
      refine h.lines j l ?_
      rw [hLines]
      exact List.mem_cons_of_mem line (by simpa using hl)
    · exact h.lines j l (by simpa [Function.update_of_ne hj] using hl)
  · intro j k' hk' n hn
    obtain ⟨k, hk, rfl⟩ := Option.map_eq_some_iff.mp hk'
    dsimp only at hn ⊢
    rw [approvals_append, approvals_broadcasts] at hn ⊢
    by_cases hAsks : requestsRestart line.parsed = true
    · -- the approval comes to an empty queue, and to no other
      obtain ⟨hOnly, hEmpty, hOver⟩ := hRequest hAsks j k hk
      rw [if_pos hAsks, hEmpty, List.nil_append] at hn ⊢
      rw [List.mem_singleton] at hn
      subst hn
      refine ⟨rfl, ?_, Nat.lt_succ_self _, ?_, ?_⟩
      · exact hOver.elim (fun hAfter => (hLine _ hAfter).2 rfl) id
      · intro hMem
        obtain ⟨r, hr, hNumber⟩ := List.mem_map.mp hMem
        exact absurd (h.numbered r hr) (by omega)
      · intro j' k'' hk'' _
        obtain ⟨before, hBefore, -⟩ := Option.map_eq_some_iff.mp hk''
        exact hOnly j' (by rw [hBefore]; rfl)
    · rw [if_neg hAsks, List.append_nil] at hn ⊢
      obtain ⟨hOne, hOver, hNumber, hFresh, hAlone⟩ := h.waiting j k hk n hn
      refine ⟨hOne, hOver, Nat.lt_succ_of_lt hNumber, hFresh, ?_⟩
      intro j' k'' hk'' hSome
      obtain ⟨before, hBefore, rfl⟩ := Option.map_eq_some_iff.mp hk''
      rw [approvals_append, approvals_broadcasts, if_neg hAsks, List.append_nil] at hSome
      exact hAlone j' before hBefore hSome

/-- The restart an approval leads to is the only one of its request, and comes
after the interval. -/
theorem Inv.execute (h : Inv cfg w) {k : Kde} (hk : k ∈ w.kdes i) {msg : CoreMessage}
    {request : Nat} {rest : List (CoreMessage × Nat)} (hInbox : k.inbox = (msg, request) :: rest)
    (hApproves : approves msg = true) :
    Inv cfg ({ w with executed := ⟨w.clock, request⟩ :: w.executed }.setKde i
      (some ({ k with inbox := rest }.read msg w.clock))) := by
  have hApprovals : approvals k.inbox = request :: approvals rest := by
    rw [hInbox, approvals_cons, if_pos hApproves]
  obtain ⟨hOne, hCool, hNumber, hFresh, hAlone⟩ :=
    h.waiting i k hk request (by rw [hApprovals]; exact List.mem_cons_self)
  have hRest : approvals rest = [] := by
    rw [hApprovals] at hOne
    exact (List.cons.inj hOne).2
  refine ⟨⟨h.limited.justified, ?_, ?_⟩, ?_, ?_, ?_, ?_, ?_⟩
  · exact List.nodup_cons.mpr ⟨hFresh, h.limited.once⟩
  · exact List.pairwise_cons.mpr ⟨hCool, h.limited.spaced⟩
  · intro r hr
    rcases List.mem_cons.mp hr with rfl | hOld
    · exact Nat.le_refl _
    · exact h.past r hOld
  · intro r hr
    rcases List.mem_cons.mp hr with rfl | hOld
    · exact hNumber
    · exact h.numbered r hOld
  · intro j k' hk'
    rw [mem_setKde] at hk'
    split at hk'
    · rw [Option.mem_some_iff] at hk'
      rw [← hk', read_poll]
      exact h.polls i k hk
    · exact h.polls j k' hk'
  · intro j line hLine n hAfter
    obtain ⟨hLe, -⟩ := h.lines j line hLine n hAfter
    have hLength : (⟨w.clock, request⟩ :: w.executed).length = w.executed.length + 1 :=
      List.length_cons
    refine ⟨Nat.le_succ_of_le hLe, fun hSame => ?_⟩
    have hSame' : n = w.executed.length + 1 := hSame
    omega
  · intro j k' hk' n hn
    rw [mem_setKde] at hk'
    split at hk'
    · rw [Option.mem_some_iff] at hk'
      rw [← hk', read_inbox, hRest] at hn
      cases hn
    · next hj => exact absurd (hAlone j k' hk' (List.ne_nil_of_mem hn)) hj

theorem Inv.receiveStep (h : Inv cfg w) {k : Kde} (hk : k ∈ w.kdes i) :
    Inv cfg (receiveStep w i k) := by
  unfold PlasmaRestart.receiveStep
  split
  · exact h
  next msg request rest hInbox =>
  by_cases hApproves : approves msg = true
  · rw [if_pos hApproves]
    exact h.execute hk hInbox hApproves
  · rw [if_neg hApproves]
    refine h.setKde i ?_ ?_
    · intro k' hk'
      rw [Option.mem_some_iff] at hk'
      rw [← hk', read_poll]
      exact h.polls i k hk
    · intro k' hk'
      rw [Option.mem_some_iff] at hk'
      refine Or.inr ⟨k, hk, ?_⟩
      rw [← hk', read_inbox, hInbox, approvals_cons, if_neg hApproves]

/-! ## Runs -/

/-- **What a guarded step keeps.** -/
theorem Inv.step (h : Inv cfg w) {m : Move ι} (hGuard : Guarded cfg w m) :
    Inv cfg (step cfg w m) := by
  cases m with
  | tick secs => exact h.tick secs
  | connect i =>
      simp only [PlasmaRestart.step]
      split
      · refine h.setKde i ?_ ?_
        · rintro k ⟨⟩
          trivial
        · rintro k ⟨⟩
          exact Or.inl rfl
      · exact h
  | disconnect i => exact h.setKde i (by simp) (by simp)
  | write i parsed => exact h.send i sound_of_after_none
  | check i proc =>
      simp only [PlasmaRestart.step]
      split
      · exact h
      · next k hk =>
          split
          · refine h.setKde i ?_ ?_
            · intro k' hk'
              rw [Option.mem_some_iff] at hk'
              rw [← hk']
              exact sound_check cfg w.clock proc (h.polls i k hk)
            · intro k' hk'
              rw [Option.mem_some_iff] at hk'
              exact Or.inr ⟨k, hk, by rw [← hk', check_inbox]⟩
          · exact h
  | poll i =>
      simp only [PlasmaRestart.step]
      split
      · exact h
      · next k hk => exact h.pollStep hk (hGuard k hk)
  | handle i now => exact h.handleStep now hGuard
  | receive i =>
      simp only [PlasmaRestart.step]
      split
      · exact h
      · next k hk => exact h.receiveStep hk

/-- **Restarts are justified and rate-limited in every guarded run**, whatever the
clients, their lines and the order of the messages. -/
theorem limited_of_guarded (cfg : PlasmaConfig) (core : PluginState) (clock : Nat)
    (moves : List (Move ι))
    (hGuarded : EveryStep (PlasmaRestart.step cfg) (Guarded cfg) (World.start core clock) moves) :
    Always (PlasmaRestart.step cfg) (Limited cfg) (World.start core clock) moves :=
  Always.imp (fun _ h => h.limited)
    (always_of_invariant (fun _ _ h hGuard => h.step hGuard) (inv_start core clock) hGuarded)

end Invariant

/-! ## A leak, and half an hour later -/

/-- plasmashell with PID 1000. -/
def firstShell : ProcReading where
  startTime := fun _ => some 50
  found := some ⟨1000⟩
  foundStartTime := some 50

/-- plasmashell restarted, with PID 2000. -/
def secondShell : ProcReading where
  startTime := fun pid => if pid = ⟨2000⟩ then some 90 else none
  found := some ⟨2000⟩
  foundStartTime := some 90

/-- Connection 0 is `mgd-kde`, connection 1 a GPU plugin that has measured 1.5 GB
for plasmashell.  The second poll requests a restart, and the query it has just
sent is answered after it has reset the cache. -/
def leak : List (Move (Fin 2)) :=
  [.connect 0,
    .write 1 (some (.observation "mgd-gpu-intel" .gpuResidentKb (some ⟨1000⟩) 1572864)),
    .handle 1 0, .check 0 firstShell, .poll 0, .poll 0, .handle 0 0, .receive 0, .tick 10,
    .check 0 firstShell, .poll 0, .poll 0, .poll 0, .poll 0, .handle 0 0, .handle 0 0,
    .receive 0, .receive 0]

/-- The first poll after the cooldown finds the old value. -/
def halfAnHourLater : List (Move (Fin 2)) :=
  leak ++ [.tick 1800, .check 0 secondShell, .poll 0, .poll 0, .poll 0]

/-- No plugin has been heard. -/
def quietCore : PluginState := ⟨Executor.Registry.FrozenRegistry.new, ∅, none⟩

theorem leak_limited :
    Always (step .default) (Limited .default) (World.start quietCore 100000) leak ∧
      (run (step .default) (World.start quietCore 100000) leak).executed = [⟨100010, 3⟩] :=
  ⟨limited_of_guarded .default quietCore 100000 leak (by decide +kernel), by decide +kernel⟩

/-- **The second restart is requested on the memory of a process that is gone.** -/
theorem halfAnHourLater_unjustified :
    ¬ ∀ moves : List (Move (Fin 2)),
      Always (step .default) (Limited .default) (World.start quietCore 100000) moves := by
  intro hAll
  have hLimited := (hAll halfAnHourLater).last
  have hMem : none ∈
      (run (step .default) (World.start quietCore 100000) halfAnHourLater).requests := by
    decide +kernel
  obtain ⟨kb, hLatest, -⟩ := hLimited.justified none hMem
  cases hLatest

end Mgd.PlasmaRestart
