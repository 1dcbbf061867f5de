import Mgd.Evictor.Sensing

/-!
# The level the plugins know

The evictor broadcasts its level to every connected plugin at the end of a full
cycle (`broadcast_pressure`), behind the `continue` that ends a cycle at Normal.
`mgd-kde` starts from the level `"normal"`, replaces it with each level it is
told, and takes the level to be Normal while it is the text `"normal"`.

A connection is a queue: the daemon appends its messages, the plugin reads them
in order.  Plugins connect, and other threads broadcast, at any moment.
`Knows` compares a plugin with the evictor between two cycles, and
`knows_iff` says which runs keep the two together.
-/

namespace Mgd.PressureBroadcast

open Mgd.Types Mgd.Monitor Mgd.Lib.Run Mgd.Evictor.Scoring Mgd.Evictor.Sensing

/-! ## Messages -/

/-- The name of a level on the wire. -/
def asStr : PressureLevel → String
  | .normal => "Normal"
  | .elevated => "Elevated"
  | .high => "High"
  | .critical => "Critical"
  | .emergency => "Emergency"

theorem asStr_injective : Function.Injective asStr := by
  intro a b h
  cases a <;> cases b <;> first | rfl | exact absurd h (by decide +kernel)

/-- What the daemon sends to a plugin; the level is all `mgd-kde` keeps of it
for its test. -/
inductive CoreMessage
  | pressureChanged (level : String)
  | actionResponse
  | gpuObservation
  | configReload
deriving DecidableEq

/-! ## Plugins -/

structure Client where
  /-- sent by the daemon and not read yet -/
  pending : List CoreMessage
  /-- `current_level` of `mgd-kde` -/
  currentLevel : String
  /-- the level last broadcast to this plugin -/
  told : Option String

namespace Client

/-- A plugin that has just connected. -/
def new : Client where
  pending := []
  currentLevel := "normal"
  told := none

def send (c : Client) (msg : CoreMessage) : Client where
  pending := c.pending ++ [msg]
  currentLevel := c.currentLevel
  told :=
    match msg with
    | .pressureChanged level => some level
    | _ => c.told

/-- What the plugin makes of a message. -/
def handle (currentLevel : String) : CoreMessage → String
  | .pressureChanged level => level
  | _ => currentLevel

/-- The plugin reads its next message. -/
def receive (c : Client) : Client :=
  match c.pending with
  | [] => c
  | msg :: rest => { c with pending := rest, currentLevel := handle c.currentLevel msg }

/-- `level == "normal"` -/
def testsNormal (c : Client) : Bool := c.currentLevel == "normal"

/-- No level is on its way to the plugin. -/
def CaughtUp (c : Client) : Prop := ∀ level, .pressureChanged level ∉ c.pending

/-- The level last broadcast is this one, and the plugin's own test agrees once
it has caught up. -/
def KnowsLevel (c : Client) (level : PressureLevel) : Prop :=
  (∀ s, c.told = some s → s = asStr level) ∧
    (c.CaughtUp → (c.testsNormal = true ↔ level = .normal))

end Client

/-! ## The evictor and its plugins -/

structure World where
  controller : Controller
  /-- a full cycle has found its level and has not ended yet -/
  inCycle : Bool
  /-- the connections, by number -/
  clients : Nat → Option Client

namespace World

/-- The loop as it starts, nobody connected. -/
def start (pswpin pswpout : Nat) (now : Instant) : World where
  controller := Controller.new pswpin pswpout now
  inCycle := false
  clients := fun _ => none

/-- `effective_level` of the last cycle. -/
def level (w : World) : PressureLevel := w.controller.lastLevel

def broadcast (w : World) (msg : CoreMessage) : World :=
  { w with clients := fun n => (w.clients n).map (fun c => c.send msg) }

def setClient (w : World) (n : Nat) (c : Option Client) : World :=
  { w with clients := fun m => if m = n then c else w.clients m }

end World

inductive Move
  /-- The evictor begins an iteration: only a sample makes it a full cycle. -/
  | iteration (i : LoopInput)
  /-- The cycle reaches the broadcast or, at Normal, the `continue` before it. -/
  | finish
  | connect (n : Nat)
  | disconnect (n : Nat)
  /-- A plugin reads a message. -/
  | receive (n : Nat)
  | reload
  | respond
  | gpuObservation

def beginIteration (w : World) (i : LoopInput) : World :=
  { w with
    controller := Evictor.Sensing.step w.controller i
    inCycle :=
      match i with
      | .sample _ => true
      | .waitTimeout => false
      | .psiError => false }

def finishCycle (w : World) : World :=
  if w.level = .normal then { w with inCycle := false }
  else { w.broadcast (.pressureChanged (asStr w.level)) with inCycle := false }

def step (w : World) : Move → World
  | .iteration i => if w.inCycle then w else beginIteration w i
  | .finish => if w.inCycle then finishCycle w else w
  | .connect n => if (w.clients n).isSome then w else w.setClient n (some .new)
  | .disconnect n => w.setClient n none
  | .receive n => w.setClient n ((w.clients n).map Client.receive)
  | .reload => w.broadcast .configReload
  | .respond => w.broadcast .actionResponse
  | .gpuObservation => w.broadcast .gpuObservation

/-- Between two cycles every plugin knows the level. -/
def Knows (w : World) : Prop :=
  w.inCycle = false → ∀ n c, w.clients n = some c → c.KnowsLevel w.level

/-- Plugins connect at Normal or while a cycle is under way, and no cycle ends
at Normal once a plugin has been told a level. -/
def Told (w : World) : Move → Prop
  | .connect n => w.clients n = none → w.inCycle = false → w.level = .normal
  | .finish =>
      w.inCycle = true → w.level = .normal → ∀ n c, w.clients n = some c → c.told = none
  | _ => True

/-! ## What a plugin has been told -/

/-- The plugin reads what it is told, and it is told levels above Normal. -/
structure Client.Inv (c : Client) : Prop where
  heard : c.pending.foldl Client.handle c.currentLevel = c.told.getD "normal"
  quiet : c.told = none → c.CaughtUp
  above : ∀ s, c.told = some s → ∃ level, level ≠ .normal ∧ s = asStr level

def Inv (w : World) : Prop := ∀ n c, w.clients n = some c → c.Inv

section Clients

variable {c : Client}

theorem foldl_handle_of_caughtUp {pending : List CoreMessage}
    (h : ∀ level, .pressureChanged level ∉ pending) (currentLevel : String) :
    pending.foldl Client.handle currentLevel = currentLevel := by
  induction pending with
  | nil => rfl
  | cons msg rest ih =>
      have hRest : ∀ level, .pressureChanged level ∉ rest :=
        fun level hMem => h level (List.mem_cons_of_mem msg hMem)
      cases msg with
      | pressureChanged level => exact absurd List.mem_cons_self (h level)
      | actionResponse => exact ih hRest
      | gpuObservation => exact ih hRest
      | configReload => exact ih hRest

theorem asStr_ne_lowercase (level : PressureLevel) : asStr level ≠ "normal" := by
  cases level <;> decide +kernel

/-- What a plugin knows depends on what it was told only. -/
theorem knowsLevel_iff (h : c.Inv) (level : PressureLevel) :
    c.KnowsLevel level ↔
      (c.told = none ∧ level = .normal) ∨ c.told = some (asStr level) := by
  unfold Client.KnowsLevel Client.testsNormal
  cases hTold : c.told with
  | none =>
      have hCaughtUp := h.quiet hTold
      have hCurrent : c.currentLevel = "normal" := by
        have hHeard := h.heard
        rwa [foldl_handle_of_caughtUp hCaughtUp, hTold] at hHeard
      simp [hCaughtUp, hCurrent]
  | some s =>
      have hTest : c.CaughtUp → (c.currentLevel == "normal") = false := by
        intro hCaughtUp
        obtain ⟨told, -, hName⟩ := h.above s hTold
        have hHeard := h.heard
        rw [foldl_handle_of_caughtUp hCaughtUp, hTold, hName] at hHeard
        rw [hHeard]
        exact beq_eq_false_iff_ne.mpr (asStr_ne_lowercase told)
      constructor
      · intro hKnows
        exact Or.inr (congrArg some (hKnows.1 s rfl))
      · intro hKnows
        have hName : s = asStr level := by simpa using hKnows
        obtain ⟨told, hAbove, hTold'⟩ := h.above s hTold
        have hLevel : level ≠ .normal := by
          rw [← asStr_injective (hTold'.symm.trans hName)]
          exact hAbove
        refine ⟨fun s' hs' => (Option.some.inj hs').symm.trans hName, fun hCaughtUp => ?_⟩
        simp [hTest hCaughtUp, hLevel]

theorem Client.inv_new : Client.new.Inv where
  heard := rfl
  quiet := fun _ level hMem => by cases hMem
  above := fun s hs => by cases hs

/-- A message that carries no level. -/
theorem Client.Inv.send_other (h : c.Inv) {msg : CoreMessage}
    (hOther : ∀ level, msg ≠ .pressureChanged level) : (c.send msg).Inv := by
  have hTold : (c.send msg).told = c.told := by
    cases msg with
    | pressureChanged level => exact absurd rfl (hOther level)
    | actionResponse => rfl
    | gpuObservation => rfl
    | configReload => rfl
  have hHandle : ∀ s, Client.handle s msg = s := by
    intro s
    cases msg with
    | pressureChanged level => exact absurd rfl (hOther level)
    | actionResponse => rfl
    | gpuObservation => rfl
    | configReload => rfl
  constructor
  · rw [hTold, ← h.heard]
    simp [Client.send, List.foldl_append, hHandle]
  · intro hNone level hMem
    rw [hTold] at hNone
    simp only [Client.send, List.mem_append, List.mem_singleton] at hMem
    cases hMem with
    | inl hOld => exact h.quiet hNone level hOld
    | inr hNew => exact hOther level hNew.symm
  · rw [hTold]
    exact h.above

theorem Client.inv_send_level {level : PressureLevel} (hAbove : level ≠ .normal) :
    (c.send (.pressureChanged (asStr level))).Inv where
  heard := by simp [Client.send, List.foldl_append, Client.handle]
  quiet := fun hNone => by cases hNone
  above := fun s hs => ⟨level, hAbove, (Option.some.inj hs).symm⟩

@[simp] theorem Client.receive_told (c : Client) : c.receive.told = c.told := by
  unfold Client.receive
  split <;> rfl

theorem Client.Inv.receive (h : c.Inv) : c.receive.Inv := by
  unfold Client.receive
  split
  · exact h
  · next msg rest hPending =>
      constructor
      · have hHeard := h.heard
        rwa [hPending, List.foldl_cons] at hHeard
      · intro hNone level hMem
        refine h.quiet hNone level ?_
        rw [hPending]
        exact List.mem_cons_of_mem msg hMem
      · exact h.above

end Clients

/-! ## Steps -/

section Steps

variable {w : World}

theorem inv_setClient (h : Inv w) (n : Nat) {client : Option Client}
    (hClient : ∀ c, client = some c → c.Inv) : Inv (w.setClient n client) := by
  intro m c hc
  unfold World.setClient at hc
  dsimp only at hc
  split at hc
  · exact hClient c hc
  · exact h m c hc

theorem inv_broadcast (h : Inv w) {msg : CoreMessage}
    (hMsg : ∀ c : Client, c.Inv → (c.send msg).Inv) : Inv (w.broadcast msg) := by
  intro n c hc
  obtain ⟨before, hBefore, hSend⟩ := Option.map_eq_some_iff.mp hc
  rw [← hSend]
  exact hMsg before (h n before hBefore)

theorem inv_step (h : Inv w) (m : Move) : Inv (step w m) := by
  cases m with
  | iteration i =>
      simp only [step]
      split
      · exact h
      · exact h
  | finish =>
      simp only [step]
      split
      · unfold finishCycle
        split
        · exact h
        · next hAbove => exact inv_broadcast h fun c _ => Client.inv_send_level hAbove
      · exact h
  | connect n =>
      simp only [step]
      split
      · exact h
      · exact inv_setClient h n fun c hc => by
          cases hc
          exact Client.inv_new
  | disconnect n => exact inv_setClient h n fun c hc => by cases hc
  | receive n =>
      refine inv_setClient h n fun c hc => ?_
      obtain ⟨before, hBefore, hReceive⟩ := Option.map_eq_some_iff.mp hc
      rw [← hReceive]
      exact (h n before hBefore).receive
  | reload => exact inv_broadcast h fun c hc => hc.send_other fun _ hEq => by cases hEq
  | respond => exact inv_broadcast h fun c hc => hc.send_other fun _ hEq => by cases hEq
  | gpuObservation => exact inv_broadcast h fun c hc => hc.send_other fun _ hEq => by cases hEq

/-- What the plugins know, read off what they were told. -/
theorem knows_iff_told (h : Inv w) :
    Knows w ↔ (w.inCycle = false → ∀ n c, w.clients n = some c →
      (c.told = none ∧ w.level = .normal) ∨ c.told = some (asStr w.level)) := by
  unfold Knows
  refine imp_congr_right fun _ => forall_congr' fun n => forall_congr' fun c => ?_
  exact imp_congr_right fun hc => knowsLevel_iff (h n c hc) w.level

/-- A step that leaves the evictor alone and tells no plugin anything. -/
theorem knows_of_told_kept {w' : World} (h : Inv w) (h' : Inv w') (hKnows : Knows w)
    (hCycle : w'.inCycle = w.inCycle) (hLevel : w'.level = w.level)
    (hTold : ∀ n c', w'.clients n = some c' →
      ∃ m c, w.clients m = some c ∧ c.told = c'.told) : Knows w' := by
  rw [knows_iff_told h'] at ⊢
  rw [knows_iff_told h] at hKnows
  intro hBetween n c' hc'
  obtain ⟨m, c, hc, hSame⟩ := hTold n c' hc'
  rw [hLevel, ← hSame]
  exact hKnows (hCycle ▸ hBetween) m c hc

/-- The messages of the other threads tell no level. -/
theorem knows_broadcast_other (h : Inv w) (hKnows : Knows w) {msg : CoreMessage}
    (hOther : ∀ c : Client, (c.send msg).told = c.told) (h' : Inv (w.broadcast msg)) :
    Knows (w.broadcast msg) := by
  refine knows_of_told_kept h h' hKnows rfl rfl fun n c' hc' => ?_
  obtain ⟨c, hc, hSend⟩ := Option.map_eq_some_iff.mp hc'
  exact ⟨n, c, hc, by rw [← hSend, hOther]⟩

/-- The end of a cycle. -/
theorem knows_finish_iff (h : Inv w) (hCycle : w.inCycle = true) :
    Knows (finishCycle w) ↔ (w.level = .normal → ∀ n c, w.clients n = some c → c.told = none) := by
  have h' : Inv (finishCycle w) := by
    have hStep := inv_step h .finish
    simpa [step, hCycle] using hStep
  rw [knows_iff_told h']
  unfold finishCycle
  split
  · next hNormal =>
      constructor
      · intro hKnows _ n c hc
        cases hKnows rfl n c hc with
        | inl hNone => exact hNone.1
        | inr hSome =>
            obtain ⟨level, hAbove, hName⟩ := (h n c hc).above _ hSome
            have hLevel : w.level = level := asStr_injective hName
            exact absurd (hLevel.symm.trans hNormal) hAbove
      · intro hNone _ n c hc
        exact Or.inl ⟨hNone hNormal n c hc, hNormal⟩
  · next hAbove =>
      refine iff_of_true (fun _ n c hc => Or.inr ?_) fun hNormal => absurd hNormal hAbove
      obtain ⟨before, -, hSend⟩ := Option.map_eq_some_iff.mp hc
      rw [← hSend]
      rfl

theorem knows_connect_iff (h : Inv w) (hKnows : Knows w) (n : Nat) :
    Knows (w.setClient n (some .new)) ↔ (w.inCycle = false → w.level = .normal) := by
  have h' : Inv (w.setClient n (some .new)) :=
    inv_setClient h n fun c hc => by
      cases hc
      exact Client.inv_new
  rw [knows_iff_told h']
  rw [knows_iff_told h] at hKnows
  constructor
  · intro hAfter hBetween
    have hNew := hAfter hBetween n .new (if_pos rfl)
    cases hNew with
    | inl hNone => exact hNone.2
    | inr hSome => cases hSome
  · intro hNormal hBetween m c hc
    unfold World.setClient at hc
    dsimp only at hc
    split at hc
    · cases hc
      exact Or.inl ⟨rfl, hNormal hBetween⟩
    · exact hKnows hBetween m c hc

/-- **One move** keeps the plugins and the evictor together exactly when it
meets the condition. -/
theorem knows_step_iff (h : Inv w) (hKnows : Knows w) (m : Move) :
    Knows (step w m) ↔ Told w m := by
  have h' := inv_step h m
  cases m with
  | iteration i =>
      refine iff_of_true ?_ trivial
      simp only [step]
      split
      · exact hKnows
      · next hBetween =>
          cases i with
          | sample x => exact fun hFalse => by cases hFalse
          | waitTimeout => exact fun _ => hKnows (Bool.not_eq_true _ ▸ hBetween)
          | psiError => exact fun _ => hKnows (Bool.not_eq_true _ ▸ hBetween)
  | finish =>
      simp only [step, Told]
      split
      · next hCycle =>
          rw [knows_finish_iff h hCycle]
          simp [hCycle]
      · next hBetween =>
          exact iff_of_true hKnows fun hCycle => absurd hCycle hBetween
  | connect n =>
      simp only [step, Told]
      cases hFree : w.clients n with
      | none => simpa using knows_connect_iff h hKnows n
      | some c => exact iff_of_true hKnows fun hNone => by cases hNone
  | disconnect n =>
      refine iff_of_true (knows_of_told_kept h h' hKnows rfl rfl fun m c hc => ?_) trivial
      simp only [step, World.setClient] at hc
      split at hc
      · cases hc
      · exact ⟨m, c, hc, rfl⟩
  | receive n =>
      refine iff_of_true (knows_of_told_kept h h' hKnows rfl rfl fun m c hc => ?_) trivial
      simp only [step, World.setClient] at hc
      split at hc
      · obtain ⟨before, hBefore, hReceive⟩ := Option.map_eq_some_iff.mp hc
        exact ⟨n, before, hBefore, by rw [← hReceive, Client.receive_told]⟩
      · exact ⟨m, c, hc, rfl⟩
  | reload => exact iff_of_true (knows_broadcast_other h hKnows (fun _ => rfl) h') trivial
  | respond => exact iff_of_true (knows_broadcast_other h hKnows (fun _ => rfl) h') trivial
  | gpuObservation => exact iff_of_true (knows_broadcast_other h hKnows (fun _ => rfl) h') trivial

end Steps

/--
**Which runs keep the plugins informed.**  Between cycles every plugin knows the
level all through a run exactly when plugins connect at Normal or during a
cycle, and no cycle ends at Normal with a plugin that has been told a level.
-/
theorem knows_iff (pswpin pswpout : Nat) (now : Instant) (moves : List Move) :
    Always step Knows (World.start pswpin pswpout now) moves ↔
      EveryStep step Told (World.start pswpin pswpout now) moves := by
  have hInv : Inv (World.start pswpin pswpout now) := fun n c hc => by cases hc
  have hKnows : Knows (World.start pswpin pswpout now) := fun _ n c hc => by cases hc
  exact always_iff_everyStep (fun w m _ h _ _ => inv_step h m)
    (fun w m _ h hw => knows_step_iff h hw m) (everyStep_true _ moves) hInv hKnows

/-! ## A plugin after an episode of pressure -/

/-- A sample without pressure. -/
def calmSample (secs : Nat) : Sample := psiSample 0 secs

/-- The same with a gigabyte of swap, all of it used. -/
def fullSwapSample (secs : Nat) : Sample :=
  { calmSample secs with
    meminfo := { plainMeminfo with swapFreeKb := Kb.clamp 0, swapTotalKb := Kb.clamp 1000000 } }

/-- The swap is full for one cycle. -/
def episode : List Move :=
  [.connect 0, .iteration (.sample (fullSwapSample 5)), .finish, .receive 0,
    .iteration (.sample (calmSample 10)), .finish]

/-- The level is back at Normal, and the plugin does not know. -/
theorem episode_leaves_critical :
    ¬ ∀ (pswpin pswpout : Nat) (now : Instant) (moves : List Move),
      Always step Knows (World.start pswpin pswpout now) moves := by
  intro hAll
  have hLast := (hAll 0 0 0 episode).last (by decide +kernel)
  have hLevel : (run step (World.start 0 0 0) episode).level = .normal := by decide +kernel
  have hTold : ((run step (World.start 0 0 0) episode).clients 0).bind Client.told =
      some "Critical" := by decide +kernel
  obtain ⟨c, hc, hSome⟩ := Option.bind_eq_some_iff.mp hTold
  have hName := (hLast 0 c hc).1 _ hSome
  rw [hLevel] at hName
  exact absurd hName (by decide +kernel)

end Mgd.PressureBroadcast
