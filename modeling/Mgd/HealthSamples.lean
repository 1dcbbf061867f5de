import Mathlib.Tactic.Linarith
import Mgd.Recovery
import Mgd.RecoveryWake

/-!
# The samples of the health baseline

`run` of `recovery.rs` on top of `RecoveryWake`: outside `wait_for_work` a pass
reads PSI, and when the verdict is Normal it reads the free RAM, feeds it to the
health baseline, resumes frozen processes and restores a checkpoint.  The other
threads act between any two of these steps.

`wait_for_work` returns at once when one of the registries has entries, and the
pass does not look at them again before it feeds the baseline.  The evictor's
calibrator, which learns from calm samples too, is told of any intervention.
-/

namespace Mgd.HealthSamples

open Mgd.Types Mgd.Monitor Mgd.Config Mgd.Lib.Run Mgd.Executor.Registry Mgd.Recovery

/-! ## The passes of the recovery thread -/

/-- Where a pass is, while the thread is outside `wait_for_work`. -/
inductive PassPc
  | pressure
  /-- PSI read as Normal. -/
  | meminfo
  /-- The RAM has been read, with something held back or not. -/
  | observe (meminfo : MemInfo) (heldAtRead : Bool)
  | unfreeze (meminfo : MemInfo)
  | restore
  | sleep

/-- A sample the baseline was fed with. -/
structure Sample where
  available : Kb
  /-- A process was frozen or checkpointed when the RAM was read. -/
  heldAtRead : Bool
  /-- One was when the sample was fed. -/
  heldAtObserve : Bool
deriving DecidableEq

structure World where
  threads : RecoveryWake.World
  pass : PassPc
  baseline : HealthBaseline
  /-- oldest first -/
  observed : List Sample

inductive Move
  /-- The recovery thread takes its next step; in a pass it reads the tick. -/
  | recovery (tick : RecoveryTick)
  | other (m : RecoveryWake.Move)

instance (w : RecoveryWake.World) : Decidable w.hasWork := inferInstanceAs (Decidable (_ ∨ _))

def stepPass (w : World) (tick : RecoveryTick) : World :=
  match w.pass with
  | .pressure =>
      if w.threads.shutdown then { w with threads := RecoveryWake.stepRecovery w.threads }
      else { w with pass := if readsNormal tick then .meminfo else .sleep }
  | .meminfo => { w with pass := .observe tick.meminfo (decide w.threads.hasWork) }
  | .observe meminfo heldAtRead =>
      { w with
        pass := .unfreeze meminfo
        baseline := w.baseline.observe meminfo.availableKb
        observed := w.observed ++
          [⟨meminfo.availableKb, heldAtRead, decide w.threads.hasWork⟩] }
  | .unfreeze meminfo =>
      let frozen := (unfreezePass { tick with meminfo := meminfo } w.baseline w.threads.frozen).1
      { w with pass := .restore, threads := { w.threads with frozen := frozen } }
  | .restore =>
      let checkpointed := (restorePass tick w.baseline w.threads.checkpointed).1
      { w with pass := .sleep, threads := { w.threads with checkpointed := checkpointed } }
  | .sleep => { w with pass := .pressure, threads := RecoveryWake.stepRecovery w.threads }

def step (w : World) : Move → World
  | .recovery tick =>
      if w.threads.recovery = .passing then stepPass w tick
      else { w with threads := RecoveryWake.stepRecovery w.threads }
  -- there is one recovery thread
  | .other .recovery => w
  | .other m => { w with threads := RecoveryWake.step w.threads m }

/-- The registries as the last run of the daemon left them. -/
def World.start (frozen : FrozenRegistry) (checkpointed : CheckpointRegistry) : World where
  threads := .start frozen checkpointed
  pass := .pressure
  baseline := .new
  observed := []

/-! ## What the baseline promises -/

/-- The daemon held nothing back. -/
def Sample.Untreated (s : Sample) : Prop := s.heldAtRead = false ∧ s.heldAtObserve = false

instance (s : Sample) : Decidable s.Untreated := inferInstanceAs (Decidable (_ ∧ _))

/-- The samples lie between two bounds. -/
def Within (lo hi : ℚ) (samples : List Sample) : Prop :=
  ∀ s ∈ samples, lo ≤ (s.available.val : ℚ) ∧ (s.available.val : ℚ) ≤ hi

/-- Only untreated samples were fed. -/
def OnlyUntreated (w : World) : Prop := ∀ s ∈ w.observed, s.Untreated

/-- The gate of a warm baseline refers to the RAM that was free while nothing was
held back: it opens above 85% of the most, and stays closed up to 85% of the
least. -/
def GateOnUntreated (w : World) : Prop :=
  ∀ lo hi : ℚ, Within lo hi (w.observed.filter fun s => decide s.Untreated) →
    10 ≤ w.baseline.samples → ∀ available total processRss : Kb,
      (hi * (85 / 100) < ((available.saturatingSub processRss).val : ℚ) →
        w.baseline.safeToRestore available total processRss = true) ∧
      (w.baseline.safeToRestore available total processRss = true →
        lo * (85 / 100) < ((available.saturatingSub processRss).val : ℚ))

/-! ## When it keeps the promise -/

/-- The thread is about to read PSI. -/
def PassPc.readsPressure : PassPc → Bool
  | .pressure => true
  | .meminfo | .observe .. | .unfreeze _ | .restore | .sleep => false

/-- PSI was Normal and the sample is still to be fed. -/
def PassPc.sampling : PassPc → Bool
  | .meminfo | .observe .. => true
  | .pressure | .unfreeze _ | .restore | .sleep => false

/-- The step records a frozen process or a checkpoint. -/
def Records (w : RecoveryWake.World) : RecoveryWake.Move → Prop
  | .planFreeze f => w.evictor ≠ .loop ∧ w.evictor ≠ .flagSet ∧ f.startTime f.pid ≠ none
  | .planCheckpoint .. => w.evictor ≠ .loop ∧ w.evictor ≠ .flagSet
  | .idleFreeze f => w.evictor = .loop ∧ f.startTime f.pid ≠ none
  | .mgctlFreeze f => f.startTime f.pid ≠ none
  | _ => False

/-- A pass that reads PSI as Normal finds nothing held back, and nothing is
recorded before its sample is fed. -/
def NothingHeld (w : World) : Move → Prop
  | .recovery tick =>
      w.threads.recovery = .passing → w.pass.readsPressure = true →
        w.threads.shutdown = false → readsNormal tick = true → ¬ w.threads.hasWork
  | .other m => w.pass.sampling = true → ¬ Records w.threads m

instance (w : RecoveryWake.World) (m : RecoveryWake.Move) : Decidable (Records w m) :=
  match m with
  | .planFreeze _ => inferInstanceAs (Decidable (_ ∧ _ ∧ _))
  | .planCheckpoint .. => inferInstanceAs (Decidable (_ ∧ _))
  | .idleFreeze _ => inferInstanceAs (Decidable (_ ∧ _))
  | .mgctlFreeze _ => inferInstanceAs (Decidable (_ ≠ _))
  | .recovery | .timeout | .plan | .evictor | .dropFrozen _ | .dropCheckpoint _ | .sigterm =>
      inferInstanceAs (Decidable False)

instance (w : World) (m : Move) : Decidable (NothingHeld w m) :=
  match m with
  | .recovery _ => inferInstanceAs (Decidable (_ → _ → _ → _ → _))
  | .other _ => inferInstanceAs (Decidable (_ → _))

/-! ## The other threads leave empty registries empty -/

section Threads

variable {w : RecoveryWake.World}

theorem hasWork_wake (w : RecoveryWake.World) : w.wake.hasWork ↔ w.hasWork := by
  unfold RecoveryWake.World.wake
  split
  · split
    · exact Iff.rfl
    · split <;> exact Iff.rfl
  · exact Iff.rfl

theorem hasWork_stepRecovery (w : RecoveryWake.World) :
    (RecoveryWake.stepRecovery w).hasWork ↔ w.hasWork := by
  unfold RecoveryWake.stepRecovery
  split
  · split <;> exact Iff.rfl
  · exact Iff.rfl
  · split <;> exact Iff.rfl
  · exact Iff.rfl
  · exact Iff.rfl
  · exact Iff.rfl

theorem hasWork_stepEvictor (w : RecoveryWake.World) :
    (RecoveryWake.stepEvictor w).hasWork ↔ w.hasWork := by
  unfold RecoveryWake.stepEvictor
  split
  · exact Iff.rfl
  · exact Iff.rfl
  · exact hasWork_wake w

/-- A freeze of a process that is gone. -/
theorem not_hasWork_addFrozen (hEmpty : ¬ w.hasWork) {f : RecoveryWake.Freeze}
    (hGone : ¬ f.startTime f.pid ≠ none) : ¬ (w.addFrozen f).hasWork := by
  rw [RecoveryWake.addFrozen_of_gone (not_not.mp hGone)]
  exact hEmpty

/-- What makes work out of nothing is recorded. -/
theorem not_hasWork_step (hEmpty : ¬ w.hasWork) {m : RecoveryWake.Move} (hNone : ¬ Records w m) :
    ¬ (RecoveryWake.step w m).hasWork := by
  cases m with
  | recovery => exact fun h => hEmpty ((hasWork_stepRecovery w).mp h)
  | timeout => exact fun h => hEmpty ((hasWork_wake w).mp h)
  | evictor => exact fun h => hEmpty ((hasWork_stepEvictor w).mp h)
  | sigterm => exact hEmpty
  | mgctlFreeze f => exact not_hasWork_addFrozen hEmpty hNone
  | plan =>
      unfold RecoveryWake.step
      dsimp only
      split
      · exact hEmpty
      · exact hEmpty
  | planFreeze f =>
      unfold RecoveryWake.step
      dsimp only
      split
      · next added hPc =>
          have hGone : ¬ f.startTime f.pid ≠ none := fun hStart =>
            hNone ⟨by rw [hPc]; exact RecoveryWake.EvictorPc.noConfusion,
              by rw [hPc]; exact RecoveryWake.EvictorPc.noConfusion, hStart⟩
          exact not_hasWork_addFrozen hEmpty hGone
      · exact hEmpty
  | planCheckpoint pid name snapshotDir rss =>
      unfold RecoveryWake.step
      dsimp only
      split
      · next added hPc =>
          exact absurd ⟨by rw [hPc]; exact RecoveryWake.EvictorPc.noConfusion,
            by rw [hPc]; exact RecoveryWake.EvictorPc.noConfusion⟩ hNone
      · exact hEmpty
  | idleFreeze f =>
      unfold RecoveryWake.step
      dsimp only
      split
      · next hLoop => exact not_hasWork_addFrozen hEmpty fun hStart => hNone ⟨hLoop, hStart⟩
      · exact hEmpty
  | dropFrozen pid =>
      intro h
      rcases h with hFrozen | hCheckpointed
      · exact hEmpty (Or.inl (RecoveryWake.count_remove_frozen _ pid hFrozen))
      · exact hEmpty (Or.inr hCheckpointed)
  | dropCheckpoint pid =>
      intro h
      rcases h with hFrozen | hCheckpointed
      · exact hEmpty (Or.inl hFrozen)
      · exact hEmpty (Or.inr (RecoveryWake.count_remove_checkpointed _ pid hCheckpointed))

end Threads

/-! ## The average stays within its samples -/

/-- The baseline after its samples. -/
def feed (samples : List Sample) : HealthBaseline :=
  samples.foldl (fun b s => b.observe s.available) .new

theorem feed_append (samples : List Sample) (s : Sample) :
    feed (samples ++ [s]) = (feed samples).observe s.available := by
  simp [feed, List.foldl_append]

/-- An empty baseline, or an average between the bounds. -/
def Between (lo hi : ℚ) (b : HealthBaseline) : Prop :=
  b.samples ≠ 0 → lo ≤ b.avgAvailableKb ∧ b.avgAvailableKb ≤ hi

theorem between_observe {lo hi : ℚ} {b : HealthBaseline} (h : Between lo hi b) {available : Kb}
    (hLo : lo ≤ (available.val : ℚ)) (hHi : (available.val : ℚ) ≤ hi) :
    Between lo hi (b.observe available) := by
  intro _
  unfold HealthBaseline.observe
  dsimp only
  split
  · exact ⟨hLo, hHi⟩
  · next hSome =>
      obtain ⟨hAvgLo, hAvgHi⟩ := h hSome
      constructor <;> linarith

theorem between_feed {lo hi : ℚ} {samples : List Sample} (h : Within lo hi samples) :
    Between lo hi (feed samples) := by
  unfold feed
  have hNew : Between lo hi HealthBaseline.new := fun hSome => absurd rfl hSome
  generalize HealthBaseline.new = b at hNew
  induction samples generalizing b with
  | nil => exact hNew
  | cons s rest ih =>
      obtain ⟨hLo, hHi⟩ := h s List.mem_cons_self
      exact ih (fun s' hs' => h s' (List.mem_cons_of_mem s hs')) _ (between_observe hNew hLo hHi)

/-- The gate of a warm baseline, from bounds on its average. -/
theorem gate_of_between {lo hi : ℚ} {b : HealthBaseline} (h : Between lo hi b)
    (hWarm : 10 ≤ b.samples) (available total processRss : Kb) :
    (hi * (85 / 100) < ((available.saturatingSub processRss).val : ℚ) →
      b.safeToRestore available total processRss = true) ∧
    (b.safeToRestore available total processRss = true →
      lo * (85 / 100) < ((available.saturatingSub processRss).val : ℚ)) := by
  obtain ⟨hLo, hHi⟩ := h (by omega)
  have hGate : b.safeToRestore available total processRss = true ↔
      b.avgAvailableKb * (85 / 100) < ((available.saturatingSub processRss).val : ℚ) := by
    unfold HealthBaseline.safeToRestore
    dsimp only
    rw [if_neg (by omega), decide_eq_true_iff]
  rw [hGate]
  constructor
  · intro hRoom
    linarith
  · intro hRoom
    linarith

/-! ## The invariant -/

/-- The baseline is made of the samples, and while one is being taken nothing is
held back. -/
structure Inv (w : World) : Prop where
  baseline : w.baseline = feed w.observed
  untreated : OnlyUntreated w
  clear : w.pass.sampling = true → ¬ w.threads.hasWork
  read : ∀ meminfo heldAtRead, w.pass = .observe meminfo heldAtRead → heldAtRead = false

theorem inv_start (frozen : FrozenRegistry) (checkpointed : CheckpointRegistry) :
    Inv (World.start frozen checkpointed) where
  baseline := rfl
  untreated := fun _ hs => nomatch hs
  clear := fun h => nomatch h
  read := fun _ _ h => nomatch h

section Preservation

variable {w : World}

theorem gateOnUntreated_of_inv (h : Inv w) : GateOnUntreated w := by
  intro lo hi hWithin hWarm
  have hAll : (w.observed.filter fun s => decide s.Untreated) = w.observed := by
    rw [List.filter_eq_self]
    exact fun s hs => decide_eq_true (h.untreated s hs)
  rw [hAll] at hWithin
  have hBetween : Between lo hi w.baseline := h.baseline ▸ between_feed hWithin
  exact gate_of_between hBetween hWarm

/-- A step that takes no sample. -/
theorem Inv.of_not_sampling (h : Inv w) {w' : World} (hBaseline : w'.baseline = w.baseline)
    (hObserved : w'.observed = w.observed) (hPass : w'.pass.sampling = false) : Inv w' where
  baseline := by rw [hBaseline, hObserved, h.baseline]
  untreated := fun s hs => h.untreated s (hObserved ▸ hs)
  clear := fun hSampling => by rw [hPass] at hSampling; cases hSampling
  read := fun meminfo heldAtRead hEq => by rw [hEq] at hPass; cases hPass

/-- A step of the threads that leaves empty registries empty while a sample is
being taken. -/
theorem Inv.setThreads (h : Inv w) {threads : RecoveryWake.World}
    (hClear : w.pass.sampling = true → ¬ w.threads.hasWork → ¬ threads.hasWork) :
    Inv { w with threads := threads } where
  baseline := h.baseline
  untreated := h.untreated
  clear := fun hSampling => hClear hSampling (h.clear hSampling)
  read := h.read

theorem Inv.stepWait (h : Inv w) :
    Inv { w with threads := RecoveryWake.stepRecovery w.threads } :=
  h.setThreads fun _ hEmpty hWork => hEmpty ((hasWork_stepRecovery w.threads).mp hWork)

/-- The pass after a Normal reading with nothing held back. -/
theorem Inv.calm (h : Inv w) (hEmpty : ¬ w.threads.hasWork) : Inv { w with pass := .meminfo } where
  baseline := h.baseline
  untreated := h.untreated
  clear := fun _ => hEmpty
  read := fun _ _ hEq => nomatch hEq

theorem inv_stepPass (h : Inv w) {tick : RecoveryTick} (hPassing : w.threads.recovery = .passing)
    (hHeld : NothingHeld w (.recovery tick)) : Inv (stepPass w tick) := by
  unfold stepPass
  split
  · next hPass =>
      split
      · exact h.stepWait
      · next hRuns =>
          split
          · next hCalm =>
              have hReads : w.pass.readsPressure = true := by rw [hPass]; rfl
              exact h.calm (hHeld hPassing hReads (Bool.not_eq_true _ ▸ hRuns) hCalm)
          · exact h.of_not_sampling rfl rfl rfl
  · next hPass =>
      have hEmpty : ¬ w.threads.hasWork := h.clear (by rw [hPass]; rfl)
      exact
        { baseline := h.baseline
          untreated := h.untreated
          clear := fun _ => hEmpty
          read := fun _ _ hEq => by
            obtain ⟨_, hRead⟩ := PassPc.observe.inj hEq
            exact hRead ▸ decide_eq_false hEmpty }
  · next meminfo heldAtRead hPass =>
      have hEmpty : ¬ w.threads.hasWork := h.clear (by rw [hPass]; rfl)
      have hRead : heldAtRead = false := h.read meminfo heldAtRead hPass
      exact
        { baseline := by rw [feed_append, h.baseline]
          untreated := by
            intro s hs
            rcases List.mem_append.mp hs with hOld | hNew
            · exact h.untreated s hOld
            · rw [List.mem_singleton.mp hNew]
              exact ⟨hRead, decide_eq_false hEmpty⟩
          clear := fun hSampling => nomatch hSampling
          read := fun _ _ hEq => nomatch hEq }
  · exact h.of_not_sampling rfl rfl rfl
  · exact h.of_not_sampling rfl rfl rfl
  · exact h.of_not_sampling rfl rfl rfl

theorem inv_step (h : Inv w) (m : Move) (hHeld : NothingHeld w m) : Inv (step w m) := by
  cases m with
  | recovery tick =>
      unfold step
      dsimp only
      split
      · next hPassing => exact inv_stepPass h hPassing hHeld
      · exact h.stepWait
  | other m =>
      have hThreads : Inv { w with threads := RecoveryWake.step w.threads m } :=
        h.setThreads fun hSampling hEmpty => not_hasWork_step hEmpty (hHeld hSampling)
      cases m with
      | recovery => exact h
      | _ => exact hThreads

end Preservation

/--
**Only untreated samples build the baseline** along a run in which a pass that
reads PSI as Normal finds nothing held back, and nothing is recorded before its
sample is fed; the gate then refers to what was free on the untreated machine.
-/
theorem untreated_of_nothingHeld (frozen : FrozenRegistry) (checkpointed : CheckpointRegistry)
    {moves : List Move} (hHeld : EveryStep step NothingHeld (.start frozen checkpointed) moves) :
    Always step (fun w => OnlyUntreated w ∧ GateOnUntreated w) (.start frozen checkpointed)
      moves := by
  have hInv : Always step Inv (World.start frozen checkpointed) moves :=
    always_of_invariant (fun _ m h hm => inv_step h m hm) (inv_start frozen checkpointed) hHeld
  exact hInv.imp fun _ h => ⟨h.untreated, gateOnUntreated_of_inv h⟩

/-! ## A calm pass over a frozen process -/

/-- The condition is sharp: a calm pass over a frozen process that is let alone
feeds what the daemon itself has freed. -/
theorem treated_of_calm_pass {w : World} {tick : RecoveryTick}
    (hCounting : w.threads.recovery = .counting) (hPass : w.pass = .pressure)
    (hRuns : w.threads.shutdown = false) (hFrozen : w.threads.frozen.count ≠ 0)
    (hCalm : readsNormal tick = true) :
    ¬ OnlyUntreated (run step w (List.replicate 4 (.recovery tick))) := by
  have hCounted : step w (.recovery tick) =
      { w with threads := { w.threads with recovery := .passing } } := by
    simp [step, RecoveryWake.stepRecovery, hCounting, hRuns, hFrozen]
  have hWork : w.threads.hasWork := Or.inl hFrozen
  have hLast : (run step w (List.replicate 4 (.recovery tick))).observed =
      w.observed ++ [⟨tick.meminfo.availableKb, true, true⟩] := by
    have hHeld : ({ w.threads with shutdown := false, recovery := .passing } :
        RecoveryWake.World).hasWork := hWork
    rw [List.replicate_succ, run_cons, hCounted]
    simp [step, stepPass, hPass, hRuns, hCalm, hHeld, List.replicate_succ]
  intro hOnly
  have hMem : (⟨tick.meminfo.availableKb, true, true⟩ : Sample) ∈
      (run step w (List.replicate 4 (.recovery tick))).observed := by
    rw [hLast]
    exact List.mem_append_right _ (List.mem_singleton.mpr rfl)
  have hUntreated := hOnly _ hMem
  cases hUntreated.1

/-- PSI at zero, with the given RAM free. -/
def calmTick (availableKb : Nat) : RecoveryTick where
  pressure := some ⟨0, 0⟩
  cfg := CompiledConfig.ofEmpty 15
  meminfo := ⟨Kb.clamp availableKb, Kb.clamp 16000000, Kb.clamp 0, Kb.clamp 0⟩
  meminfoAtRestore := ⟨Kb.clamp availableKb, Kb.clamp 16000000, Kb.clamp 0, Kb.clamp 0⟩
  now := 3
  startTime := fun _ => some 54321
  kill := fun _ _ => none
  restore := fun _ => true

/-- A plan freezes a process of a gigabyte and rings the bell, and the pass over
it is calm. -/
def planThenCalm : List Move :=
  [.other .plan, .other (.planFreeze RecoveryWake.idleTab), .other .evictor, .other .evictor,
    .recovery (calmTick 5000000), .recovery (calmTick 5000000), .recovery (calmTick 5000000),
    .recovery (calmTick 5000000)]

theorem planThenCalm_treated :
    ¬ ∀ moves : List Move,
      Always step (fun w => OnlyUntreated w ∧ GateOnUntreated w) (.start .new .new) moves := by
  intro hAll
  have hLast := (hAll planThenCalm).last.1
  have hObserved : (run step (.start .new .new) planThenCalm).observed =
      [⟨Kb.clamp 5000000, true, true⟩] := by
    decide +kernel
  have hUntreated := hLast ⟨Kb.clamp 5000000, true, true⟩ (by rw [hObserved]; simp)
  cases hUntreated.1

/-- A plan that only kills rings the bell, and a freeze comes after the sample. -/
theorem killThenCalm_untreated :
    Always step (fun w => OnlyUntreated w ∧ GateOnUntreated w) (.start .new .new)
      [.recovery (calmTick 4000000), .recovery (calmTick 4000000), .recovery (calmTick 4000000),
        .other .plan, .other .evictor, .other .evictor, .recovery (calmTick 4000000),
        .recovery (calmTick 4000000), .recovery (calmTick 4000000),
        .other (.idleFreeze RecoveryWake.idleTab), .recovery (calmTick 4000000)] :=
  untreated_of_nothingHeld .new .new (by decide +kernel)

end Mgd.HealthSamples
