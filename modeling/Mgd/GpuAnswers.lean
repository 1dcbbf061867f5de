import Mgd.GpuFdinfo
import Mgd.GpuTotals
import Mgd.Lib.Expiry

/-!
# What the core answers about GPU memory

A GPU plugin adds up the fdinfo of a process and sends four observations; the core
keeps them in a cache whose entries expire and answers queries of other plugins from
it.  One cache serves all processes, every observation prunes all of it, and each of
the four refreshes the others.

`answer_eq_cell` shows that nothing but its own observations decides the answer about
a process.  `query_answers_fdinfo` follows a scan from the text of the fdinfo files to
the answer.
-/

namespace Mgd.GpuAnswers

open Mgd.Types Mgd.Lib.Run Mgd.Lib.AssocMap Mgd.Lib.Expiry Mgd.PluginServer Mgd.GpuFdinfo
open Mgd.GpuTotals (Scan sendGpuStats asF64 asKb_asF64)

/-! ## The cache is an expiring map -/

/-- What an observation writes. -/
def writeOf (now : Instant) (pid : Pid) (metric : Metric) (kb : Kb) :
    Write Pid SingleProcessGpuMemory where
  key := pid
  update := fun s => setField s kb metric
  time := now

theorem live_eq (now : Instant) (cache : GpuCache) : live now cache = fresh gpuCacheTtl now cache :=
  rfl

theorem getGpuStats_eq (cache : GpuCache) (now : Instant) (pid : Pid) :
    getGpuStats cache now pid =
      fetch gpuCacheTtl SingleProcessGpuMemory.default cache now pid := by
  unfold getGpuStats fetch
  rw [live_eq]
  cases (fresh gpuCacheTtl now cache).lookup pid <;> rfl

theorem setGpuObservation_eq (cache : GpuCache) (now : Instant) (pid : Pid) (metric : Metric)
    (kb : Kb) :
    setGpuObservation cache now pid metric kb =
      put gpuCacheTtl SingleProcessGpuMemory.default cache (writeOf now pid metric kb) := by
  unfold setGpuObservation put
  rw [live_eq, getGpuStats_eq]
  rfl

/-- What a line writes to the cache. -/
def gpuWrite (l : Line) : Option (Write Pid SingleProcessGpuMemory) :=
  match l.parsed with
  | some (.observation _ metric (some pid) value) =>
      if isGpuMetric metric then some (writeOf l.now pid metric (asKb value)) else none
  | _ => none

theorem step_gpuCache (s : PluginState) (l : Line) :
    (step s l).gpuCache =
      ((gpuWrite l).map (put gpuCacheTtl SingleProcessGpuMemory.default s.gpuCache)).getD
        s.gpuCache := by
  unfold step handle gpuWrite processPluginLine
  cases l.parsed with
  | none => rfl
  | some msg =>
      cases msg with
      | identify name version capabilities => rfl
      | observation plugin metric pid value =>
          cases pid with
          | none => rfl
          | some pid =>
              dsimp only
              by_cases hGpu : isGpuMetric metric = true
              · rw [if_pos hGpu, if_pos hGpu]
                exact setGpuObservation_eq s.gpuCache l.now pid metric (asKb value)
              · rw [if_neg hGpu, if_neg hGpu]
                rfl
      | actionRequest plugin action reason => rfl
      | queryGpu pid => rfl
      | activeWindow pid => rfl

/-- The lines write to the cache one after the other. -/
theorem run_gpuCache (s : PluginState) (lines : List Line) :
    (run step s lines).gpuCache =
      (lines.filterMap gpuWrite).foldl (put gpuCacheTtl SingleProcessGpuMemory.default)
        s.gpuCache := by
  induction lines generalizing s with
  | nil => rfl
  | cons l lines ih =>
      rw [run_cons, ih, step_gpuCache]
      cases hWrite : gpuWrite l with
      | none => rw [List.filterMap_cons_none hWrite]; rfl
      | some w => rw [List.filterMap_cons_some hWrite]; rfl

/-! ## One process -/

/-- What a line observes of a process. -/
def observes (pid : Pid) (l : Line) : Option (Write Pid SingleProcessGpuMemory) :=
  (gpuWrite l).filter fun w => decide (w.key = pid)

theorem gpuWrite_time {l : Line} {w : Write Pid SingleProcessGpuMemory}
    (h : gpuWrite l = some w) : w.time = l.now := by
  unfold gpuWrite at h
  split at h
  · split at h
    · cases h
      rfl
    · cases h
  · cases h

theorem filter_gpuWrites (pid : Pid) (lines : List Line) :
    (lines.filterMap gpuWrite).filter (fun w => decide (w.key = pid)) =
      lines.filterMap (observes pid) := by
  rw [List.filter_filterMap]
  rfl

/-- Times of the writes of a run, in the order of its clock. -/
theorem gpuWrites_clock {lines : List Line}
    (hClock : (lines.map Line.now).Pairwise (· ≤ ·)) :
    ((lines.filterMap gpuWrite).map Write.time).Pairwise (· ≤ ·) := by
  rw [List.pairwise_map] at hClock ⊢
  refine List.Pairwise.filterMap gpuWrite ?_ hClock
  intro l l' hLe w hw w' hw'
  rw [gpuWrite_time hw, gpuWrite_time hw']
  exact hLe

/-- **The answer about a process depends on its own observations alone**: it is read
off a cell of its own, however the lines of all plugins are mixed. -/
theorem answer_eq_cell (frozen : Executor.Registry.FrozenRegistry) (activePid : Option Pid)
    (lines : List Line) (pid : Pid) {now : Instant}
    (hClock : (lines.map Line.now).Pairwise (· ≤ ·)) (hNow : ∀ l ∈ lines, l.now ≤ now) :
    getGpuStats (run step ⟨frozen, ∅, activePid⟩ lines).gpuCache now pid =
      Cell.read gpuCacheTtl SingleProcessGpuMemory.default
        ((lines.filterMap (observes pid)).foldl
          (Cell.write gpuCacheTtl SingleProcessGpuMemory.default) none) now := by
  rw [run_gpuCache, getGpuStats_eq, fetch_foldl _ pid (gpuWrites_clock hClock), filter_gpuWrites]
  intro w hw
  obtain ⟨l, hl, hWrite⟩ := List.mem_filterMap.mp hw
  rw [gpuWrite_time hWrite]
  exact hNow l hl

/-! ## A scan and its answer -/

/-- Observations all recent add up on whatever was there. -/
theorem answer_of_recent (frozen : Executor.Registry.FrozenRegistry) (activePid : Option Pid)
    (pre post : List Line) (pid : Pid) {now : Instant} {first : Write Pid SingleProcessGpuMemory}
    {rest : List (Write Pid SingleProcessGpuMemory)}
    (hClock : ((pre ++ post).map Line.now).Pairwise (· ≤ ·))
    (hNow : ∀ l ∈ pre ++ post, l.now ≤ now)
    (hObserved : post.filterMap (observes pid) = first :: rest)
    (hRecent : ∀ l ∈ post, (observes pid l).isSome = true → now - l.now < gpuCacheTtl) :
    ∃ before : SingleProcessGpuMemory,
      getGpuStats (run step ⟨frozen, ∅, activePid⟩ (pre ++ post)).gpuCache now pid =
        (first :: rest).foldl (fun s w => w.update s) before := by
  have hMem : ∀ w ∈ first :: rest, ∃ l ∈ post, observes pid l = some w := by
    intro w hw
    rw [← hObserved] at hw
    exact List.mem_filterMap.mp hw
  have hTime : ∀ {l : Line} {w : Write Pid SingleProcessGpuMemory}, observes pid l = some w →
      w.time = l.now := fun h => gpuWrite_time (Option.filter_eq_some_iff.mp h).1
  have hWrites : ((first :: rest).map Write.time).Pairwise (· ≤ ·) := by
    have hAll := gpuWrites_clock (List.pairwise_append.mp (List.map_append ▸ hClock)).2.1
    rw [← hObserved, ← filter_gpuWrites]
    exact hAll.sublist (List.filter_sublist.map Write.time)
  rw [answer_eq_cell frozen activePid (pre ++ post) pid hClock hNow, List.filterMap_append,
    List.foldl_append, hObserved]
  refine ⟨_, Cell.read_recent _ hWrites ?_ ?_⟩
  · intro w hw
    obtain ⟨l, hl, hw⟩ := hMem w hw
    have hSoon := hRecent l hl (by rw [hw]; rfl)
    rw [hTime hw]
    exact hSoon
  · intro w hw
    obtain ⟨l, hl, hw⟩ := hMem w hw
    rw [hTime hw]
    exact hNow l (List.mem_append_right pre hl)

/-- The four observations of a scan leave nothing of what was there. -/
theorem scan_overwrites (s before : SingleProcessGpuMemory) :
    setField (setField (setField (setField before s.residentKb .gpuResidentKb) s.sharedKb
      .gpuSharedKb) s.totalKb .gpuTotalKb) s.purgeableKb .gpuPurgeableKb = s := by
  cases s
  rfl

/-- The lines that observe a process are the four of one scan, in order. -/
def ObservedBy (lines : List Line) (scan : Scan) : Prop :=
  ∃ t₁ t₂ t₃ t₄, lines.filterMap (observes scan.pid) =
    [writeOf t₁ scan.pid .gpuResidentKb (asKb (asF64 scan.stats.residentKb)),
      writeOf t₂ scan.pid .gpuSharedKb (asKb (asF64 scan.stats.sharedKb)),
      writeOf t₃ scan.pid .gpuTotalKb (asKb (asF64 scan.stats.totalKb)),
      writeOf t₄ scan.pid .gpuPurgeableKb (asKb (asF64 scan.stats.purgeableKb))]

/-- **From the fdinfo files to the answer.**  A scan sums the DRM clients of a process
up and sends four lines; whatever lines of any plugin come before them, and whatever
lines that observe other processes between and after them, a query within 30 s of them
is answered with that sum. -/
theorem query_answers_fdinfo (frozen : Executor.Registry.FrozenRegistry) (activePid : Option Pid)
    (pre post : List Line) (query : Line) (scan : Scan) (fds : List Fd) (hAgree : Agree fds)
    (hScan : getProcessGpuStats (some fds) = some scan.stats)
    (hSmall : (totalUsage fds).resident ≤ 2 ^ 53 ∧ (totalUsage fds).shared ≤ 2 ^ 53 ∧
      (totalUsage fds).total ≤ 2 ^ 53 ∧ (totalUsage fds).purgeable ≤ 2 ^ 53)
    (hObserved : ObservedBy post scan) (hQuery : query.parsed = some (.queryGpu scan.pid))
    (hClock : ((pre ++ post ++ [query]).map Line.now).Pairwise (· ≤ ·))
    (hRecent : ∀ l ∈ post, (observes scan.pid l).isSome = true →
      query.now - l.now < gpuCacheTtl) :
    (handle (run step ⟨frozen, ∅, activePid⟩ (pre ++ post)) query).broadcasts =
      [.gpuObservation scan.pid (Kb.clamp (totalUsage fds).resident)
        (Kb.clamp (totalUsage fds).shared) (Kb.clamp (totalUsage fds).total)
        (Kb.clamp (totalUsage fds).purgeable)] := by
  have hStats : scan.stats = (totalUsage fds).saturate := by
    rw [stats_eq_total fds hAgree] at hScan
    split at hScan
    · cases hScan
    · exact (Option.some.inj hScan).symm
  have hExact : ∀ n ≤ 2 ^ 53, asKb (asF64 (Kb.clamp n)) = Kb.clamp n := fun n hn =>
    asKb_asF64 ((Nat.min_le_left n u64Max).trans hn)
  obtain ⟨t₁, t₂, t₃, t₄, hLines⟩ := hObserved
  rw [List.map_append, List.pairwise_append] at hClock
  obtain ⟨before, hAnswer⟩ := answer_of_recent frozen activePid pre post scan.pid hClock.1
    (fun l hl => hClock.2.2 l.now (List.mem_map_of_mem hl) query.now (by simp)) hLines hRecent
  have hFound : getGpuStats (found (run step ⟨frozen, ∅, activePid⟩ (pre ++ post)) query).gpuCache
      query.now scan.pid = (totalUsage fds).saturate := by
    have hSum := scan_overwrites (totalUsage fds).saturate before
    refine hAnswer.trans (Eq.trans ?_ hSum)
    rw [hStats]
    unfold Usage.saturate
    rw [hExact _ hSmall.1, hExact _ hSmall.2.1, hExact _ hSmall.2.2.1, hExact _ hSmall.2.2.2]
    rfl
  unfold handle
  rw [hQuery]
  show [CoreMessage.gpuObservation _ _ _ _ _] = _
  rw [hFound]
  rfl

/-- A descriptor of client `id` with so much resident. -/
def driFd (name id : String) (residentKb : Nat) : Fd where
  name := name.toList
  link := some ("/dev/dri/renderD128".toList.map fun c => UInt8.ofNat c.toNat)
  fdinfo := some ("drm-client-id:\t" ++ id ++ "\ndrm-resident-system0:\t" ++
    toString residentKb ++ " KiB\n").toList

/-- Two clients, one of them with two descriptors, and a file that is not DRM. -/
def compositorFds : List Fd :=
  [driFd "5" "17" 2048, ⟨"6".toList, some [47], none⟩, driFd "9" "18" 1000, driFd "12" "17" 2048]

def compositorScan : Scan where
  plugin := "mgd-gpu-intel"
  pid := ⟨1234⟩
  stats := ⟨Kb.clamp 3048, Kb.clamp 0, Kb.clamp 0, Kb.clamp 0⟩

def lineAt (secs : Nat) (msg : PluginMessage) : Line :=
  { killCompositor with parsed := some msg, now := Instant.ofSecs secs }

/-- The scan, with an observation of another process in the middle. -/
def scanLines : List Line :=
  [lineAt 60 compositorScan.resident, lineAt 60 compositorScan.shared,
    lineAt 61 (.observation "mgd-gpu-intel" .gpuResidentKb (some ⟨77⟩) 5),
    lineAt 61 compositorScan.total, lineAt 62 compositorScan.purgeable]

/-- What the descriptors report. -/
theorem reports_compositorFds : compositorFds.filterMap Fd.report =
    [(['1', '7'], ⟨2048, 0, 0, 0⟩), (['1', '8'], ⟨1000, 0, 0, 0⟩),
      (['1', '7'], ⟨2048, 0, 0, 0⟩)] := by
  unfold compositorFds driFd
  simp only [String.toList_append]
  -- the kernel would decode each literal anew for every character
  repeat rewrite [String.toList_ofList]
  decide +kernel

theorem compositor_answered :
    (handle (run step ⟨Executor.Registry.FrozenRegistry.new, ∅, none⟩
        ([lineAt 10 (.observation "mgd-gpu-intel" .gpuSharedKb (some ⟨1234⟩) 9)] ++ scanLines))
      (lineAt 80 (.queryGpu ⟨1234⟩))).broadcasts =
      [.gpuObservation ⟨1234⟩ (Kb.clamp 3048) (Kb.clamp 0) (Kb.clamp 0) (Kb.clamp 0)] := by
  have hAgree : Agree compositorFds := by
    unfold Agree clients
    rw [reports_compositorFds]
    decide +kernel
  have hTotal : totalUsage compositorFds = ⟨3048, 0, 0, 0⟩ := by
    unfold totalUsage clients
    rw [reports_compositorFds]
    decide +kernel
  have hSome : ¬ clients compositorFds = ∅ := by
    unfold clients
    rw [reports_compositorFds]
    decide +kernel
  have hScan : getProcessGpuStats (some compositorFds) = some compositorScan.stats := by
    rw [stats_eq_total compositorFds hAgree, if_neg hSome, hTotal]
    rfl
  have hAnswer := query_answers_fdinfo Executor.Registry.FrozenRegistry.new none
    [lineAt 10 (.observation "mgd-gpu-intel" .gpuSharedKb (some ⟨1234⟩) 9)] scanLines
    (lineAt 80 (.queryGpu ⟨1234⟩)) compositorScan compositorFds hAgree hScan
    (by rw [hTotal]; decide) ⟨_, _, _, _, rfl⟩ rfl (by decide +kernel) (by decide +kernel)
  rw [hTotal] at hAnswer
  exact hAnswer

end Mgd.GpuAnswers
