import Mgd.PluginServer

/-!
# GPU totals

A GPU plugin sends what a scan found of a process as four lines
(`send_gpu_stats`), and the thread of its connection applies them to the GPU
cache one by one, taking the lock for each (`set_gpu_observation`).  The scoring
thread sums the cache at any moment (`get_total_gpu_kb`): resident minus shared,
for each process.

Between the first and the second line of a scan the cache holds the resident
size of the new scan and the shared size of the one before.
`untorn_of_settled` says which runs never read it there.
-/

namespace Mgd.GpuTotals

open Mgd.Types Mgd.Monitor Mgd.Lib.AssocMap Mgd.Lib.Run
open Mgd.Executor.Registry (FrozenRegistry)
open Mgd.PluginServer hiding step handle found Line

/-! ## What a scan sends -/

/-- The multiple of `d` nearest to `n`, over `d`; of two the even one. -/
def roundHalfEven (n d : Nat) : Nat :=
  if 2 * (n % d) < d ∨ 2 * (n % d) = d ∧ n / d % 2 = 0 then n / d else n / d + 1

/-- `kb as f64`: 53 bits of precision. -/
def asF64 (kb : Kb) : ℚ :=
  let ulp := 2 ^ (Nat.log2 kb.val - 52)
  ((roundHalfEven kb.val ulp * ulp : Nat) : ℚ)

/-- What a plugin found of a process in one scan. -/
structure Scan where
  plugin : String
  pid : Pid
  stats : SingleProcessGpuMemory

namespace Scan

def observation (s : Scan) (metric : Metric) (kb : Kb) : PluginMessage :=
  .observation s.plugin metric (some s.pid) (asF64 kb)

def resident (s : Scan) : PluginMessage := s.observation .gpuResidentKb s.stats.residentKb

def shared (s : Scan) : PluginMessage := s.observation .gpuSharedKb s.stats.sharedKb

def total (s : Scan) : PluginMessage := s.observation .gpuTotalKb s.stats.totalKb

def purgeable (s : Scan) : PluginMessage := s.observation .gpuPurgeableKb s.stats.purgeableKb

end Scan

/-- The four lines of a scan, in this order. -/
def sendGpuStats (s : Scan) : List PluginMessage := [s.resident, s.shared, s.total, s.purgeable]

/-- Resident minus shared, over the entries that have not expired. -/
def getTotalGpuKb (cache : GpuCache) (now : Instant) : Kb :=
  Kb.sum ((values (live now cache)).map fun e => e.1.residentKb.saturatingSub e.1.sharedKb)

/-! ## The connections and the cache -/

structure World where
  state : PluginState
  /-- the lines sent on each connection and not handled yet -/
  unread : Nat → List PluginMessage
  /-- every scan sent so far -/
  scans : List Scan
  /-- the processes observed so far -/
  observed : List Pid

inductive Move
  /-- A plugin sends a scan on its connection. -/
  | scan (n : Nat) (s : Scan)
  /-- The thread of a connection handles its next line. -/
  | line (n : Nat) (now : Instant)
  /-- `ScoreTracker::update` reads the total. -/
  | read (now : Instant)

def observedBy : PluginMessage → List Pid
  | .observation _ metric (some pid) _ => if isGpuMetric metric then [pid] else []
  | _ => []

def handleLine (w : World) (n : Nat) (now : Instant) : World :=
  match w.unread n with
  | [] => w
  | msg :: rest =>
      { w with
        state := (processPluginLine (some msg) now w.state).state
        unread := fun m => if m = n then rest else w.unread m
        observed := w.observed ++ observedBy msg }

def step (w : World) : Move → World
  | .scan n s =>
      { w with
        unread := fun m => if m = n then w.unread n ++ sendGpuStats s else w.unread m
        scans := w.scans ++ [s] }
  | .line n now => handleLine w n now
  | .read _ => w

/-- The daemon before any plugin has sent anything. -/
def start (frozen : FrozenRegistry) (activePid : Option Pid) : World where
  state := ⟨frozen, ∅, activePid⟩
  unread := fun _ => []
  scans := []
  observed := []

/-- The total read now adds up one scan of every process observed. -/
def Untorn (w : World) (now : Instant) : Prop :=
  ∃ (pids : List Pid) (scanOf : Pid → Scan), pids.Nodup ∧
    (∀ pid, pid ∈ pids ↔ pid ∈ w.observed) ∧
    (∀ pid ∈ pids, scanOf pid ∈ w.scans ∧ (scanOf pid).pid = pid) ∧
    getTotalGpuKb w.state.gpuCache now = Kb.sum (pids.map fun pid =>
      (scanOf pid).stats.residentKb.saturatingSub (scanOf pid).stats.sharedKb)

def ReadsUntorn (w : World) : Move → Prop
  | .read now => Untorn w now
  | _ => True

/-- No entry has expired by now. -/
def Fresh (cache : GpuCache) (now : Instant) : Prop :=
  ∀ e ∈ values cache, Instant.durationSince now e.2 < gpuCacheTtl

/-- No entry expires. -/
def NoneExpires (w : World) : Move → Prop
  | .scan _ _ => True
  | .line _ now => Fresh w.state.gpuCache now
  | .read now => Fresh w.state.gpuCache now

/-- The next line gives a resident size. -/
def startsScan : List PluginMessage → Option Pid
  | .observation _ .gpuResidentKb (some pid) _ :: _ => some pid
  | _ => none

/-- The next line gives a shared size: its scan is half applied. -/
def awaitsShared : List PluginMessage → Option (Pid × Kb)
  | .observation _ .gpuSharedKb (some pid) value :: _ => some (pid, asKb value)
  | _ => none

/-- The sizes sent fit a float, no connection starts on a process another one is
in the middle of, and a read finds no scan half applied unless the shared size
it still waits for is the cached one. -/
def Settled (w : World) : Move → Prop
  | .scan _ s => s.stats.residentKb.val ≤ 2 ^ 53 ∧ s.stats.sharedKb.val ≤ 2 ^ 53
  | .line n _ => ∀ pid, startsScan (w.unread n) = some pid →
      ∀ m kb, awaitsShared (w.unread m) ≠ some (pid, kb)
  | .read _ => ∀ n pid kb e, awaitsShared (w.unread n) = some (pid, kb) →
      w.state.gpuCache.lookup pid = some e → e.1.sharedKb = kb

/-! ## Sizes on the wire -/

theorem roundHalfEven_mul_of_dvd {n d : Nat} (hd : 0 < d) (h : d ∣ n) :
    roundHalfEven n d * d = n := by
  have hMod : n % d = 0 := Nat.mod_eq_zero_of_dvd h
  have hSmall : 2 * (n % d) < d := by
    rw [hMod]
    exact hd
  unfold roundHalfEven
  rw [if_pos (Or.inl hSmall)]
  exact Nat.div_mul_cancel h

/-- Up to 2^53 a float carries the size as it is. -/
theorem asKb_asF64 {kb : Kb} (h : kb.val ≤ 2 ^ 53) : asKb (asF64 kb) = kb := by
  have hDvd : 2 ^ (Nat.log2 kb.val - 52) ∣ kb.val := by
    cases Nat.lt_or_eq_of_le h with
    | inl hLt =>
        have hLog : Nat.log2 kb.val ≤ 52 := by
          by_cases hZero : kb.val = 0
          · rw [hZero]
            decide
          · exact Nat.le_of_lt_succ ((Nat.log2_lt hZero).mpr hLt)
        rw [Nat.sub_eq_zero_of_le hLog]
        exact Nat.one_dvd _
    | inr hEq =>
        rw [hEq, Nat.log2_two_pow]
        exact pow_dvd_pow 2 (by decide)
  have hRound := roundHalfEven_mul_of_dvd (Nat.two_pow_pos (Nat.log2 kb.val - 52)) hDvd
  have hMax : min kb.val u64Max = kb.val := Nat.min_eq_left kb.le_max
  unfold asF64 asKb
  simp only [hRound]
  cases kb with
  | mk val le_max =>
      simp only [Kb.clamp, Rat.num_natCast, Rat.den_natCast, Kb.mk.injEq]
      simpa using hMax

/-! ## The cache -/

section Cache

variable {cache : GpuCache} {now : Instant}

/-- While nothing expires every entry is kept. -/
theorem live_of_fresh (h : Fresh cache now) : live now cache = cache := by
  refine AList.ext ?_
  unfold live retain
  refine List.filter_eq_self.mpr fun entry hEntry => ?_
  exact decide_eq_true (h entry.2 (List.mem_map_of_mem hEntry))

/-- The entry a message of a scan leaves. -/
theorem lookup_observation (h : Fresh cache now) (pid pid' : Pid) (metric : Metric) (kb : Kb) :
    (setGpuObservation cache now pid metric kb).lookup pid' =
      if pid' = pid then
        some (setField ((cache.lookup pid).elim SingleProcessGpuMemory.default Prod.fst) kb metric,
          now)
      else cache.lookup pid' := by
  unfold setGpuObservation getGpuStats
  rw [lookup_insert_eq, live_of_fresh h]
  cases cache.lookup pid with
  | none => rfl
  | some e => rfl

end Cache

/-! ## How far a connection is -/

/-- A scan among those sent, of sizes a float carries. -/
structure Sent (scans : List Scan) (s : Scan) : Prop where
  mem : s ∈ scans
  resident : asKb (asF64 s.stats.residentKb) = s.stats.residentKb
  shared : asKb (asF64 s.stats.sharedKb) = s.stats.sharedKb

/-- The lines still to be handled are what is left of one scan, and whole scans
after it. -/
inductive Progress (scans : List Scan) (cache : GpuCache) : List PluginMessage → Prop
  | between (later : List Scan) (hLater : ∀ s ∈ later, Sent scans s) :
      Progress scans cache (later.flatMap sendGpuStats)
  | resident (s : Scan) (later : List Scan) (hSent : Sent scans s)
      (hLater : ∀ s ∈ later, Sent scans s) (e : SingleProcessGpuMemory × Instant)
      (hEntry : cache.lookup s.pid = some e) (hResident : e.1.residentKb = s.stats.residentKb) :
      Progress scans cache (s.shared :: s.total :: s.purgeable :: later.flatMap sendGpuStats)
  | shared (s : Scan) (later : List Scan) (hLater : ∀ s ∈ later, Sent scans s)
      (e : SingleProcessGpuMemory × Instant) (hEntry : cache.lookup s.pid = some e) :
      Progress scans cache (s.total :: s.purgeable :: later.flatMap sendGpuStats)
  | total (s : Scan) (later : List Scan) (hLater : ∀ s ∈ later, Sent scans s)
      (e : SingleProcessGpuMemory × Instant) (hEntry : cache.lookup s.pid = some e) :
      Progress scans cache (s.purgeable :: later.flatMap sendGpuStats)

structure Inv (w : World) : Prop where
  progress : ∀ n, Progress w.scans w.state.gpuCache (w.unread n)
  observed : ∀ pid, pid ∈ w.observed ↔ pid ∈ w.state.gpuCache
  alone : ∀ n m pid kb kb', awaitsShared (w.unread n) = some (pid, kb) →
    awaitsShared (w.unread m) = some (pid, kb') → n = m
  whole : ∀ pid e, w.state.gpuCache.lookup pid = some e →
    (∀ n kb, awaitsShared (w.unread n) ≠ some (pid, kb)) →
    ∃ s ∈ w.scans, s.pid = pid ∧ e.1.residentKb = s.stats.residentKb ∧
      e.1.sharedKb = s.stats.sharedKb

section Progress

variable {scans : List Scan} {cache : GpuCache} {msgs : List PluginMessage}

theorem Sent.mono {s : Scan} (h : Sent scans s) {scans' : List Scan}
    (hScans : ∀ s ∈ scans, s ∈ scans') : Sent scans' s :=
  ⟨hScans s h.mem, h.resident, h.shared⟩

/-- Nothing awaits its shared size at the start of a scan. -/
theorem awaitsShared_flatMap (later : List Scan) :
    awaitsShared (later.flatMap sendGpuStats) = none := by
  cases later with
  | nil => rfl
  | cons s rest => rfl

/-- Every entry stays, and the one a half applied scan is about keeps its
resident size. -/
theorem Progress.mono (h : Progress scans cache msgs) {scans' : List Scan} {cache' : GpuCache}
    (hScans : ∀ s ∈ scans, s ∈ scans')
    (hKeep : ∀ pid e, cache.lookup pid = some e → ∃ e', cache'.lookup pid = some e' ∧
      ∀ kb, awaitsShared msgs = some (pid, kb) → e'.1.residentKb = e.1.residentKb) :
    Progress scans' cache' msgs := by
  have hSent : ∀ later : List Scan, (∀ s ∈ later, Sent scans s) → ∀ s ∈ later, Sent scans' s :=
    fun later hLater s hs => (hLater s hs).mono hScans
  cases h with
  | between later hLater => exact .between later (hSent later hLater)
  | resident s later hs hLater e hEntry hResident =>
      obtain ⟨e', hEntry', hSame⟩ := hKeep s.pid e hEntry
      refine .resident s later (hs.mono hScans) (hSent later hLater) e' hEntry' ?_
      rw [← hResident]
      exact hSame _ rfl
  | shared s later hLater e hEntry =>
      obtain ⟨e', hEntry', -⟩ := hKeep s.pid e hEntry
      exact .shared s later (hSent later hLater) e' hEntry'
  | total s later hLater e hEntry =>
      obtain ⟨e', hEntry', -⟩ := hKeep s.pid e hEntry
      exact .total s later (hSent later hLater) e' hEntry'

/-- Another scan goes behind what is there. -/
theorem Progress.append (h : Progress scans cache msgs) {s : Scan} (hs : Sent scans s) :
    Progress scans cache (msgs ++ sendGpuStats s) := by
  have hSent : ∀ later : List Scan, (∀ t ∈ later, Sent scans t) →
      ∀ t ∈ later ++ [s], Sent scans t := by
    intro later hLater t ht
    cases List.mem_append.mp ht with
    | inl hOld => exact hLater t hOld
    | inr hNew => exact List.mem_singleton.mp hNew ▸ hs
  have hFlat : ∀ later : List Scan,
      later.flatMap sendGpuStats ++ sendGpuStats s = (later ++ [s]).flatMap sendGpuStats := by
    intro later
    simp
  cases h with
  | between later hLater =>
      rw [hFlat]
      exact .between (later ++ [s]) (hSent later hLater)
  | resident t later ht hLater e hEntry hResident =>
      simp only [List.cons_append, hFlat]
      exact .resident t (later ++ [s]) ht (hSent later hLater) e hEntry hResident
  | shared t later hLater e hEntry =>
      simp only [List.cons_append, hFlat]
      exact .shared t (later ++ [s]) (hSent later hLater) e hEntry
  | total t later hLater e hEntry =>
      simp only [List.cons_append, hFlat]
      exact .total t (later ++ [s]) (hSent later hLater) e hEntry

theorem awaitsShared_append (msgs : List PluginMessage) (s : Scan) :
    awaitsShared (msgs ++ sendGpuStats s) = awaitsShared msgs := by
  cases msgs with
  | nil => rfl
  | cons msg rest =>
      simp only [List.cons_append]
      unfold awaitsShared
      split <;> simp_all

end Progress

/-! ## Steps -/

section Steps

variable {w : World}

theorem handleLine_observation {n : Nat} {s : Scan} {metric : Metric} {kb : Kb}
    {rest : List PluginMessage} (now : Instant)
    (hUnread : w.unread n = s.observation metric kb :: rest) (hMetric : isGpuMetric metric = true) :
    handleLine w n now =
      { w with
        state := { w.state with
          gpuCache := setGpuObservation w.state.gpuCache now s.pid metric (asKb (asF64 kb)) }
        unread := fun m => if m = n then rest else w.unread m
        observed := w.observed ++ [s.pid] } := by
  simp only [handleLine, hUnread, Scan.observation, processPluginLine, observedBy, hMetric, if_true]

/-- **One line** of a scan.  `e` is the entry before it, `hNew` what it leaves. -/
theorem inv_observation (h : Inv w) {n : Nat} {s : Scan} {metric : Metric} {kb : Kb}
    {rest : List PluginMessage} {now : Instant} (hFresh : Fresh w.state.gpuCache now)
    (hUnread : w.unread n = s.observation metric kb :: rest) (hMetric : isGpuMetric metric = true)
    {new : SingleProcessGpuMemory}
    (hNew : setField ((w.state.gpuCache.lookup s.pid).elim SingleProcessGpuMemory.default Prod.fst)
      (asKb (asF64 kb)) metric = new)
    (hRest : ∀ cache : GpuCache, cache.lookup s.pid = some (new, now) →
      Progress w.scans cache rest)
    (hKeep : ∀ m kb', m ≠ n → awaitsShared (w.unread m) = some (s.pid, kb') →
      ∀ e, w.state.gpuCache.lookup s.pid = some e → new.residentKb = e.1.residentKb)
    (hBefore : ∀ pid kb', awaitsShared (w.unread n) = some (pid, kb') → pid = s.pid)
    (hAfter : ∀ pid kb', awaitsShared rest = some (pid, kb') →
      pid = s.pid ∧ ∀ m kb'', m ≠ n → awaitsShared (w.unread m) ≠ some (s.pid, kb''))
    (hWhole : (∀ kb', awaitsShared rest ≠ some (s.pid, kb')) →
      (∀ m kb', m ≠ n → awaitsShared (w.unread m) ≠ some (s.pid, kb')) →
      ∃ t ∈ w.scans, t.pid = s.pid ∧ new.residentKb = t.stats.residentKb ∧
        new.sharedKb = t.stats.sharedKb) :
    Inv (handleLine w n now) := by
  have hLookup := fun pid => lookup_observation hFresh s.pid pid metric (asKb (asF64 kb))
  rw [hNew] at hLookup
  rw [handleLine_observation now hUnread hMetric]
  refine ⟨fun m => ?_, fun pid => ?_, ?_, ?_⟩
  · by_cases hm : m = n
    · simp only [hm, if_true]
      exact hRest _ ((hLookup s.pid).trans (if_pos rfl))
    · simp only [hm, if_false]
      refine (h.progress m).mono (fun t ht => ht) fun pid e he => ?_
      by_cases hPid : pid = s.pid
      · subst hPid
        exact ⟨(new, now), (hLookup s.pid).trans (if_pos rfl), fun kb' hAwait =>
          hKeep m kb' hm hAwait e he⟩
      · exact ⟨e, (hLookup pid).trans ((if_neg hPid).trans he), fun _ _ => rfl⟩
  · rw [List.mem_append, List.mem_singleton, h.observed pid, mem_iff_lookup, mem_iff_lookup,
      hLookup pid]
    by_cases hPid : pid = s.pid
    · simp [hPid]
    · simp [hPid]
  · intro m m' pid kb' kb'' hm hm'
    by_cases hmn : m = n
    · by_cases hmn' : m' = n
      · exact hmn.trans hmn'.symm
      · simp only [hmn, if_true] at hm
        simp only [hmn', if_false] at hm'
        obtain ⟨hPid, hOthers⟩ := hAfter pid kb' hm
        exact absurd (hPid ▸ hm') (hOthers m' kb'' hmn')
    · simp only [hmn, if_false] at hm
      by_cases hmn' : m' = n
      · simp only [hmn', if_true] at hm'
        obtain ⟨hPid, hOthers⟩ := hAfter pid kb'' hm'
        exact absurd (hPid ▸ hm) (hOthers m kb' hmn)
      · simp only [hmn', if_false] at hm'
        exact h.alone m m' pid kb' kb'' hm hm'
  · intro pid e he hNone
    have hNone' : ∀ m kb', m ≠ n → awaitsShared (w.unread m) ≠ some (pid, kb') := by
      intro m kb' hm
      have hAfter' := hNone m kb'
      simpa only [hm, if_false] using hAfter'
    dsimp only at he
    rw [hLookup pid] at he
    by_cases hPid : pid = s.pid
    · subst hPid
      rw [if_pos rfl] at he
      cases he
      refine hWhole (fun kb' => ?_) hNone'
      have hAfter' := hNone n kb'
      simpa only [if_true] using hAfter'
    · rw [if_neg hPid] at he
      refine h.whole pid e he fun m kb' hAwait => ?_
      by_cases hm : m = n
      · subst hm
        exact hPid (hBefore pid kb' hAwait)
      · exact hNone' m kb' hm hAwait

/-- A line that gives neither of the two sizes. -/
theorem inv_other_size (h : Inv w) {n : Nat} {s : Scan} {metric : Metric} {kb : Kb}
    {rest : List PluginMessage} {now : Instant} (hFresh : Fresh w.state.gpuCache now)
    (hUnread : w.unread n = s.observation metric kb :: rest) (hMetric : isGpuMetric metric = true)
    {e : SingleProcessGpuMemory × Instant} (hEntry : w.state.gpuCache.lookup s.pid = some e)
    (hResident : (setField e.1 (asKb (asF64 kb)) metric).residentKb = e.1.residentKb)
    (hShared : (setField e.1 (asKb (asF64 kb)) metric).sharedKb = e.1.sharedKb)
    (hRest : ∀ (cache : GpuCache) (e' : SingleProcessGpuMemory × Instant),
      cache.lookup s.pid = some e' → Progress w.scans cache rest)
    (hBefore : awaitsShared (w.unread n) = none) (hAfter : awaitsShared rest = none) :
    Inv (handleLine w n now) := by
  have hNew : setField ((w.state.gpuCache.lookup s.pid).elim SingleProcessGpuMemory.default
      Prod.fst) (asKb (asF64 kb)) metric = setField e.1 (asKb (asF64 kb)) metric := by
    rw [hEntry]
    rfl
  refine inv_observation h hFresh hUnread hMetric hNew (fun cache hCache => hRest cache _ hCache)
    (fun m kb' _ _ e' he' => ?_) (fun pid kb' hAwait => ?_) (fun pid kb' hAwait => ?_) ?_
  · rw [hEntry] at he'
    cases he'
    exact hResident
  · rw [hBefore] at hAwait
    cases hAwait
  · rw [hAfter] at hAwait
    cases hAwait
  · intro _ hOthers
    obtain ⟨t, ht, hPid, hRes, hSh⟩ := h.whole s.pid e hEntry fun m kb' hAwait => by
      by_cases hm : m = n
      · rw [hm, hBefore] at hAwait
        cases hAwait
      · exact hOthers m kb' hm hAwait
    exact ⟨t, ht, hPid, hResident.trans hRes, hShared.trans hSh⟩

theorem inv_line (h : Inv w) {n : Nat} {now : Instant} (hFresh : Fresh w.state.gpuCache now)
    (hStarts : ∀ pid, startsScan (w.unread n) = some pid →
      ∀ m kb, awaitsShared (w.unread m) ≠ some (pid, kb)) : Inv (handleLine w n now) := by
  generalize hMsgs : w.unread n = msgs
  have hProgress := h.progress n
  rw [hMsgs] at hProgress
  cases hProgress with
  | between later hLater =>
      cases later with
      | nil =>
          have hSame : handleLine w n now = w := by simp [handleLine, hMsgs]
          rw [hSame]
          exact h
      | cons s later =>
          have hSent := hLater s List.mem_cons_self
          have hOthers := hStarts s.pid (by rw [hMsgs]; rfl)
          refine inv_observation h hFresh (s := s) hMsgs rfl rfl (fun cache hCache => ?_)
            (fun m kb' _ hAwait => absurd hAwait (hOthers m kb')) (fun pid kb' hAwait => ?_)
            (fun pid kb' hAwait => ?_) (fun hNone _ => ?_)
          · exact .resident s later hSent (fun t ht => hLater t (List.mem_cons_of_mem s ht)) _
              hCache hSent.resident
          · rw [hMsgs] at hAwait
            cases hAwait
          · cases hAwait
            exact ⟨rfl, fun m kb'' _ => hOthers m kb''⟩
          · exact absurd rfl (hNone _)
  | resident s later hSent hLater e hEntry hResident =>
      have hAlone : ∀ m kb', m ≠ n → awaitsShared (w.unread m) ≠ some (s.pid, kb') := by
        intro m kb' hm hAwait
        exact hm (h.alone m n s.pid kb' _ hAwait (by rw [hMsgs]; rfl))
      refine inv_observation h hFresh (s := s) hMsgs rfl rfl (fun cache hCache => ?_)
        (fun m kb' hm hAwait => absurd hAwait (hAlone m kb' hm)) (fun pid kb' hAwait => ?_)
        (fun pid kb' hAwait => by cases hAwait) (fun _ _ => ?_)
      · exact .shared s later hLater _ hCache
      · rw [hMsgs] at hAwait
        cases hAwait
        rfl
      · refine ⟨s, hSent.mem, rfl, ?_, hSent.shared⟩
        rw [hEntry]
        exact hResident
  | shared s later hLater e hEntry =>
      exact inv_other_size h hFresh (s := s) hMsgs rfl hEntry rfl rfl
        (fun cache e' he' => .total s later hLater e' he') (by rw [hMsgs]; rfl) rfl
  | total s later hLater e hEntry =>
      exact inv_other_size h hFresh (s := s) hMsgs rfl hEntry rfl rfl
        (fun cache _ _ => .between later hLater) (by rw [hMsgs]; rfl) (awaitsShared_flatMap later)

theorem inv_scan (h : Inv w) (n : Nat) {s : Scan} (hResident : s.stats.residentKb.val ≤ 2 ^ 53)
    (hShared : s.stats.sharedKb.val ≤ 2 ^ 53) : Inv (step w (.scan n s)) := by
  have hSent : Sent (w.scans ++ [s]) s :=
    ⟨List.mem_append_right _ List.mem_cons_self, asKb_asF64 hResident, asKb_asF64 hShared⟩
  have hOld : ∀ t ∈ w.scans, t ∈ w.scans ++ [s] := fun t ht => List.mem_append_left _ ht
  have hAwaits : ∀ m, awaitsShared ((step w (.scan n s)).unread m) = awaitsShared (w.unread m) := by
    intro m
    by_cases hm : m = n
    · simp only [step, hm, if_true]
      exact awaitsShared_append _ s
    · simp only [step, hm, if_false]
  refine ⟨fun m => ?_, h.observed, ?_, ?_⟩
  · have hProgress := (h.progress m).mono hOld fun pid e he => ⟨e, he, fun _ _ => rfl⟩
    by_cases hm : m = n
    · subst hm
      simp only [step, if_true]
      exact hProgress.append hSent
    · simp only [step, hm, if_false]
      exact hProgress
  · intro m m' pid kb kb' hm hm'
    rw [hAwaits] at hm hm'
    exact h.alone m m' pid kb kb' hm hm'
  · intro pid e he hNone
    obtain ⟨t, ht, hWhole⟩ := h.whole pid e he fun m kb => hAwaits m ▸ hNone m kb
    exact ⟨t, hOld t ht, hWhole⟩

theorem inv_step (h : Inv w) {m : Move} (hFresh : NoneExpires w m) (hSettled : Settled w m) :
    Inv (step w m) := by
  cases m with
  | scan n s => exact inv_scan h n hSettled.1 hSettled.2
  | line n now => exact inv_line h hFresh hSettled
  | read now => exact h

/-- Every entry is one scan, once the shared sizes still awaited are the cached
ones. -/
theorem entry_whole (h : Inv w)
    (hSettled : ∀ n pid kb e, awaitsShared (w.unread n) = some (pid, kb) →
      w.state.gpuCache.lookup pid = some e → e.1.sharedKb = kb)
    {pid : Pid} {e : SingleProcessGpuMemory × Instant}
    (he : w.state.gpuCache.lookup pid = some e) :
    ∃ s ∈ w.scans, s.pid = pid ∧ e.1.residentKb = s.stats.residentKb ∧
      e.1.sharedKb = s.stats.sharedKb := by
  by_cases hAwaited : ∃ n kb, awaitsShared (w.unread n) = some (pid, kb)
  · obtain ⟨n, kb, hAwait⟩ := hAwaited
    have hShared := hSettled n pid kb e hAwait he
    generalize hMsgs : w.unread n = msgs at hAwait
    have hProgress := h.progress n
    rw [hMsgs] at hProgress
    cases hProgress with
    | between later hLater =>
        rw [awaitsShared_flatMap] at hAwait
        cases hAwait
    | resident s later hSent hLater e' hEntry hResident =>
        cases hAwait
        rw [he] at hEntry
        cases hEntry
        exact ⟨s, hSent.mem, rfl, hResident, hShared.trans hSent.shared⟩
    | shared s later hLater e' hEntry => cases hAwait
    | total s later hLater e' hEntry => cases hAwait
  · refine h.whole pid e he fun n kb hAwait => hAwaited ⟨n, kb, hAwait⟩

/-- **One read.** -/
theorem untorn_of_inv (h : Inv w) {now : Instant} (hFresh : Fresh w.state.gpuCache now)
    (hSettled : ∀ n pid kb e, awaitsShared (w.unread n) = some (pid, kb) →
      w.state.gpuCache.lookup pid = some e → e.1.sharedKb = kb) : Untorn w now := by
  have hScan : ∀ pid, ∃ s : Scan, ∀ e, w.state.gpuCache.lookup pid = some e →
      (s ∈ w.scans ∧ s.pid = pid) ∧ e.1.residentKb = s.stats.residentKb ∧
        e.1.sharedKb = s.stats.sharedKb := by
    intro pid
    cases he : w.state.gpuCache.lookup pid with
    | none => exact ⟨⟨"", pid, SingleProcessGpuMemory.default⟩, fun e he' => by cases he'⟩
    | some e =>
        obtain ⟨s, hs, hPid, hWhole⟩ := entry_whole h hSettled he
        refine ⟨s, fun e' he' => ?_⟩
        cases he'
        exact ⟨⟨hs, hPid⟩, hWhole⟩
  choose scanOf hScanOf using hScan
  refine ⟨w.state.gpuCache.keys, scanOf, w.state.gpuCache.keys_nodup, fun pid => ?_,
    fun pid hPid => ?_, ?_⟩
  · rw [h.observed, AList.mem_keys]
  · obtain ⟨e, he⟩ := mem_keys_iff.mp hPid
    exact (hScanOf pid e he).1
  · unfold getTotalGpuKb
    rw [live_of_fresh hFresh]
    simp only [values, AList.keys, List.keys, List.map_map]
    refine congrArg Kb.sum (List.map_congr_left fun entry hEntry => ?_)
    obtain ⟨-, hResident, hShared⟩ :=
      hScanOf entry.1 entry.2 (lookup_eq_some_iff.mpr hEntry)
    simp only [Function.comp_apply, hResident, hShared]

end Steps

/--
**No total is torn** in a run where nothing expires, the sizes fit a float, no
two connections are in the middle of one process, and the total is not read
between the resident and the shared size of a scan.
-/
theorem untorn_of_settled (frozen : FrozenRegistry) (activePid : Option Pid) (moves : List Move)
    (hFresh : EveryStep step NoneExpires (start frozen activePid) moves)
    (hSettled : EveryStep step Settled (start frozen activePid) moves) :
    EveryStep step ReadsUntorn (start frozen activePid) moves := by
  have hInv : Inv (start frozen activePid) :=
    ⟨fun _ => .between [] (fun s hs => by cases hs),
      fun pid => iff_of_false List.not_mem_nil (AList.notMem_empty pid),
      fun _ _ _ _ _ hAwait => (by cases hAwait), fun _ _ he => (by cases he)⟩
  have hStep : ∀ w m, Inv w → NoneExpires w m ∧ Settled w m → Inv (step w m) :=
    fun w m h hBoth => inv_step h hBoth.1 hBoth.2
  refine everyStep_of_invariant hStep (fun w m h hBoth => ?_) hInv (hFresh.and hSettled)
  cases m with
  | scan n s => trivial
  | line n now => trivial
  | read now => exact untorn_of_inv h hBoth.1 hBoth.2

/-! ## A read in the middle of a scan -/

/-- A browser of 2 GB, 1.9 of them shared. -/
def browserScan : Scan where
  plugin := "mgd-gpu-intel"
  pid := ⟨100⟩
  stats := ⟨Kb.clamp 2000000, Kb.clamp 1900000, Kb.clamp 2000000, Kb.clamp 0⟩

/-- The total is read after the first line. -/
def earlyRead : List Move := [.scan 0 browserScan, .line 0 0, .read 0]

/-- The total is read after the second. -/
def lateRead : List Move := [.scan 0 browserScan, .line 0 0, .line 0 0, .read 0]

/-- Where only one connection has anything to say, its lines never meet another
scan. -/
theorem settled_line_of_single {w : World} (h : ∀ m, m ≠ 0 → w.unread m = []) (now : Instant) :
    Settled w (.line 0 now) := by
  intro pid hStarts m kb hAwait
  by_cases hm : m = 0
  · rw [hm] at hAwait
    unfold startsScan at hStarts
    split at hStarts
    · next hHead =>
        rw [hHead] at hAwait
        cases hAwait
    · cases hStarts
  · rw [h m hm] at hAwait
    cases hAwait

theorem late_read_untorn : EveryStep step ReadsUntorn (start .new none) lateRead := by
  have hFresh : EveryStep step NoneExpires (start .new none) lateRead := by
    refine ⟨trivial, ?_, ?_, ?_, trivial⟩
    · unfold NoneExpires Fresh
      decide +kernel
    · unfold NoneExpires Fresh
      decide +kernel
    · unfold NoneExpires Fresh
      decide +kernel
  have hSettled : EveryStep step Settled (start .new none) lateRead := by
    refine ⟨⟨by decide +kernel, by decide +kernel⟩,
      settled_line_of_single (fun m hm => if_neg hm) 0,
      settled_line_of_single (fun m hm => (if_neg hm).trans (if_neg hm)) 0,
      fun n pid kb e hAwait => ?_, trivial⟩
    by_cases hn : n = 0
    · subst hn
      cases hAwait
    · have hQuiet : (run step (start .new none) (lateRead.take 3)).unread n = [] :=
        (if_neg hn).trans ((if_neg hn).trans (if_neg hn))
      change awaitsShared ((run step (start .new none) (lateRead.take 3)).unread n) =
        some (pid, kb) at hAwait
      rw [hQuiet] at hAwait
      cases hAwait
  exact untorn_of_settled .new none lateRead hFresh hSettled

/-- The early read takes the shared memory for the browser's own. -/
theorem early_read_torn :
    ¬ ∀ (frozen : FrozenRegistry) (activePid : Option Pid) (moves : List Move),
      EveryStep step NoneExpires (start frozen activePid) moves →
        EveryStep step ReadsUntorn (start frozen activePid) moves := by
  intro hAll
  have hFresh : EveryStep step NoneExpires (start .new none) earlyRead := by
    refine ⟨trivial, ?_, ?_, trivial⟩
    · unfold NoneExpires Fresh
      decide +kernel
    · unfold NoneExpires Fresh
      decide +kernel
  have hRead : Untorn (run step (start .new none) (earlyRead.take 2)) 0 :=
    (hAll .new none earlyRead hFresh).2.2.1
  obtain ⟨pids, scanOf, hNodup, hPids, hScans, hTotal⟩ := hRead
  have hObserved : (run step (start .new none) (earlyRead.take 2)).observed = [browserScan.pid] :=
    by decide +kernel
  have hOnly : pids = [browserScan.pid] := by
    rw [hObserved] at hPids
    exact List.perm_singleton.mp ((List.perm_ext_iff_of_nodup hNodup (by simp)).mpr hPids)
  subst hOnly
  have hScan : scanOf browserScan.pid = browserScan :=
    List.mem_singleton.mp (hScans browserScan.pid List.mem_cons_self).1
  rw [List.map_singleton, hScan] at hTotal
  exact absurd hTotal (by decide +kernel)

end Mgd.GpuTotals
