import Mathlib.Algebra.BigOperators.Group.Finset.Basic
import Mathlib.Data.List.Infix
import Mgd.Lib.AssocMap
import Mgd.Lib.Text
import Mgd.PluginServer

/-!
# The GPU memory of a process

`get_process_gpu_stats` of `gpu.rs` walks the descriptors of a process, reads the
fdinfo of those that are DRM files, and adds up the regions.  Several descriptors
may belong to one DRM client; each then reports the whole client, so the figures
are kept by client and the last descriptor listed overwrites the others.

The kernel lists descriptors in any order, with any number of duplicates and of
other files between them.  `stats_eq_total` shows that none of this matters when the
duplicates agree: the result is the sum over the clients, saturated once.
-/

namespace Mgd.GpuFdinfo

open Mgd.Types Mgd.Lib.Text Mgd.Lib.AssocMap
open Mgd.PluginServer (SingleProcessGpuMemory)

/-! ## Sizes -/

/-- `split_once(':')`: what follows. -/
def afterColon : List Char → Option (List Char)
  | [] => none
  | c :: rest => if c = ':' then some rest else afterColon rest

/-- `2247000 KiB`, `4 MiB`, and a bare number of bytes. -/
def parseMemKb (s : List Char) : Option Kb :=
  match splitWhitespace s with
  | [] => none
  | num :: rest =>
      (parseUnsigned u64Max num).bind fun n =>
        match rest.head? with
        | none => some (Kb.clamp (n / 1024))
        | some unit =>
            if unit = "KiB".toList then some (Kb.clamp n)
            else if unit = "MiB".toList then some (Kb.clamp (n * 1024))
            else if unit = "GiB".toList then some (Kb.clamp (n * (1024 * 1024)))
            else if unit = "B".toList then some (Kb.clamp (n / 1024))
            else none

/-- `<region>:<value> <unit>` -/
def drmRegionKb (v : List Char) : Option Kb := (afterColon v).bind fun val => parseMemKb (trim val)

/-- The size on a line that starts like that. -/
def regionKb (start : String) (line : List Char) : Option Kb :=
  (stripPrefix start.toList line).bind drmRegionKb

/-! ## One descriptor -/

/-- What `/proc/<pid>/fd` has under a name, and the fdinfo of it as text. -/
structure Fd where
  name : List Char
  /-- the target of the link, `none` when it cannot be read -/
  link : Option (List UInt8)
  fdinfo : Option (List Char)

/-- The target starts with `/dev/dri/`. -/
def Fd.isDri (fd : Fd) : Bool :=
  fd.link.any fun target =>
    decide (target.take 9 = "/dev/dri/".toList.map fun c => UInt8.ofNat c.toNat)

/-- The locals of the loop over the lines. -/
structure Fdinfo where
  clientId : Option (List Char)
  residentKb : Kb
  sharedKb : Kb
  totalKb : Kb
  purgeableKb : Kb
  hasDrm : Bool

def Fdinfo.start : Fdinfo where
  clientId := none
  residentKb := Kb.clamp 0
  sharedKb := Kb.clamp 0
  totalKb := Kb.clamp 0
  purgeableKb := Kb.clamp 0
  hasDrm := false

def Fdinfo.readLine (s : Fdinfo) (line : List Char) : Fdinfo :=
  match stripPrefix "drm-client-id:".toList line with
  | some v => { s with clientId := some (trim v) }
  | none =>
      match regionKb "drm-resident-" line with
      | some kb => { s with residentKb := s.residentKb.saturatingAdd kb, hasDrm := true }
      | none =>
          match regionKb "drm-shared-" line with
          | some kb => { s with sharedKb := s.sharedKb.saturatingAdd kb }
          | none =>
              match regionKb "drm-total-" line with
              | some kb => { s with totalKb := s.totalKb.saturatingAdd kb }
              | none =>
                  match regionKb "drm-purgeable-" line with
                  | some kb => { s with purgeableKb := s.purgeableKb.saturatingAdd kb }
                  | none => s

def parseFdinfo (content : List Char) : Fdinfo := (lines content).foldl Fdinfo.readLine Fdinfo.start

/-- The key of the client and its figures.  Without an id the descriptor is its own
client, under the debug form of its name. -/
def readFd (fd : Fd) : Option (List Char × SingleProcessGpuMemory) :=
  if fd.isDri then
    fd.fdinfo.bind fun content =>
      let info := parseFdinfo content
      if info.hasDrm then
        some (info.clientId.getD ("fd:\"".toList ++ fd.name ++ ['"']),
          ⟨info.residentKb, info.sharedKb, info.totalKb, info.purgeableKb⟩)
      else none
  else none

/-! ## The process -/

def addStats (stats : List SingleProcessGpuMemory) : SingleProcessGpuMemory where
  residentKb := Kb.sum (stats.map SingleProcessGpuMemory.residentKb)
  sharedKb := Kb.sum (stats.map SingleProcessGpuMemory.sharedKb)
  totalKb := Kb.sum (stats.map SingleProcessGpuMemory.totalKb)
  purgeableKb := Kb.sum (stats.map SingleProcessGpuMemory.purgeableKb)

/-- The descriptors in the order they are listed, `none` when they cannot be. -/
def getProcessGpuStats (fds : Option (List Fd)) : Option SingleProcessGpuMemory :=
  fds.bind fun entries =>
    let clients := entries.filterMap readFd
    if clients.isEmpty then none
    else some (addStats (values (insertAll Prod.fst Prod.snd (∅ : Map (List Char) _) clients)))

/-! ## What the figures are -/

/-- The four figures of a client, added up without a bound. -/
structure Usage where
  resident : Nat
  shared : Nat
  total : Nat
  purgeable : Nat
deriving DecidableEq

def regionSum (start : String) (content : List Char) : Nat :=
  (((lines content).filterMap (regionKb start)).map Kb.val).sum

def usage (content : List Char) : Usage where
  resident := regionSum "drm-resident-" content
  shared := regionSum "drm-shared-" content
  total := regionSum "drm-total-" content
  purgeable := regionSum "drm-purgeable-" content

def Usage.saturate (u : Usage) : SingleProcessGpuMemory where
  residentKb := Kb.clamp u.resident
  sharedKb := Kb.clamp u.shared
  totalKb := Kb.clamp u.total
  purgeableKb := Kb.clamp u.purgeable

/-- The last line that names the client. -/
def clientOf (fd : Fd) (content : List Char) : List Char :=
  (((lines content).filterMap (stripPrefix "drm-client-id:".toList)).getLast?.map trim).getD
    ("fd:\"".toList ++ fd.name ++ ['"'])

/-- The client a descriptor belongs to and what it reports of it: a readable DRM
file with a resident region. -/
def Fd.report (fd : Fd) : Option (List Char × Usage) :=
  if fd.isDri then
    fd.fdinfo.bind fun content =>
      if (lines content).any fun line => (regionKb "drm-resident-" line).isSome then
        some (clientOf fd content, usage content)
      else none
  else none

/-- The clients of a process and what they use. -/
def clients (fds : List Fd) : Finset (List Char × Usage) := (fds.filterMap Fd.report).toFinset

/-- Descriptors of one client report the same. -/
def Agree (fds : List Fd) : Prop :=
  ∀ r ∈ clients fds, ∀ r' ∈ clients fds, r.1 = r'.1 → r.2 = r'.2

/-- The sum over the clients. -/
def totalUsage (fds : List Fd) : Usage where
  resident := ∑ r ∈ clients fds, r.2.resident
  shared := ∑ r ∈ clients fds, r.2.shared
  total := ∑ r ∈ clients fds, r.2.total
  purgeable := ∑ r ∈ clients fds, r.2.purgeable

/-! ## One descriptor, in one go -/

theorem clamp_saturatingAdd (n : Nat) (kb : Kb) :
    (Kb.clamp n).saturatingAdd kb = Kb.clamp (n + kb.val) := by
  unfold Kb.saturatingAdd Kb.clamp
  simp only [Kb.mk.injEq]
  omega

/-- The kinds of lines differ in their fifth character. -/
theorem fifth_of_stripPrefix {start text rest : List Char} {c : Char} (hLong : 4 < start.length)
    (hStart : start[4]? = some c) (h : stripPrefix start text = some rest) :
    text[4]? = some c := by
  rw [stripPrefix_eq_some_iff.mp h, List.getElem?_append_left hLong, hStart]

theorem fifth_of_regionKb {start : String} {text : List Char} {kb : Kb} {c : Char}
    (hLong : 4 < start.toList.length) (hStart : start.toList[4]? = some c)
    (h : regionKb start text = some kb) : text[4]? = some c := by
  obtain ⟨rest, hStrip, -⟩ := Option.bind_eq_some_iff.mp h
  exact fifth_of_stripPrefix hLong hStart hStrip

theorem stripPrefix_of_fifth {text : List Char} {c : Char} (h : text[4]? = some c)
    (start : List Char) (hLong : 4 < start.length) (hOther : start[4]? ≠ some c) :
    stripPrefix start text = none := by
  cases hStrip : stripPrefix start text with
  | none => rfl
  | some rest =>
      have hSame : text[4]? = start[4]? := by
        rw [stripPrefix_eq_some_iff.mp hStrip, List.getElem?_append_left hLong]
      exact absurd (hSame.symm.trans h) hOther

theorem regionKb_of_fifth {text : List Char} {c : Char} (h : text[4]? = some c) (start : String)
    (hLong : 4 < start.toList.length) (hOther : start.toList[4]? ≠ some c) :
    regionKb start text = none := by
  rw [regionKb, stripPrefix_of_fifth h start.toList hLong hOther]
  rfl

/-- Each field looks for its own kind of line. -/
theorem readLine_eq (s : Fdinfo) (line : List Char) :
    s.readLine line =
      { clientId := ((stripPrefix "drm-client-id:".toList line).map trim).or s.clientId
        residentKb :=
          ((regionKb "drm-resident-" line).map s.residentKb.saturatingAdd).getD s.residentKb
        sharedKb := ((regionKb "drm-shared-" line).map s.sharedKb.saturatingAdd).getD s.sharedKb
        totalKb := ((regionKb "drm-total-" line).map s.totalKb.saturatingAdd).getD s.totalKb
        purgeableKb :=
          ((regionKb "drm-purgeable-" line).map s.purgeableKb.saturatingAdd).getD s.purgeableKb
        hasDrm := s.hasDrm || (regionKb "drm-resident-" line).isSome } := by
  unfold Fdinfo.readLine
  cases hId : stripPrefix "drm-client-id:".toList line with
  | some v =>
      have hFifth := fifth_of_stripPrefix (c := 'c') (by decide) rfl hId
      simp [regionKb_of_fifth hFifth "drm-resident-" (by decide) (by decide),
        regionKb_of_fifth hFifth "drm-shared-" (by decide) (by decide),
        regionKb_of_fifth hFifth "drm-total-" (by decide) (by decide),
        regionKb_of_fifth hFifth "drm-purgeable-" (by decide) (by decide)]
  | none =>
      cases hResident : regionKb "drm-resident-" line with
      | some kb =>
          have hFifth := fifth_of_regionKb (c := 'r') (by decide) rfl hResident
          simp [regionKb_of_fifth hFifth "drm-shared-" (by decide) (by decide),
            regionKb_of_fifth hFifth "drm-total-" (by decide) (by decide),
            regionKb_of_fifth hFifth "drm-purgeable-" (by decide) (by decide)]
      | none =>
          cases hShared : regionKb "drm-shared-" line with
          | some kb =>
              have hFifth := fifth_of_regionKb (c := 's') (by decide) rfl hShared
              simp [regionKb_of_fifth hFifth "drm-total-" (by decide) (by decide),
                regionKb_of_fifth hFifth "drm-purgeable-" (by decide) (by decide)]
          | none =>
              cases hTotal : regionKb "drm-total-" line with
              | some kb =>
                  have hFifth := fifth_of_regionKb (c := 't') (by decide) rfl hTotal
                  simp [regionKb_of_fifth hFifth "drm-purgeable-" (by decide) (by decide)]
              | none => cases regionKb "drm-purgeable-" line <;> simp

/-- A figure that each line adds its region to is the sum over the lines. -/
theorem foldl_region {figure : Fdinfo → Kb} {start : String}
    (hStart : figure Fdinfo.start = Kb.clamp 0)
    (hLine : ∀ s line, figure (s.readLine line) =
      ((regionKb start line).map (figure s).saturatingAdd).getD (figure s))
    (content : List Char) :
    figure (parseFdinfo content) = Kb.clamp (regionSum start content) := by
  unfold parseFdinfo regionSum
  induction lines content using List.reverseRecOn with
  | nil => exact hStart
  | append_singleton ls line ih =>
      rw [List.foldl_append, List.foldl_cons, List.foldl_nil, hLine, ih, List.filterMap_append]
      cases hRegion : regionKb start line with
      | none =>
          rw [List.filterMap_cons_none hRegion, List.filterMap_nil, List.append_nil]
          rfl
      | some kb =>
          rw [List.filterMap_cons_some hRegion, List.filterMap_nil, List.map_append,
            List.sum_append, List.map_singleton, List.sum_singleton]
          exact clamp_saturatingAdd _ kb

theorem parseFdinfo_clientId (content : List Char) :
    (parseFdinfo content).clientId =
      ((lines content).filterMap (stripPrefix "drm-client-id:".toList)).getLast?.map trim := by
  unfold parseFdinfo
  induction lines content using List.reverseRecOn with
  | nil => rfl
  | append_singleton ls line ih =>
      rw [List.foldl_append, List.foldl_cons, List.foldl_nil, readLine_eq, ih,
        List.filterMap_append]
      cases hStrip : stripPrefix "drm-client-id:".toList line with
      | none =>
          rw [List.filterMap_cons_none hStrip, List.filterMap_nil, List.append_nil]
          rfl
      | some v =>
          rw [List.filterMap_cons_some hStrip, List.filterMap_nil, List.getLast?_concat]
          rfl

theorem parseFdinfo_hasDrm (content : List Char) :
    (parseFdinfo content).hasDrm =
      (lines content).any fun line => (regionKb "drm-resident-" line).isSome := by
  unfold parseFdinfo
  induction lines content using List.reverseRecOn with
  | nil => rfl
  | append_singleton ls line ih =>
      rw [List.foldl_append, List.foldl_cons, List.foldl_nil, readLine_eq, ih, List.any_append,
        List.any_cons, List.any_nil, Bool.or_false]

theorem parseFdinfo_stats (content : List Char) :
    (⟨(parseFdinfo content).residentKb, (parseFdinfo content).sharedKb,
      (parseFdinfo content).totalKb, (parseFdinfo content).purgeableKb⟩ : SingleProcessGpuMemory) =
      (usage content).saturate := by
  have hRegion (f : Fdinfo → Kb) (start : String) := @foldl_region f start
  rw [hRegion Fdinfo.residentKb _ rfl (fun s line => by rw [readLine_eq]) content,
    hRegion Fdinfo.sharedKb _ rfl (fun s line => by rw [readLine_eq]) content,
    hRegion Fdinfo.totalKb _ rfl (fun s line => by rw [readLine_eq]) content,
    hRegion Fdinfo.purgeableKb _ rfl (fun s line => by rw [readLine_eq]) content]
  rfl

/-- A descriptor gives the figures of its client, saturated. -/
theorem readFd_eq (fd : Fd) : readFd fd = fd.report.map fun r => (r.1, r.2.saturate) := by
  unfold readFd Fd.report
  split
  · cases fd.fdinfo with
    | none => rfl
    | some content =>
        dsimp only [Option.bind_some]
        rw [parseFdinfo_hasDrm, parseFdinfo_clientId, parseFdinfo_stats]
        split <;> rfl
  · rfl

/-! ## The process, in one go -/

/-- A map that only gets entries that agree holds each of them once. -/
theorem values_insertAll_perm {α β γ : Type} [DecidableEq α] [DecidableEq β] (f : β → γ)
    {xs : List (α × β)} (h : ∀ x ∈ xs, ∀ y ∈ xs, x.1 = y.1 → x.2 = y.2) :
    (values (insertAll Prod.fst (fun x => f x.2) (∅ : Map α γ) xs)).Perm
      (xs.dedup.map fun x => f x.2) := by
  have hEntries : ((insertAll Prod.fst (fun x => f x.2) (∅ : Map α γ) xs).entries.map
      fun e => (e.1, e.2)).Perm (xs.dedup.map fun x => (x.1, f x.2)) := by
    refine (List.perm_ext_iff_of_nodup ?_ ?_).mpr fun x => ?_
    · refine List.Nodup.map ?_
        (insertAll Prod.fst (fun x => f x.2) (∅ : Map α γ) xs).nodupKeys.nodup
      intro e e' hSame
      cases e
      cases e'
      simpa using hSame
    · refine List.Nodup.map_on ?_ (List.nodup_dedup xs)
      intro x hx y hy hSame
      rw [List.mem_dedup] at hx hy
      have hKey : x.1 = y.1 := (Prod.mk.inj hSame).1
      exact Prod.ext hKey (h x hx y hy hKey)
    · have hMem : x ∈ (insertAll Prod.fst (fun x => f x.2) (∅ : Map α γ) xs).entries.map
          (fun e => (e.1, e.2)) ↔
            (insertAll Prod.fst (fun x => f x.2) (∅ : Map α γ) xs).lookup x.1 = some x.2 := by
        rw [lookup_eq_some_iff, List.mem_map]
        constructor
        · rintro ⟨e, he, rfl⟩
          exact he
        · exact fun hx => ⟨_, hx, rfl⟩
      rw [hMem, List.mem_map]
      constructor
      · intro hLookup
        cases insertAll_origin hLookup with
        | inl hBefore => cases hBefore
        | inr hMade =>
            obtain ⟨y, hy, hKey, hVal⟩ := hMade
            exact ⟨y, List.mem_dedup.mpr hy, Prod.ext hKey hVal⟩
      · rintro ⟨y, hy, rfl⟩
        rw [List.mem_dedup] at hy
        obtain ⟨z, hz, hKey, hLookup⟩ : ∃ z ∈ xs, z.1 = y.1 ∧ (insertAll Prod.fst
            (fun x => f x.2) (∅ : Map α γ) xs).lookup y.1 = some (f z.2) :=
          insertAll_of_mem hy ∅
        rw [hLookup, h z hz y hy hKey]
  have hValues := hEntries.map Prod.snd
  rw [List.map_map, List.map_map] at hValues
  exact hValues

/-- A saturating sum of saturated figures saturates once. -/
theorem sum_clamp (ns : List Nat) : Kb.sum (ns.map Kb.clamp) = Kb.clamp ns.sum := by
  have hVal : (Kb.sum (ns.map Kb.clamp)).val = min ns.sum u64Max := by
    rw [Kb.sum_val]
    induction ns with
    | nil => rfl
    | cons n ns ih =>
        simp only [List.map_cons, List.sum_cons, Kb.clamp] at ih ⊢
        omega
  cases hSum : Kb.sum (ns.map Kb.clamp) with
  | mk val hMax =>
      rw [hSum] at hVal
      simp only [Kb.clamp, Kb.mk.injEq]
      exact hVal

theorem addStats_perm {stats stats' : List SingleProcessGpuMemory} (h : stats.Perm stats') :
    addStats stats = addStats stats' := by
  have hSum : ∀ figure : SingleProcessGpuMemory → Kb,
      Kb.sum (stats.map figure) = Kb.sum (stats'.map figure) := by
    intro figure
    have hVal : (Kb.sum (stats.map figure)).val = (Kb.sum (stats'.map figure)).val := by
      rw [Kb.sum_val, Kb.sum_val, ((h.map figure).map Kb.val).sum_eq]
    cases hLeft : Kb.sum (stats.map figure)
    cases hRight : Kb.sum (stats'.map figure)
    rw [hLeft, hRight] at hVal
    simpa using hVal
  unfold addStats
  rw [hSum, hSum, hSum, hSum]

theorem addStats_saturate (us : List Usage) :
    addStats (us.map Usage.saturate) =
      (⟨(us.map Usage.resident).sum, (us.map Usage.shared).sum, (us.map Usage.total).sum,
        (us.map Usage.purgeable).sum⟩ : Usage).saturate := by
  unfold addStats Usage.saturate
  simp only [List.map_map, ← sum_clamp]
  rfl

/-- **The memory of a process is that of its clients.**  However the descriptors are
listed, how many belong to one client and what other files are open: the figures are
the sums over the distinct clients, saturated once, and there are none exactly when
no descriptor is a DRM client. -/
theorem stats_eq_total (fds : List Fd) (h : Agree fds) :
    getProcessGpuStats (some fds) =
      if clients fds = ∅ then none else some (totalUsage fds).saturate := by
  have hList : fds.filterMap readFd =
      (fds.filterMap Fd.report).map fun r => (r.1, r.2.saturate) := by
    rw [List.map_filterMap]
    exact List.filterMap_congr fun fd _ => readFd_eq fd
  have hAgree : ∀ x ∈ fds.filterMap Fd.report, ∀ y ∈ fds.filterMap Fd.report,
      x.1 = y.1 → x.2 = y.2 := fun x hx y hy =>
    h x (List.mem_toFinset.mpr hx) y (List.mem_toFinset.mpr hy)
  have hInsert : insertAll Prod.fst Prod.snd (∅ : Map (List Char) SingleProcessGpuMemory)
      ((fds.filterMap Fd.report).map fun r => (r.1, r.2.saturate)) =
        insertAll Prod.fst (fun r => r.2.saturate) ∅ (fds.filterMap Fd.report) := by
    unfold insertAll
    rw [List.foldl_map]
  have hSums : ∀ figure : Usage → Nat,
      (((fds.filterMap Fd.report).dedup.map Prod.snd).map figure).sum =
        ∑ r ∈ clients fds, figure r.2 := by
    intro figure
    have hDedup : clients fds = (fds.filterMap Fd.report).dedup.toFinset := by
      ext r
      rw [clients, List.mem_toFinset, List.mem_toFinset, List.mem_dedup]
    rw [hDedup, List.sum_toFinset _ (List.nodup_dedup _), List.map_map]
    rfl
  have hValues := addStats_perm (values_insertAll_perm Usage.saturate hAgree)
  have hTotal : addStats ((fds.filterMap Fd.report).dedup.map fun r => r.2.saturate) =
      (totalUsage fds).saturate := by
    have hMap : ((fds.filterMap Fd.report).dedup.map fun r => r.2.saturate) =
        ((fds.filterMap Fd.report).dedup.map Prod.snd).map Usage.saturate := by
      rw [List.map_map]
      rfl
    rw [hMap, addStats_saturate, hSums, hSums, hSums, hSums]
    rfl
  unfold getProcessGpuStats
  dsimp only [Option.bind_some]
  rw [hList, hInsert, hValues, hTotal]
  refine if_congr ?_ rfl rfl
  rw [List.isEmpty_iff, List.map_eq_nil_iff, clients, List.toFinset_eq_empty_iff]

end Mgd.GpuFdinfo
