import Mgd.FreezeCrash
import Mgd.Lib.JsonFile
import Mgd.Lib.JsonNumbers
import Mgd.ShutdownLedger

/-!
# State files

`frozen.json` and `checkpoint.json` of `registry.rs` and `spike_victims.json` of
`spike_mode.rs`, with the bytes `write_file_atomic` leaves, which are the text of
what was saved, or the beginning of it.  A start reads back what the last
complete save wrote, or nothing.

`run_models` runs the daemon of `ShutdownLedger` on bytes.
-/

namespace Mgd.StateFiles

open Mgd.Types Mgd.Lib.AssocMap Mgd.Lib.JsonFile Mgd.Lib.Serde
open Mgd.Lib (StateFile)
open Mgd.Lib.Json (Value Floats Fits FitItems FitMembers natural natural_toString)
open Mgd.Lib.JsonNumbers (wholeNumbers)
open Mgd.Executor.Registry

universe u v

/-! ## Ledgers by PID -/

section Ledgers

variable {F : Type u} {ε : Type v}

/-- An integer key of an object. -/
def readKey (key : String) : Option Pid :=
  ((natural key.toList).filter fun n => decide (n < 2 ^ 32)).map fun n => ⟨UInt32.ofNat n⟩

def writeKey (pid : Pid) : String := toString pid.val.toNat

def writeEntries (write : ε → Value F) (entries : List (Pid × ε)) : List (String × Value F) :=
  entries.map fun e => (writeKey e.1, write e.2)

def readEntries (read : Value F → Option ε) : List (String × Value F) → Option (List (Pid × ε))
  | [] => some []
  | (key, v) :: rest =>
      (readKey key).bind fun pid =>
        (read v).bind fun e => (readEntries read rest).map fun more => (pid, e) :: more

/-- How an entry is written. -/
structure EntryFormat (floats : Floats F) (ε : Type v) where
  write : ε → Value F
  read : Value F → Option ε
  /-- the numbers are words of their types -/
  Valid : ε → Prop
  fits : ∀ {e}, Valid e → Fits floats 125 (write e)
  read_write : ∀ {e}, Valid e → read (write e) = some e

theorem readKey_writeKey (pid : Pid) : readKey (writeKey pid) = some pid := by
  have hLt := pid.val.toNat_lt
  rw [readKey, writeKey, natural_toString, Option.filter_some,
    if_pos (decide_eq_true (by omega)), Option.map_some, UInt32.ofNat_toNat]

variable {floats : Floats F} (format : EntryFormat floats ε)

theorem readEntries_writeEntries {entries : List (Pid × ε)} (h : ∀ e ∈ entries, format.Valid e.2) :
    readEntries format.read (writeEntries format.write entries) = some entries := by
  induction entries with
  | nil => rfl
  | cons e entries ih =>
      rw [List.forall_mem_cons] at h
      show (readKey (writeKey e.1)).bind _ = _
      rw [readKey_writeKey, Option.bind_some, format.read_write h.1, Option.bind_some]
      show (readEntries format.read (writeEntries format.write entries)).map _ = _
      rw [ih h.2]
      rfl

theorem fits_writeEntries {entries : List (Pid × ε)} (h : ∀ e ∈ entries, format.Valid e.2) :
    FitMembers floats 125 (writeEntries format.write entries) := by
  induction entries with
  | nil => exact trivial
  | cons e entries ih =>
      rw [List.forall_mem_cons] at h
      rw [writeEntries, List.map_cons, FitMembers]
      exact ⟨format.fits h.1, ih h.2⟩

/-- A struct with one map. -/
def ledgerCodec (name : String) : Codec floats (List (Pid × ε)) where
  encode entries := .obj [(name, .obj (writeEntries format.write entries))]
  decode v :=
    (readMembers v).bind fun members =>
      required (fun w => (readMembers w).bind (readEntries format.read)) name members
  Sendable entries := ∀ e ∈ entries, format.Valid e.2
  fits := by
    intro entries h
    rw [Fits, FitMembers, Fits]
    exact ⟨by decide, ⟨by decide, fits_writeEntries format h⟩, trivial⟩
  isGroup := fun _ => trivial
  decode_encode := by
    intro entries h
    show required _ name [(name, Value.obj _)] = _
    rw [required_single]
    exact readEntries_writeEntries format h

/-- The entries in any order. -/
def ledgerLayout (name : String) : Layout (ledgerCodec format name) (Map Pid ε) where
  Lists m entries :=
    (∀ pid e, (pid, e) ∈ entries ↔ m.lookup pid = some e) ∧ ∀ e ∈ entries, format.Valid e.2
  rebuild entries := insertAll Prod.fst Prod.snd ∅ entries
  Same m m' := ∀ pid, m.lookup pid = m'.lookup pid
  same_refl := fun _ _ => rfl
  sendable := fun h => h.2
  same_rebuild := by
    intro m entries h pid
    show (insertAll Prod.fst Prod.snd ∅ entries).lookup pid = m.lookup pid
    cases hEntry : m.lookup pid with
    | some e =>
        obtain ⟨x, hx, hKey, hLookup⟩ : ∃ x ∈ entries, x.1 = pid ∧
            (insertAll Prod.fst Prod.snd ∅ entries).lookup pid = some x.2 :=
          insertAll_of_mem ((h.1 pid e).mpr hEntry) ∅
        have hSame := (h.1 pid x.2).mp (by rw [← hKey]; exact hx)
        exact hLookup.trans (hSame.symm.trans hEntry)
    | none =>
        rw [← Option.not_isSome_iff_eq_none]
        intro hSome
        obtain ⟨e, hLookup⟩ := Option.isSome_iff_exists.mp hSome
        rcases insertAll_origin hLookup with hEmpty | ⟨x, hx, rfl, rfl⟩
        · cases hEmpty
        · rw [(h.1 x.1 x.2).mp hx] at hEntry
          cases hEntry

end Ledgers

/-! ## The registries -/

section Registries

variable {F : Type u} {floats : Floats F}

/-- `(name, frozen_at, start_time)` -/
def frozenFormat (floats : Floats F) : EntryFormat floats FrozenEntry where
  write e := .arr [.str e.name, .nat e.frozenAt, .nat e.startTime]
  read
    | .arr [name, frozenAt, startTime] =>
        (readText name).bind fun name =>
          (readWord u64Max frozenAt).bind fun frozenAt =>
            (readWord u64Max startTime).map fun startTime => ⟨name, frozenAt, startTime⟩
    | _ => none
  Valid e := e.frozenAt ≤ u64Max ∧ e.startTime ≤ u64Max
  fits := by
    intro e h
    unfold u64Max at h
    simp only [Fits, FitItems, true_and, and_true]
    omega
  read_write := by
    intro e h
    show (readWord u64Max (Value.nat e.frozenAt)).bind _ = _
    rw [readWord, if_pos h.1, Option.bind_some, readWord, if_pos h.2]
    rfl

/-- `(name, snapshot_dir, rss, attempts)` -/
def checkpointFormat (floats : Floats F) : EntryFormat floats CheckpointEntry where
  write e := .arr [.str e.name, .str e.snapshotDir, .nat e.rss.val, .nat e.attempts]
  read
    | .arr [name, snapshotDir, rss, attempts] =>
        (readText name).bind fun name =>
          (readText snapshotDir).bind fun snapshotDir =>
            (readWord u64Max rss).bind fun rss =>
              (readWord (2 ^ 32 - 1) attempts).map fun attempts =>
                ⟨name, snapshotDir, Kb.clamp rss, attempts⟩
    | _ => none
  Valid e := e.attempts ≤ 2 ^ 32 - 1
  fits := by
    intro e h
    have hRss := e.rss.le_max
    unfold u64Max at hRss
    simp only [Fits, FitItems, true_and, and_true]
    omega
  read_write := by
    intro e h
    obtain ⟨name, snapshotDir, ⟨rss, hRss⟩, attempts⟩ := e
    have hClamp : Kb.clamp rss = ⟨rss, hRss⟩ := by
      unfold Kb.clamp
      congr
      exact Nat.min_eq_left hRss
    show (readWord u64Max (Value.nat rss)).bind _ = _
    rw [readWord, if_pos hRss, Option.bind_some, readWord, if_pos h, Option.map_some, hClamp]

abbrev frozenCodec (floats : Floats F) : Codec floats (List (Pid × FrozenEntry)) :=
  ledgerCodec (frozenFormat floats) "frozen"

example :
    (frozenCodec wholeNumbers).toText [(⟨1234⟩, ⟨"firefox", 1751700000, 54321⟩)] =
      "\x7b\"frozen\":\x7b\"1234\":[\"firefox\",1751700000,54321]\x7d\x7d".toList := by
  rewrite [String.toList_ofList]
  decide +kernel

def frozenLayout (floats : Floats F) : Layout (frozenCodec floats) FrozenRegistry where
  Lists reg := (ledgerLayout (frozenFormat floats) "frozen").Lists reg.frozen
  rebuild entries := ⟨(ledgerLayout (frozenFormat floats) "frozen").rebuild entries⟩
  Same reg reg' := ∀ pid, reg.frozen.lookup pid = reg'.frozen.lookup pid
  same_refl := fun _ _ => rfl
  sendable := (ledgerLayout (frozenFormat floats) "frozen").sendable
  same_rebuild := (ledgerLayout (frozenFormat floats) "frozen").same_rebuild

end Registries

/-! ## The daemon on bytes -/

section Daemon

open Mgd.ShutdownLedger Mgd.Lib.Run

variable {F : Type u} (floats : Floats F)

structure ByteDaemon where
  /-- the bytes of `frozen.json` -/
  file : Option Bytes
  registry : FrozenRegistry
  procs : ProcTable

/-- The order in which the hash map yields its entries. -/
abbrev Order := List (Pid × FrozenEntry) → List (Pid × FrozenEntry)

def listing (reg : FrozenRegistry) (order : Order) : List (Pid × FrozenEntry) :=
  order (reg.frozen.entries.map fun e => (e.1, e.2))

inductive ByteMove
  | add (pid : Pid) (name : String) (now : Nat) (order : Order) (ending : Ending)
  | remove (pid : Pid) (order : Order) (ending : Ending)
  | setProcess (pid : Pid) (p : Option ProcState)
  /-- The daemon is killed and started again. -/
  | restart

def byteSave (d : ByteDaemon) (reg : FrozenRegistry) (order : Order) (ending : Ending) :
    ByteDaemon :=
  { d with registry := reg, file := write (frozenCodec floats) d.file (listing reg order) ending }

def byteStep (d : ByteDaemon) : ByteMove → ByteDaemon
  | .add pid name now order ending =>
      let added := d.registry.add d.procs.startTime now pid name
      if added.2 then byteSave floats d added.1 order ending else d
  | .remove pid order ending =>
      if d.registry.isFrozen pid then byteSave floats d (d.registry.remove pid) order ending else d
  | .setProcess pid p => { d with procs := Function.update d.procs pid p }
  | .restart => { d with registry := Mgd.Lib.JsonFile.load (frozenLayout floats) .new d.file }

inductive LedgerMove
  | daemon (m : Move)
  | restart

/-- The daemon of `ShutdownLedger`, killed now and then. -/
def ledgerStep (d : Daemon) : LedgerMove → Daemon
  | .daemon m => step d m
  | .restart => Daemon.initializeState d.file d.procs

/-- The move without the bytes. -/
def ByteMove.ledger (d : ByteDaemon) : ByteMove → LedgerMove
  | .add pid name now order ending =>
      .daemon (.add pid name now (ending.result (frozenCodec floats)
        (listing (d.registry.add d.procs.startTime now pid name).1 order)))
  | .remove pid order ending =>
      .daemon (.remove pid (ending.result (frozenCodec floats)
        (listing (d.registry.remove pid) order)))
  | .setProcess pid p => .daemon (.setProcess pid p)
  | .restart => .restart

def ledgerMoves : ByteDaemon → List ByteMove → List LedgerMove
  | _, [] => []
  | d, m :: rest => m.ledger floats d :: ledgerMoves (byteStep floats d m) rest

/-- The hash map yields each entry once, and times are 64-bit words. -/
def ByteMove.Valid : ByteMove → Prop
  | .add _ _ now order _ => now ≤ u64Max ∧ ∀ entries, (order entries).Perm entries
  | .remove _ order _ => ∀ entries, (order entries).Perm entries
  | .setProcess _ p => ∀ q ∈ p, q.startTime ≤ u64Max
  | .restart => True

/-- The same processes, the same entries, and a file that holds what the state says. -/
structure Refines (b : ByteDaemon) (d : Daemon) : Prop where
  procs : b.procs = d.procs
  registry : ∀ pid, b.registry.frozen.lookup pid = d.registry.frozen.lookup pid
  file : Models (frozenLayout floats) b.file d.file
  words : ∀ pid e, b.registry.frozen.lookup pid = some e → (frozenFormat floats).Valid e
  times : ∀ pid q, b.procs pid = some q → q.startTime ≤ u64Max

variable {floats}

/-- What the hash map yields lists every registry with these entries. -/
theorem lists_listing {reg reg' : FrozenRegistry} {order : Order}
    (hOrder : ∀ entries, (order entries).Perm entries)
    (hSame : ∀ pid, reg.frozen.lookup pid = reg'.frozen.lookup pid)
    (hWords : ∀ pid e, reg.frozen.lookup pid = some e → (frozenFormat floats).Valid e) :
    (frozenLayout floats).Lists reg' (listing reg order) := by
  have hMem : ∀ pid e, (pid, e) ∈ listing reg order ↔ reg.frozen.lookup pid = some e := by
    intro pid e
    rw [listing, (hOrder _).mem_iff, List.mem_map, lookup_eq_some_iff]
    constructor
    · rintro ⟨⟨pid', e'⟩, hEntry, hEq⟩
      cases hEq
      exact hEntry
    · exact fun hEntry => ⟨⟨pid, e⟩, hEntry, rfl⟩
  constructor
  · intro pid e
    rw [hMem, hSame]
  · intro x hx
    exact hWords x.1 x.2 ((hMem x.1 x.2).mp hx)

section Steps

variable {b : ByteDaemon} {d : Daemon}

theorem Refines.save (h : Refines floats b d) {reg reg' : FrozenRegistry} {order : Order}
    (hOrder : ∀ entries, (order entries).Perm entries)
    (hSame : ∀ pid, reg.frozen.lookup pid = reg'.frozen.lookup pid)
    (hWords : ∀ pid e, reg.frozen.lookup pid = some e → (frozenFormat floats).Valid e)
    (ending : Ending) :
    Refines floats (byteSave floats b reg order ending)
      { d with
        registry := reg'
        file := d.file.write reg' (ending.result (frozenCodec floats) (listing reg order)) } where
  procs := h.procs
  registry := hSame
  file := models_write h.file (lists_listing hOrder hSame hWords) ending
  words := hWords
  times := h.times

theorem refines_add (h : Refines floats b d) {now : Nat} (hNow : now ≤ u64Max) {order : Order}
    (hOrder : ∀ entries, (order entries).Perm entries) (pid : Pid) (name : String)
    (ending : Ending) :
    Refines floats (byteStep floats b (.add pid name now order ending))
      (ledgerStep d ((ByteMove.add pid name now order ending).ledger floats b)) := by
  show Refines floats
    (if (b.registry.add b.procs.startTime now pid name).2 then _ else b)
    (if (d.registry.add d.procs.startTime now pid name).2 then _ else d)
  rw [FrozenRegistry.add_success, FrozenRegistry.add_success, h.procs]
  cases hStart : d.procs.startTime pid with
  | none => exact h
  | some st =>
      have hTime : st ≤ u64Max := by
        obtain ⟨q, hq, hEq⟩ := Option.map_eq_some_iff.mp hStart
        rw [← hEq]
        exact h.times pid q (by rw [h.procs]; exact hq)
      refine h.save hOrder ?_ ?_ ending
      · intro pid'
        rw [FrozenRegistry.lookup_add hStart, FrozenRegistry.lookup_add hStart, h.registry]
      · intro pid' e hEntry
        rw [FrozenRegistry.lookup_add hStart] at hEntry
        split at hEntry
        · cases hEntry
          exact ⟨hNow, hTime⟩
        · exact h.words pid' e hEntry

theorem refines_remove (h : Refines floats b d) {order : Order}
    (hOrder : ∀ entries, (order entries).Perm entries) (pid : Pid) (ending : Ending) :
    Refines floats (byteStep floats b (.remove pid order ending))
      (ledgerStep d ((ByteMove.remove pid order ending).ledger floats b)) := by
  have hFrozen : b.registry.isFrozen pid = d.registry.isFrozen pid := by
    rw [FrozenRegistry.isFrozen, h.registry, FrozenRegistry.isFrozen]
  show Refines floats (if b.registry.isFrozen pid then _ else b)
    (if d.registry.isFrozen pid then _ else d)
  rw [hFrozen]
  split
  · refine h.save hOrder ?_ ?_ ending
    · intro pid'
      rw [FrozenRegistry.lookup_remove, FrozenRegistry.lookup_remove, h.registry]
    · intro pid' e hEntry
      rw [FrozenRegistry.lookup_remove] at hEntry
      split at hEntry
      · cases hEntry
      · exact h.words pid' e hEntry
  · exact h

/-- What is read back has the numbers of a file. -/
theorem words_of_models {file : Option Bytes} {state : StateFile FrozenRegistry}
    (h : Models (frozenLayout floats) file state) {pid : Pid} {e : FrozenEntry}
    (hEntry : (state.read .new).frozen.lookup pid = some e) : (frozenFormat floats).Valid e := by
  cases state with
  | absent => cases hEntry
  | torn => cases hEntry
  | whole reg =>
      obtain ⟨entries, hLists, -⟩ := h
      exact hLists.2 (pid, e) ((hLists.1 pid e).mpr hEntry)

theorem refines_restart (h : Refines floats b d) :
    Refines floats (byteStep floats b .restart) (ledgerStep d .restart) where
  procs := h.procs
  registry := loaded_of_models h.file .new
  file := h.file
  words := fun pid _ hEntry =>
    words_of_models h.file ((loaded_of_models h.file .new pid).symm.trans hEntry)
  times := h.times

theorem refines_setProcess (h : Refines floats b d) (pid : Pid) {p : Option ProcState}
    (hTimes : ∀ q ∈ p, q.startTime ≤ u64Max) :
    Refines floats (byteStep floats b (.setProcess pid p))
      (ledgerStep d (.daemon (.setProcess pid p))) where
  procs := by
    show Function.update b.procs pid p = Function.update d.procs pid p
    rw [h.procs]
  registry := h.registry
  file := h.file
  words := h.words
  times := by
    intro pid' q hq
    by_cases hPid : pid' = pid
    · subst hPid
      have hSelf : Function.update b.procs pid' p pid' = some q := hq
      rw [Function.update_self] at hSelf
      exact hTimes q hSelf
    · have hOther : Function.update b.procs pid p pid' = some q := hq
      rw [Function.update_of_ne hPid] at hOther
      exact h.times pid' q hOther

theorem refines_step (h : Refines floats b d) {m : ByteMove} (hm : m.Valid) :
    Refines floats (byteStep floats b m) (ledgerStep d (m.ledger floats b)) := by
  cases m with
  | add pid name now order ending => exact refines_add h hm.1 hm.2 pid name ending
  | remove pid order ending => exact refines_remove h hm pid ending
  | setProcess pid p => exact refines_setProcess h pid hm
  | restart => exact refines_restart h

end Steps

theorem refines_run {b : ByteDaemon} {d : Daemon} (h : Refines floats b d)
    {moves : List ByteMove} (hMoves : ∀ m ∈ moves, m.Valid) :
    Refines floats (run (byteStep floats) b moves)
      (run ledgerStep d (ledgerMoves floats b moves)) := by
  induction moves generalizing b d with
  | nil => exact h
  | cons m moves ih =>
      rw [List.forall_mem_cons] at hMoves
      exact ih (refines_step h hMoves.1) hMoves.2

/-- The start of a daemon without a file. -/
def firstStart (procs : ProcTable) : ByteDaemon := ⟨none, .new, procs⟩

/-- **The file on disk is the file of the ledger.**  Through every run of the daemon,
killed at any moment and with every write cut short anywhere, it has the entries, and a
start would read back those, of the daemon that keeps the registry itself in its file. -/
theorem run_models {procs : ProcTable}
    (hTimes : ∀ pid q, procs pid = some q → q.startTime ≤ u64Max) {moves : List ByteMove}
    (hMoves : ∀ m ∈ moves, m.Valid) (pid : Pid) :
    let b := run (byteStep floats) (firstStart procs) moves
    let d := run ledgerStep (Daemon.initializeState .absent procs)
      (ledgerMoves floats (firstStart procs) moves)
    b.procs = d.procs ∧ b.registry.frozen.lookup pid = d.registry.frozen.lookup pid ∧
      (Mgd.Lib.JsonFile.load (frozenLayout floats) .new b.file).frozen.lookup pid =
        (load d.file).frozen.lookup pid := by
  have hStart : Refines floats (firstStart procs) (Daemon.initializeState .absent procs) :=
    ⟨rfl, fun _ => rfl, rfl, fun _ _ hEntry => (nomatch hEntry), hTimes⟩
  have hRun := refines_run hStart hMoves
  exact ⟨hRun.procs, hRun.registry pid, loaded_of_models hRun.file .new pid⟩

/-- Firefox is frozen and recorded, and the write that would remove it is cut short. -/
def firefoxMoves : List ByteMove :=
  [.add ⟨1234⟩ "firefox" 1751700000 id .written, .remove ⟨1234⟩ id (.cutShort 5), .restart]

theorem run_models_firefox :
    let procs : ProcTable := fun _ => some ⟨54321, true⟩
    let b := run (byteStep wholeNumbers) (firstStart procs) firefoxMoves
    let d := run ledgerStep (Daemon.initializeState .absent procs)
      (ledgerMoves wholeNumbers (firstStart procs) firefoxMoves)
    b.procs = d.procs ∧ b.registry.frozen.lookup ⟨1234⟩ = d.registry.frozen.lookup ⟨1234⟩ ∧
      (Mgd.Lib.JsonFile.load (frozenLayout wholeNumbers) .new b.file).frozen.lookup ⟨1234⟩ =
        (load d.file).frozen.lookup ⟨1234⟩ := by
  have hTimes : ∀ (pid : Pid) (q : ProcState), some ⟨54321, true⟩ = some q →
      q.startTime ≤ u64Max := by
    intro pid q hq
    cases hq
    decide
  have hMoves : ∀ m ∈ firefoxMoves, m.Valid :=
    List.forall_mem_cons.mpr ⟨⟨by decide, fun _ => .rfl⟩,
      List.forall_mem_cons.mpr ⟨fun _ => .rfl, List.forall_mem_singleton.mpr trivial⟩⟩
  exact run_models hTimes hMoves ⟨1234⟩

end Daemon

/-! ## The snapshots of `checkpoint.json` -/

section Checkpoints

variable {F : Type u} (floats : Floats F)

abbrev checkpointCodec : Codec floats (List (Pid × CheckpointEntry)) :=
  ledgerCodec (checkpointFormat floats) "checkpointed"

def checkpointLayout : Layout (checkpointCodec floats) CheckpointRegistry where
  Lists reg := (ledgerLayout (checkpointFormat floats) "checkpointed").Lists reg.checkpointed
  rebuild entries := ⟨(ledgerLayout (checkpointFormat floats) "checkpointed").rebuild entries⟩
  Same reg reg' := ∀ pid, reg.checkpointed.lookup pid = reg'.checkpointed.lookup pid
  same_refl := fun _ _ => rfl
  sendable := (ledgerLayout (checkpointFormat floats) "checkpointed").sendable
  same_rebuild := (ledgerLayout (checkpointFormat floats) "checkpointed").same_rebuild

variable {floats}

/-- After any saves, however each ends, a start lists the snapshots of the last complete
one, or none when the last one that opened the file was cut short. -/
theorem checkpoint_file {saves : List (Save CheckpointRegistry (List (Pid × CheckpointEntry)))}
    (hSaves : ∀ s ∈ saves, (checkpointLayout floats).Lists s.value s.listing) (pid : Pid) :
    (Mgd.Lib.JsonFile.load (checkpointLayout floats) .new
        (saveAll (checkpointCodec floats) none saves)).checkpointed.lookup pid =
      ((stateAfter (checkpointCodec floats) .absent saves).read .new).checkpointed.lookup pid :=
  loaded_of_models (models_saveAll (models_absent (checkpointLayout floats)) hSaves) .new pid

end Checkpoints

/-! ## The victims of `spike_victims.json` -/

section Victims

open Mgd.FreezeCrash

variable {F : Type u}

/-- `json!`: the members in the order of their names. -/
def writeVictim (v : VictimRecord) : Value F :=
  .obj [("name", .str v.name), ("pid", .nat v.pid.val.toNat), ("start_time", .nat v.startTime)]

/-- `e[key]`: the last member of the name, `null` when there is none. -/
def index (key : String) (e : Value F) : Value F :=
  match e with
  | .obj members =>
      (((members.filter fun m => m.1 == key).getLast?).map Prod.snd).getD .null
  | _ => .null

def asU64 : Value F → Option Nat
  | .nat n => some n
  | _ => none

def readVictim (e : Value F) : VictimRecord where
  pid := ⟨UInt32.ofNat ((asU64 (index "pid" e)).getD 0)⟩
  name := (readText (index "name" e)).getD "?"
  startTime := (asU64 (index "start_time" e)).getD 0

theorem readVictim_writeVictim (v : VictimRecord) :
    readVictim (writeVictim v : Value F) = v := by
  have hPid : index "pid" (writeVictim v : Value F) = .nat v.pid.val.toNat := by
    simp [index, writeVictim]
  have hName : index "name" (writeVictim v : Value F) = .str v.name := by
    simp [index, writeVictim]
  have hStart : index "start_time" (writeVictim v : Value F) = .nat v.startTime := by
    simp [index, writeVictim]
  rw [readVictim, hPid, hName, hStart]
  show VictimRecord.mk ⟨UInt32.ofNat v.pid.val.toNat⟩ v.name v.startTime = v
  rw [UInt32.ofNat_toNat]

def victimsCodec (floats : Floats F) : Codec floats (List VictimRecord) where
  encode victims := .arr (victims.map writeVictim)
  decode := readList fun e => some (readVictim e)
  Sendable victims := ∀ v ∈ victims, v.startTime ≤ u64Max
  fits := by
    intro victims h
    rw [Fits]
    refine ⟨by decide, fitItems_map fun v hv => ?_⟩
    have hStart := h v hv
    have hPid := v.pid.val.toNat_lt
    unfold u64Max at hStart
    simp only [writeVictim, Fits, FitMembers, true_and, and_true]
    omega
  isGroup := fun _ => trivial
  decode_encode := fun _ =>
    readAll_map fun v _ => congrArg some (readVictim_writeVictim v)

/-- The victims in any order. -/
def victimsLayout (floats : Floats F) : Layout (victimsCodec floats) (List VictimRecord) where
  Lists victims listing := listing.Perm victims ∧ ∀ v ∈ listing, v.startTime ≤ u64Max
  rebuild := id
  Same := List.Perm
  same_refl := List.Perm.refl
  sendable := fun h => h.2
  same_rebuild := fun h => h.1

/-- After any saves, however each ends, a start reads back the victims of the last complete
one, or none when the last one that opened the file was cut short. -/
theorem victims_file {floats : Floats F}
    {saves : List (Save (List VictimRecord) (List VictimRecord))}
    (hSaves : ∀ s ∈ saves, (victimsLayout floats).Lists s.value s.listing) :
    (Mgd.Lib.JsonFile.load (victimsLayout floats) []
        (saveAll (victimsCodec floats) none saves)).Perm
      ((stateAfter (victimsCodec floats) .absent saves).read []) :=
  loaded_of_models (models_saveAll (models_absent (victimsLayout floats)) hSaves) []

/-- Two victims, saved in either order, and then none. -/
def twoVictims : List (Save (List VictimRecord) (List VictimRecord)) :=
  [⟨[⟨⟨42⟩, "idea", 7⟩, ⟨⟨43⟩, "code", 8⟩], [⟨⟨43⟩, "code", 8⟩, ⟨⟨42⟩, "idea", 7⟩], .written⟩,
    ⟨[], [], .unopened⟩]

theorem victims_file_two :
    (Mgd.Lib.JsonFile.load (victimsLayout wholeNumbers) []
        (saveAll (victimsCodec wholeNumbers) none twoVictims)).Perm
      ((stateAfter (victimsCodec wholeNumbers) .absent twoVictims).read []) := by
  have hSaves : ∀ s ∈ twoVictims, (victimsLayout wholeNumbers).Lists s.value s.listing := by
    refine List.forall_mem_cons.mpr ⟨⟨List.Perm.swap _ _ _, ?_⟩, List.forall_mem_singleton.mpr ?_⟩
    · exact List.forall_mem_cons.mpr ⟨by decide, List.forall_mem_singleton.mpr (by decide)⟩
    · exact ⟨.nil, fun _ hv => nomatch hv⟩
  exact victims_file hSaves

end Victims

end Mgd.StateFiles
