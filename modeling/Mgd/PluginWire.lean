import Mgd.Lib.JsonNumbers
import Mgd.Lib.Serde
import Mgd.PluginServer

/-!
# The plugin channel

The messages of `protocol.rs` as the lines of JSON that go over the socket, and
the readers at both ends: `drain_lines` of `plugin.rs` in a plugin, and in the
daemon `route_ipc_connection`, which reads the first line through a buffer of
its own, and `serve_plugin_connection`, which starts another one for the rest.

What the first buffer held beyond the first line is lost, so a plugin that says
more in its first write than `Identify` is not heard out.
-/

namespace Mgd.PluginWire

open Mgd.Types Mgd.Lib.Json Mgd.Lib.JsonNumbers Mgd.Lib.LineStream Mgd.Lib.Serde Mgd.Lib.Utf8
open Mgd.PluginServer hiding CoreMessage

/-! ## Words -/

def encodePid (pid : Pid) : Value ℚ := .nat pid.val.toNat

def decodePid (v : Value ℚ) : Option Pid :=
  (readWord (2 ^ 32 - 1) v).map fun n => ⟨UInt32.ofNat n⟩

def encodeKb (kb : Kb) : Value ℚ := .nat kb.val

def decodeKb (v : Value ℚ) : Option Kb := (readWord (2 ^ 64 - 1) v).map Kb.clamp

theorem decodePid_encodePid (pid : Pid) : decodePid (encodePid pid) = some pid := by
  have hLt := pid.val.toNat_lt
  have hMax : pid.val.toNat ≤ 2 ^ 32 - 1 := by omega
  rw [decodePid, encodePid, readWord, if_pos hMax, Option.map_some, UInt32.ofNat_toNat]

theorem decodeKb_encodeKb (kb : Kb) : decodeKb (encodeKb kb) = some kb := by
  obtain ⟨n, hMax⟩ := kb
  have hClamp : Kb.clamp n = ⟨n, hMax⟩ := by
    unfold Kb.clamp
    congr
    exact Nat.min_eq_left hMax
  show (if n ≤ u64Max then some n else none).map Kb.clamp = _
  rw [if_pos hMax, Option.map_some, hClamp]

theorem fits_pid (floats : Floats ℚ) (depth : Nat) (pid : Pid) :
    Fits floats depth (encodePid pid) := by
  rw [encodePid, Fits]
  have hLt := pid.val.toNat_lt
  omega

theorem fits_kb (floats : Floats ℚ) (depth : Nat) (kb : Kb) :
    Fits floats depth (encodeKb kb) := by
  rw [encodeKb, Fits]
  have hMax := kb.le_max
  unfold u64Max at hMax
  omega

/-! ## Messages -/

def encodeMetric : Metric → Value ℚ
  | .gpuResidentKb => .str "gpu_resident_kb"
  | .gpuSharedKb => .str "gpu_shared_kb"
  | .gpuTotalKb => .str "gpu_total_kb"
  | .gpuPurgeableKb => .str "gpu_purgeable_kb"
  | .rssKb => .str "rss_kb"
  | .custom name => .obj [("custom", .obj [("name", .str name)])]

def decodeMetric : Value ℚ → Option Metric
  | .str "gpu_resident_kb" => some .gpuResidentKb
  | .str "gpu_shared_kb" => some .gpuSharedKb
  | .str "gpu_total_kb" => some .gpuTotalKb
  | .str "gpu_purgeable_kb" => some .gpuPurgeableKb
  | .str "rss_kb" => some .rssKb
  | .obj [("custom", content)] =>
      (readMembers content).bind fun members => (required readText "name" members).map .custom
  | _ => none

def encodeAction : PluginAction → Value ℚ
  | .restartProcess name => .obj [("restart_process", .obj [("name", .str name)])]
  | .freezePid pid => .obj [("freeze_pid", .obj [("pid", encodePid pid)])]
  | .killPid pid => .obj [("kill_pid", .obj [("pid", encodePid pid)])]

def decodeAction : Value ℚ → Option PluginAction
  | .obj [(variant, content)] =>
      (readMembers content).bind fun members =>
        match variant with
        | "restart_process" => (required readText "name" members).map .restartProcess
        | "freeze_pid" => (required decodePid "pid" members).map .freezePid
        | "kill_pid" => (required decodePid "pid" members).map .killPid
        | _ => none
  | _ => none

def encodeMessage : PluginMessage → Value ℚ
  | .identify name version capabilities =>
      .obj [("type", .str "identify"), ("name", .str name), ("version", .str version),
        ("capabilities", .arr (capabilities.map .str))]
  | .observation plugin metric pid value =>
      .obj [("type", .str "observation"), ("plugin", .str plugin), ("metric", encodeMetric metric),
        ("pid", writeOption encodePid pid), ("value", .float value)]
  | .actionRequest plugin action reason =>
      .obj [("type", .str "action_request"), ("plugin", .str plugin),
        ("action", encodeAction action), ("reason", .str reason)]
  | .queryGpu pid => .obj [("type", .str "query_gpu"), ("pid", encodePid pid)]
  | .activeWindow pid =>
      .obj [("type", .str "active_window"), ("pid", writeOption encodePid pid)]

section Decode

-- an integer `as f64`
variable (asDouble : Int → ℚ)

def decodeDouble : Value ℚ → Option ℚ
  | .float x => some x
  | .nat n => some (asDouble n)
  | .neg n => some (asDouble (-n))
  | _ => none

/-- The members but the tag, under the variant it names. -/
def decodeVariant (variant : String) (members : List (String × Value ℚ)) :
    Option PluginMessage :=
  match variant with
  | "identify" =>
      (required readText "name" members).bind fun name =>
        (required readText "version" members).bind fun version =>
          (required (readList readText) "capabilities" members).map fun capabilities =>
            .identify name version capabilities
  | "observation" =>
      (required readText "plugin" members).bind fun plugin =>
        (required decodeMetric "metric" members).bind fun metric =>
          (optional decodePid "pid" members).bind fun pid =>
            (required (decodeDouble asDouble) "value" members).map fun value =>
              .observation plugin metric pid value
  | "action_request" =>
      (required readText "plugin" members).bind fun plugin =>
        (required decodeAction "action" members).bind fun action =>
          (required readText "reason" members).map fun reason =>
            .actionRequest plugin action reason
  | "query_gpu" => (required decodePid "pid" members).map .queryGpu
  | "active_window" => (optional decodePid "pid" members).map .activeWindow
  | _ => none

/-- `#[serde(tag = "type")]` -/
def decodeTagged {α : Type} (decode : String → List (String × Value ℚ) → Option α)
    (v : Value ℚ) : Option α :=
  (readMembers v).bind fun members =>
    (required readText "type" members).bind fun variant =>
      decode variant (members.filter fun m => m.1 != "type")

def decodeMessage : Value ℚ → Option PluginMessage := decodeTagged (decodeVariant asDouble)

end Decode

theorem decodeMetric_encodeMetric (metric : Metric) :
    decodeMetric (encodeMetric metric) = some metric := by
  cases metric <;> rfl

theorem decodeAction_encodeAction (action : PluginAction) :
    decodeAction (encodeAction action) = some action := by
  cases action with
  | restartProcess name => rfl
  | freezePid pid =>
      show (decodePid (encodePid pid)).map PluginAction.freezePid = _
      rw [decodePid_encodePid]
      rfl
  | killPid pid =>
      show (decodePid (encodePid pid)).map PluginAction.killPid = _
      rw [decodePid_encodePid]
      rfl

theorem decodeMessage_encodeMessage (asDouble : Int → ℚ) (m : PluginMessage) :
    decodeMessage asDouble (encodeMessage m) = some m := by
  have hPid : ∀ pid : Option Pid,
      readOption decodePid (writeOption encodePid pid) = some pid :=
    fun pid => readOption_write rfl decodePid_encodePid
  cases m with
  | identify name version capabilities =>
      show (readAll readText (capabilities.map Value.str)).map _ = _
      have hTexts : readAll readText (capabilities.map (Value.str : _ → Value ℚ)) =
          some capabilities := readAll_map fun _ _ => rfl
      rw [hTexts]
      rfl
  | observation plugin metric pid value =>
      show (decodeMetric (encodeMetric metric)).bind _ = _
      rw [decodeMetric_encodeMetric]
      show (readOption decodePid (writeOption encodePid pid)).bind _ = _
      rw [hPid]
      rfl
  | actionRequest plugin action reason =>
      show (decodeAction (encodeAction action)).bind _ = _
      rw [decodeAction_encodeAction]
      rfl
  | queryGpu pid =>
      show (decodePid (encodePid pid)).map _ = _
      rw [decodePid_encodePid]
      rfl
  | activeWindow pid =>
      show (readOption decodePid (writeOption encodePid pid)).map _ = _
      rw [hPid]
      rfl

/-! ## Messages of the core -/

/-- From the core to every plugin. -/
inductive CoreMessage
  | pressureChanged (level : String)
  | actionResponse (action : PluginAction) (approved : Bool) (reason : Option String)
  | gpuObservation (pid : Pid) (kb sharedKb totalKb purgeableKb : Kb)
  | shutdown
  | configReload

def encodeCore : CoreMessage → Value ℚ
  | .pressureChanged level => .obj [("type", .str "pressure_changed"), ("level", .str level)]
  | .actionResponse action approved reason =>
      .obj [("type", .str "action_response"), ("action", encodeAction action),
        ("approved", .bool approved), ("reason", writeOption .str reason)]
  | .gpuObservation pid kb sharedKb totalKb purgeableKb =>
      .obj [("type", .str "gpu_observation"), ("pid", encodePid pid), ("kb", encodeKb kb),
        ("shared_kb", encodeKb sharedKb), ("total_kb", encodeKb totalKb),
        ("purgeable_kb", encodeKb purgeableKb)]
  | .shutdown => .obj [("type", .str "shutdown")]
  | .configReload => .obj [("type", .str "config_reload")]

def decodeCoreVariant (variant : String) (members : List (String × Value ℚ)) :
    Option CoreMessage :=
  match variant with
  | "pressure_changed" => (required readText "level" members).map .pressureChanged
  | "action_response" =>
      (required decodeAction "action" members).bind fun action =>
        (required readBool "approved" members).bind fun approved =>
          (optional readText "reason" members).map fun reason =>
            .actionResponse action approved reason
  | "gpu_observation" =>
      (required decodePid "pid" members).bind fun pid =>
        (required decodeKb "kb" members).bind fun kb =>
          (required decodeKb "shared_kb" members).bind fun sharedKb =>
            (required decodeKb "total_kb" members).bind fun totalKb =>
              (required decodeKb "purgeable_kb" members).map fun purgeableKb =>
                .gpuObservation pid kb sharedKb totalKb purgeableKb
  | "shutdown" => some .shutdown
  | "config_reload" => some .configReload
  | _ => none

def decodeCore : Value ℚ → Option CoreMessage := decodeTagged decodeCoreVariant

theorem decodeCore_encodeCore (m : CoreMessage) : decodeCore (encodeCore m) = some m := by
  cases m with
  | pressureChanged level => rfl
  | actionResponse action approved reason =>
      show (decodeAction (encodeAction action)).bind _ = _
      rw [decodeAction_encodeAction]
      show (readOption readText (writeOption Value.str reason)).map _ = _
      have hReason : readOption readText (writeOption (Value.str : _ → Value ℚ) reason) =
          some reason := readOption_write rfl fun _ => rfl
      rw [hReason]
      rfl
  | gpuObservation pid kb sharedKb totalKb purgeableKb =>
      show (decodePid (encodePid pid)).bind _ = _
      rw [decodePid_encodePid]
      show (decodeKb (encodeKb kb)).bind _ = _
      rw [decodeKb_encodeKb]
      show (decodeKb (encodeKb sharedKb)).bind _ = _
      rw [decodeKb_encodeKb]
      show (decodeKb (encodeKb totalKb)).bind _ = _
      rw [decodeKb_encodeKb]
      show (decodeKb (encodeKb purgeableKb)).map _ = _
      rw [decodeKb_encodeKb]
      rfl
  | shutdown => rfl
  | configReload => rfl

/-! ## Lines -/

section Lines

variable (floats : Floats ℚ) (asDouble : Int → ℚ)

/-- Every number in the message has a literal: an observed value is neither infinite
nor no number. -/
def Sendable : PluginMessage → Prop
  | .observation _ _ _ value => (floats.print value).isSome = true
  | _ => True

variable {floats}

theorem fits_metric (metric : Metric) : Fits floats 126 (encodeMetric metric) := by
  cases metric <;> simp [encodeMetric, Fits, FitMembers]

theorem fits_action (action : PluginAction) : Fits floats 126 (encodeAction action) := by
  cases action <;> simp [encodeAction, Fits, FitMembers, fits_pid]

theorem fits_text (depth : Nat) (s : String) : Fits floats depth (.str s) := by
  rw [Fits]
  exact trivial

theorem fits_message {m : PluginMessage} (h : Sendable floats m) :
    Fits floats 127 (encodeMessage m) := by
  have hPid : ∀ pid : Option Pid, Fits floats 126 (writeOption encodePid pid) :=
    fun _ => fits_writeOption (fits_pid floats 126)
  cases m with
  | identify name version capabilities =>
      have hAll : FitItems floats 125 (capabilities.map Value.str) :=
        fitItems_map fun s _ => fits_text 125 s
      simp [encodeMessage, Fits, FitMembers, hAll]
  | observation plugin metric pid value =>
      have hValue : (floats.print value).isSome = true := h
      simp [encodeMessage, Fits, FitMembers, fits_metric, hPid, hValue]
  | actionRequest plugin action reason =>
      simp [encodeMessage, Fits, FitMembers, fits_action]
  | queryGpu pid => simp [encodeMessage, Fits, FitMembers, fits_pid]
  | activeWindow pid => simp [encodeMessage, Fits, FitMembers, hPid]

theorem fits_core (m : CoreMessage) : Fits floats 127 (encodeCore m) := by
  cases m with
  | actionResponse action approved reason =>
      have hReason : Fits floats 126 (writeOption Value.str reason) :=
        fits_writeOption (fits_text 126)
      simp [encodeCore, Fits, FitMembers, fits_action, hReason]
  | _ => simp [encodeCore, Fits, FitMembers, fits_pid, fits_kb]

variable (floats)

def pluginCodec : Codec floats PluginMessage where
  encode := encodeMessage
  decode := decodeMessage asDouble
  Sendable := Sendable floats
  fits := fits_message
  isGroup := fun m => by cases m <;> exact trivial
  decode_encode := fun _ => decodeMessage_encodeMessage asDouble _

def coreCodec : Codec floats CoreMessage where
  encode := encodeCore
  decode := decodeCore
  Sendable := fun _ => True
  fits := fun _ => fits_core _
  isGroup := fun m => by cases m <;> exact trivial
  decode_encode := fun _ => decodeCore_encodeCore _

end Lines

/-- What a GPU plugin says first. -/
def hello : PluginMessage := .identify "mgd-gpu-intel" "0.4.0" ["gpu"]

def observed : PluginMessage := .observation "mgd-gpu-intel" .gpuResidentKb (some ⟨42⟩) 1024

example : (pluginCodec wholeNumbers Int.cast).toText observed =
    "\x7b\"type\":\"observation\",\"plugin\":\"mgd-gpu-intel\",".toList ++
      "\"metric\":\"gpu_resident_kb\",\"pid\":42,\"value\":1024.0\x7d".toList := by
  rewrite [String.toList_ofList, String.toList_ofList]
  decide +kernel

/-! ## The readers -/

section Readers

variable (floats : Floats ℚ) (asDouble : Int → ℚ)

/-- What a plugin hears: it takes its lines from `drain_lines`. -/
def heard (pieces : List Bytes) : List CoreMessage :=
  (coreCodec floats).lineFormat.received pieces

/-- The lines the daemon takes for those of a plugin.  `route_ipc_connection` reads the
first one, and what its buffer holds beyond that one is dropped with the buffer. -/
def pluginLines (pieces : List Bytes) : List (List Char) :=
  match decode (readUntil pieces).1 with
  | none => []
  | some line =>
      if line.head? = some '\x7b' then line :: drainLines (readUntil pieces).2.tail else []

/-- What is dropped. -/
def dropped (pieces : List Bytes) : Bytes := (readUntil pieces).2.headD []

/-- The messages `process_plugin_line` acts on. -/
def handled (pieces : List Bytes) : List PluginMessage :=
  (pluginLines pieces).filterMap (pluginCodec floats asDouble).fromText

variable {floats} {asDouble}

theorem head_message (m : PluginMessage) (more : List Char) :
    ((pluginCodec floats asDouble).toText m ++ more).head? = some '\x7b' := by
  cases m <;> rfl

/-- The daemon acts on the first message, and then on those its second reader gets of
what the first one has not taken off the stream. -/
theorem handled_first {first : PluginMessage} (hFirst : Sendable floats first)
    {pieces : List Bytes} {rest : Bytes}
    (hBytes : pieces.flatten = (pluginCodec floats asDouble).lineFormat.sent [first] ++ rest) :
    ∃ later, dropped pieces ++ later.flatten = rest ∧
      handled floats asDouble pieces =
        first :: (pluginCodec floats asDouble).lineFormat.received later := by
  have hFrame : (pluginCodec floats asDouble).lineFormat.sent [first] =
      frame ((pluginCodec floats asDouble).toText first) := List.flatten_singleton
  rw [hFrame] at hBytes
  obtain ⟨left, later, hRead, hLater⟩ :=
    handover ((pluginCodec floats asDouble).lineFormat.noBreak hFirst) hBytes
  have hLines : pluginLines pieces =
      ((pluginCodec floats asDouble).toText first ++ ['\n']) :: drainLines later := by
    have hDecode : decode (readUntil pieces).1 =
        some ((pluginCodec floats asDouble).toText first ++ ['\n']) := by
      rw [hRead, frame_eq]
      exact decode_encode _
    rw [pluginLines, hDecode]
    show (if ((pluginCodec floats asDouble).toText first ++ ['\n']).head? = some '\x7b' then
      _ else _) = _
    rw [if_pos (head_message first ['\n']), hRead]
    rfl
  have hHead : (pluginCodec floats asDouble).fromText
      ((pluginCodec floats asDouble).toText first ++ ['\n']) = some first :=
    Codec.fromText_toText_spaces hFirst Codec.isSpace_newline
  refine ⟨later, ?_, ?_⟩
  · rw [dropped, hRead]
    exact hLater
  · rw [handled, hLines, List.filterMap_cons_some hHead]
    rfl

/-- However the bytes of a plugin arrive, the daemon acts on its first message and then
on its last ones, each once and in their order.  It acts on all of them if and only if
nothing came in with the end of the first line. -/
theorem handled_sent {first : PluginMessage} {ms : List PluginMessage}
    (hFirst : Sendable floats first) (hRest : ∀ m ∈ ms, Sendable floats m)
    {pieces : List Bytes}
    (hBytes : pieces.flatten = (pluginCodec floats asDouble).lineFormat.sent (first :: ms)) :
    ∃ kept, handled floats asDouble pieces = first :: kept ∧ kept <:+ ms ∧
      (kept = ms ↔ dropped pieces = []) := by
  have hSplit : (pluginCodec floats asDouble).lineFormat.sent (first :: ms) =
      (pluginCodec floats asDouble).lineFormat.sent [first] ++
        (pluginCodec floats asDouble).lineFormat.sent ms := LineFormat.sent_append [first] ms
  obtain ⟨later, hLater, hHandled⟩ := handled_first hFirst (hBytes.trans hSplit)
  have hAll : dropped pieces ++ later.flatten =
      (pluginCodec floats asDouble).lineFormat.sent ms ++
        (pluginCodec floats asDouble).lineFormat.unended none :=
    hLater.trans (List.append_nil _).symm
  have hAfter := (pluginCodec floats asDouble).lineFormat.messages_after hRest
    (fun a ha => by cases ha) hAll
  rw [Option.toList_none, List.append_nil] at hAfter
  exact ⟨_, hHandled, hAfter⟩

theorem handled_sent_gpu :
    ∃ kept, handled wholeNumbers Int.cast
          [(pluginCodec wholeNumbers Int.cast).lineFormat.sent [hello, observed]] =
        hello :: kept ∧ kept <:+ [observed] ∧
      (kept = [observed] ↔
        dropped [(pluginCodec wholeNumbers Int.cast).lineFormat.sent [hello, observed]] = []) := by
  have hObserved : Sendable wholeNumbers observed := by
    show (wholeNumbers.print 1024).isSome = true
    decide +kernel
  have hHello : Sendable wholeNumbers hello := trivial
  exact handled_sent hHello (List.forall_mem_singleton.mpr hObserved) List.flatten_singleton

end Readers

end Mgd.PluginWire
