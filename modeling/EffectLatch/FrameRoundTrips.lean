import EffectLatch.Base64Texts
import EffectLatch.RequestTransport

/-!
# Frames are read back as they were written

A stream of frames is read body by body, and a frame that was cut off is an
error.  With standard Base64 and the mandatory JSON escapes, every start, log
and finish frame the parties send fits its limit and is read back unchanged.
-/

namespace EffectLatch

namespace Ipc

/-- Read a number of frames one after the other. -/
def readFrames (maximum : Nat) :
    Nat → List UInt8 → Except ProtocolError (List (List UInt8) × List UInt8)
  | 0, stream => pure ([], stream)
  | count + 1, stream => do
      let (body, after) ← readFrameBytes stream maximum
      let (later, rest) ← readFrames maximum count after
      pure (body :: later, rest)

/-- Frames that were written are read first, whatever follows. -/
theorem readFrames_of_written {maximum : Nat} {bodies frames : List (List UInt8)}
    (written : bodies.mapM (writeFrame · maximum) = .ok frames)
    (count : Nat) (rest : List UInt8) :
    readFrames maximum (bodies.length + count) (frames.flatten ++ rest) =
      (readFrames maximum count rest).map fun read =>
        (bodies ++ read.1, read.2) := by
  induction bodies generalizing frames with
  | nil =>
      obtain rfl := Except.pure_eq_ok_iff.mp (List.mapM_nil.symm.trans written)
      rw [List.length_nil, Nat.zero_add, List.flatten_nil, List.nil_append]
      cases readFrames maximum count rest <;> rfl
  | cons body later ih =>
      rw [List.mapM_cons] at written
      simp only [Except.bind_eq_ok_iff, Except.pure_eq_ok_iff] at written
      obtain ⟨first, sent, others, writtenLater, rfl⟩ := written
      rw [List.length_cons, Nat.add_right_comm, List.flatten_cons,
        List.append_assoc, readFrames, readFrameBytes_of_writeFrame sent,
        Except.ok_bind_eq]
      dsimp only
      rw [ih writtenLater]
      cases readFrames maximum count rest <;> rfl

/-- Every list of bodies within the limit can be written. -/
theorem exists_frames {maximum : Nat} (narrow : maximum < 2 ^ 32)
    {bodies : List (List UInt8)}
    (fit : ∀ body ∈ bodies, 1 ≤ body.length ∧ body.length ≤ maximum) :
    ∃ frames, bodies.mapM (writeFrame · maximum) = .ok frames := by
  induction bodies with
  | nil => exact ⟨[], rfl⟩
  | cons body later ih =>
      rw [List.forall_mem_cons] at fit
      obtain ⟨⟨positive, small⟩, fitLater⟩ := fit
      obtain ⟨frames, written⟩ := ih fitLater
      have sent : writeFrame body maximum =
          .ok (bigEndian 4 body.length ++ body) :=
        writeFrame_eq_ok_iff.mpr ⟨⟨List.ne_nil_of_length_pos positive, small⟩,
          by omega, rfl⟩
      refine ⟨(bigEndian 4 body.length ++ body) :: frames, ?_⟩
      rw [List.mapM_cons, sent, Except.ok_bind_eq, written, Except.ok_bind_eq]
      rfl

/-- A frame that is cut off is no frame. -/
theorem readFrameBytes_cut {body written : List UInt8} {maximum : Nat}
    (sent : writeFrame body maximum = .ok written) {cut : Nat}
    (short : cut < written.length) :
    readFrameBytes (written.take cut) maximum = .error .io := by
  obtain ⟨rfl, header, length, positive, small⟩ := framed_of_writeFrame sent
  rw [List.length_append, header] at short
  rw [readFrameBytes]
  by_cases whole : 4 ≤ cut
  · have front : ((bigEndian 4 body.length ++ body).take cut).take 4 =
        bigEndian 4 body.length := by
      rw [List.take_take, Nat.min_eq_left whole, List.take_left' header]
    have complete : 4 ≤
        ((bigEndian 4 body.length ++ body).take cut).length := by
      rw [List.length_take, List.length_append, header]
      omega
    have missing : ¬ body.length ≤
        (((bigEndian 4 body.length ++ body).take cut).drop 4).length := by
      rw [List.length_drop, List.length_take, List.length_append, header]
      omega
    rw [Except.require_of complete, Except.ok_bind_eq, front, length]
    dsimp only
    rw [Except.require_of ⟨positive, small⟩, Except.ok_bind_eq]
    exact Except.require_bind_of_not missing _
  · have tooShort : ¬ 4 ≤ ((bigEndian 4 body.length ++ body).take cut).length := by
      rw [List.length_take]
      omega
    exact Except.require_bind_of_not tooShort _

/-- A length of zero or beyond the limit is refused. -/
theorem readFrameBytes_sized {stream : List UInt8} {maximum : Nat}
    (header : 4 ≤ stream.length)
    (length : fromBigEndian (stream.take 4) = 0 ∨
      maximum < fromBigEndian (stream.take 4)) :
    readFrameBytes stream maximum = .error .frameSize := by
  have refused : ¬ (fromBigEndian (stream.take 4) ≠ 0 ∧
      fromBigEndian (stream.take 4) ≤ maximum) := by
    omega
  rw [readFrameBytes, Except.require_of header, Except.ok_bind_eq]
  exact Except.require_bind_of_not refused _

end Ipc

/-- The text of standard Base64. -/
def base64Text (bytes : List UInt8) : String :=
  String.ofList (Base64.encode bytes)

theorem symbol_plain : ∀ number ≤ 64,
    Json.escape (Base64.symbol number) = [Base64.symbol number] ∧
      (Base64.symbol number).utf8Size = 1 := by
  decide +kernel

/-- Symbols take one byte each, also inside a JSON text. -/
theorem byteSize_symbols {chars : List Char}
    (symbols : ∀ char ∈ chars, ∃ number ≤ 64, char = Base64.symbol number) :
    Json.byteSize (chars.flatMap Json.escape) = chars.length ∧
      Json.byteSize chars = chars.length := by
  induction chars with
  | nil => exact ⟨rfl, rfl⟩
  | cons char rest ih =>
      rw [List.forall_mem_cons] at symbols
      obtain ⟨⟨number, small, rfl⟩, others⟩ := symbols
      obtain ⟨escaped, plain⟩ := ih others
      obtain ⟨same, size⟩ := symbol_plain number small
      simp only [List.flatMap_cons, same, Json.byteSize_append,
        Json.byteSize_cons, Json.byteSize_nil, escaped, plain, size,
        List.length_cons]
      omega

theorem decode_base64Text (bytes : List UInt8) :
    Base64.decode (base64Text bytes).toList = some bytes := by
  rw [base64Text, String.toList_ofList]
  exact Base64.decode_encode bytes

theorem byteSize_base64Text (bytes : List UInt8) :
    Json.escapedBytes (base64Text bytes) = (bytes.length + 2) / 3 * 4 ∧
      (utf8 (base64Text bytes)).length = (bytes.length + 2) / 3 * 4 := by
  obtain ⟨escaped, plain⟩ := byteSize_symbols
    fun char (member : char ∈ Base64.encode bytes) =>
      Base64.exists_symbol_of_mem member
  rw [Base64.length_encode] at escaped plain
  refine ⟨?_, ?_⟩
  · rw [Json.escapedBytes, base64Text, String.toList_ofList]
    exact escaped
  · rw [length_utf8, base64Text, String.toList_ofList]
    exact plain

def Limits.toJson (limits : Limits) : Json :=
  .object
    [("fuel", .number (.ofNat limits.fuel.toNat)),
      ("memory_bytes", .number (.ofNat limits.memoryBytes.toNat)),
      ("wall_ms", .number (.ofNat limits.wallMs.toNat)),
      ("max_effects", .number (.ofNat limits.maxEffects.toNat))]

namespace Ipc

def StartFrame.toJson (start : StartFrame) : Json :=
  .object
    [("version", .number (.ofNat start.version.toNat)),
      ("type", .string start.kind),
      ("module_b64", .string start.moduleB64),
      ("input_b64", .string start.inputB64),
      ("limits", start.limits.toJson)]

/-- What the round trip relies on: `serde_json` reads a frame from the text it
wrote for it, and the Base64 is the standard one, with a reader that undoes
it. -/
structure StartCodec.Standard (codec : StartCodec) : Prop where
  lawful : codec.toCodec.Lawful
  childFrame : ∀ frame : ChildFrame,
    codec.childFrame (jsonBytes frame.toJson) = some frame
  startFrameText : ∀ start : StartFrame,
    codec.startFrameText start = jsonBytes start.toJson
  startFrame : ∀ start : StartFrame,
    codec.startFrame (jsonBytes start.toJson) = some start
  base64 : ∀ bytes, codec.base64 bytes = base64Text bytes
  fromBase64 : ∀ bytes, codec.fromBase64 (base64Text bytes) = some bytes

variable {codec : StartCodec}

theorem canonicalBase64_base64Text (standard : codec.Standard)
    {bytes : List UInt8} {maxBytes : Nat} (few : bytes.length ≤ maxBytes) :
    canonicalBase64 codec.toCodec (base64Text bytes) maxBytes = .ok bytes := by
  have sized := (byteSize_base64Text bytes).2
  simp only [canonicalBase64, standard.fromBase64, standard.base64,
    Except.bind_eq_ok_iff, Except.require_eq_ok_iff, Except.fetch_eq_ok_iff,
    Except.pure_eq_ok_iff]
  refine ⟨(), ?_, bytes, rfl, (), ⟨few, rfl⟩, rfl⟩
  rw [sized]
  omega

/-- A frame other than a request is read back when its checks hold. -/
theorem readChild_of_writeFrame (standard : codec.Standard)
    {frame : ChildFrame} (other : frame.kind ≠ "effect_request")
    (version : frame.version = 1) (checked : frame.check codec.toCodec = .ok ())
    {written : List UInt8}
    (sent : writeFrame (codec.childFrameText frame) messageFrameBytes =
      .ok written) (rest : List UInt8) :
    readChild codec.toCodec (written ++ rest) = .ok (frame, rest) := by
  rw [standard.lawful.written] at sent
  simp only [readChild, readFrameBytes_of_writeFrame sent rest,
    Except.ok_bind_eq, standard.lawful.kind, Except.fetch_some, other,
    if_false, standard.childFrame, version, checked]
  rfl

/-- The start frame for a module, an input and limits. -/
def startOf (codec : Codec) (module input : List UInt8) (limits : Limits) :
    StartFrame where
  version := 1
  kind := "start"
  moduleB64 := codec.base64 module
  inputB64 := codec.base64 input
  limits := limits

/-- A written frame that is read back as it was. -/
def Returns {α : Type} (text : List UInt8) (maximum : Nat)
    (reader : List UInt8 → Except ProtocolError (α × List UInt8))
    (frame : α) : Prop :=
  ∃ written, writeFrame text maximum = .ok written ∧
    ∀ rest, reader (written ++ rest) = .ok (frame, rest)

theorem writeFrame_jsonBytes (json : Json)
    (object : ∃ members, json = .object members) {maximum : Nat}
    (narrow : maximum < 2 ^ 32)
    (fits : (jsonBytes json).length ≤ maximum) :
    ∃ written, writeFrame (jsonBytes json) maximum = .ok written := by
  have nonempty : jsonBytes json ≠ [] := by
    obtain ⟨members, rfl⟩ := object
    apply List.ne_nil_of_length_pos
    rw [length_jsonBytes, Json.byteSize_compact_object]
    omega
  exact ⟨_, writeFrame_eq_ok_iff.mpr ⟨⟨nonempty, fits⟩, by omega, rfl⟩⟩

theorem escapedBytes_frame :
    Json.escapedBytes "version" = 7 ∧ Json.escapedBytes "type" = 4 ∧
      Json.escapedBytes "module_b64" = 10 ∧ Json.escapedBytes "input_b64" = 9 ∧
      Json.escapedBytes "limits" = 6 ∧ Json.escapedBytes "fuel" = 4 ∧
      Json.escapedBytes "memory_bytes" = 12 ∧
      Json.escapedBytes "wall_ms" = 7 ∧ Json.escapedBytes "max_effects" = 11 ∧
      Json.escapedBytes "start" = 5 ∧ Json.escapedBytes "log" = 3 ∧
      Json.escapedBytes "finish" = 6 ∧ Json.escapedBytes "message" = 7 ∧
      Json.escapedBytes "output_b64" = 10 ∧
      Json.escapedBytes "error_code" = 10 ∧
      Json.byteSize Json.null.compact = 4 ∧
      Json.byteSize (Json.Number.ofNat (1 : UInt8).toNat).chars = 1 := by
  decide +kernel

theorem length_startFrame_le (standard : codec.Standard)
    {module input : List UInt8} (small : module.length ≤ moduleBytes)
    (few : input.length ≤ payloadBytes) (limits : Limits) :
    (jsonBytes (startOf codec.toCodec module input limits).toJson).length ≤
      startFrameBytes := by
  have fuel := byteSize_ofNat_le limits.fuel
  have memory := byteSize_ofNat_le limits.memoryBytes
  have wall := byteSize_ofNat_le limits.wallMs
  have effects := byteSize_ofNat_le limits.maxEffects
  unfold moduleBytes at small
  unfold payloadBytes at few
  simp only [length_jsonBytes, StartFrame.toJson, startOf, Limits.toJson,
    standard.base64, Json.byteSize_compact_object,
    Json.byteSize_compact_string, Json.byteSize_compact_number, List.map_cons,
    List.map_nil, List.sum_cons, List.sum_nil, List.length_cons,
    List.length_nil, escapedBytes_frame, byteSize_base64Text, startFrameBytes]
  omega

theorem start_returns (standard : codec.Standard) {module input : List UInt8}
    (small : module.length ≤ moduleBytes) (few : input.length ≤ payloadBytes)
    (limits : Limits) :
    Returns (codec.startFrameText (startOf codec.toCodec module input limits))
      startFrameBytes (readStart codec)
      (startOf codec.toCodec module input limits) := by
  obtain ⟨written, sent⟩ := writeFrame_jsonBytes
    (startOf codec.toCodec module input limits).toJson ⟨_, rfl⟩ (by decide)
    (length_startFrame_le standard small few limits)
  have checked : (startOf codec.toCodec module input limits).check
      codec.toCodec = .ok () := by
    simp only [StartFrame.check, startOf, standard.base64,
      canonicalBase64_base64Text standard small,
      canonicalBase64_base64Text standard few]
    rfl
  refine ⟨written, standard.startFrameText _ ▸ sent, fun rest => ?_⟩
  simp only [readStart, readFrameBytes_of_writeFrame sent rest,
    Except.ok_bind_eq, standard.startFrame, Except.fetch_some, checked]
  rfl

/-- A frame of the child that fits and passes its checks returns. -/
theorem child_returns (standard : codec.Standard) {frame : ChildFrame}
    (other : frame.kind ≠ "effect_request") (version : frame.version = 1)
    (checked : frame.check codec.toCodec = .ok ())
    (object : ∃ members, frame.toJson = .object members)
    (fits : (jsonBytes frame.toJson).length ≤ messageFrameBytes) :
    Returns (codec.childFrameText frame) messageFrameBytes
      (readChild codec.toCodec) frame := by
  obtain ⟨written, sent⟩ := writeFrame_jsonBytes _ object (by decide) fits
  rw [← standard.lawful.written] at sent
  exact ⟨written, sent,
    readChild_of_writeFrame standard other version checked sent⟩

theorem log_returns (standard : codec.Standard) {message : String}
    (short : (utf8 message).length ≤ 16 * 1024) :
    Returns (codec.childFrameText (.log 1 message)) messageFrameBytes
      (readChild codec.toCodec) (.log 1 message) := by
  refine child_returns standard (by simp [ChildFrame.kind]) rfl
    (Except.require_of short) ⟨_, rfl⟩ ?_
  have escaped := Json.escapedBytes_le message
  rw [← length_utf8] at escaped
  simp only [length_jsonBytes, ChildFrame.toJson,
    Json.byteSize_compact_object, Json.byteSize_compact_string,
    Json.byteSize_compact_number, List.map_cons, List.map_nil, List.sum_cons,
    List.sum_nil, List.length_cons, List.length_nil, escapedBytes_frame,
    messageFrameBytes]
  omega

theorem finish_returns (standard : codec.Standard)
    {output : Option (List UInt8)}
    (few : ∀ bytes ∈ output, bytes.length ≤ payloadBytes) :
    Returns (codec.childFrameText
        (.finish 1 (output.map codec.base64) none)) messageFrameBytes
      (readChild codec.toCodec)
      (.finish 1 (output.map codec.base64) none) := by
  cases output with
  | none =>
      refine child_returns standard (by simp [ChildFrame.kind]) rfl rfl
        ⟨_, rfl⟩ ?_
      simp only [length_jsonBytes, ChildFrame.toJson, Option.map_none,
        Option.getD_none, Json.byteSize_compact_object,
        Json.byteSize_compact_string, Json.byteSize_compact_number,
        List.map_cons, List.map_nil, List.sum_cons, List.sum_nil,
        List.length_cons, List.length_nil, escapedBytes_frame,
        messageFrameBytes]
      omega
  | some bytes =>
      have few := few bytes rfl
      have checked : (ChildFrame.finish 1 (some (codec.base64 bytes))
          none).check codec.toCodec = .ok () := by
        simp only [ChildFrame.check, standard.base64,
          canonicalBase64_base64Text standard few]
        rfl
      refine child_returns standard (by simp [ChildFrame.kind]) rfl checked
        ⟨_, rfl⟩ ?_
      unfold payloadBytes at few
      simp only [length_jsonBytes, ChildFrame.toJson, Option.map_some,
        Option.map_none, Option.getD_some, Option.getD_none, standard.base64,
        Json.byteSize_compact_object, Json.byteSize_compact_string,
        Json.byteSize_compact_number, List.map_cons, List.map_nil,
        List.sum_cons, List.sum_nil, List.length_cons, List.length_nil,
        escapedBytes_frame, byteSize_base64Text, messageFrameBytes]
      omega

/-- Frames are read back as they were written, and nothing else is. -/
structure RoundTrips (codec : StartCodec) : Prop where
  streams : ∀ maximum < 2 ^ 32, ∀ bodies : List (List UInt8),
    (∀ body ∈ bodies, 1 ≤ body.length ∧ body.length ≤ maximum) →
    ∃ frames, bodies.mapM (writeFrame · maximum) = .ok frames ∧
      ∀ rest, readFrames maximum bodies.length (frames.flatten ++ rest) =
        .ok (bodies, rest)
  cut : ∀ maximum (bodies : List (List UInt8)) frames body written,
    bodies.mapM (writeFrame · maximum) = .ok frames →
    writeFrame body maximum = .ok written →
    ∀ cut < written.length,
      readFrames maximum (bodies.length + 1)
        (frames.flatten ++ written.take cut) = .error .io
  sized : ∀ maximum (stream : List UInt8), 4 ≤ stream.length →
    fromBigEndian (stream.take 4) = 0 ∨
      maximum < fromBigEndian (stream.take 4) →
    readFrameBytes stream maximum = .error .frameSize
  start : ∀ (module input : List UInt8) limits,
    module.length ≤ moduleBytes → input.length ≤ payloadBytes →
    Returns (codec.startFrameText (startOf codec.toCodec module input limits))
      startFrameBytes (readStart codec)
      (startOf codec.toCodec module input limits)
  log : ∀ message : String, (utf8 message).length ≤ 16 * 1024 →
    Returns (codec.childFrameText (.log 1 message)) messageFrameBytes
      (readChild codec.toCodec) (.log 1 message)
  finish : ∀ output : Option (List UInt8),
    (∀ bytes ∈ output, bytes.length ≤ payloadBytes) →
    Returns (codec.childFrameText (.finish 1 (output.map codec.base64) none))
      messageFrameBytes (readChild codec.toCodec)
      (.finish 1 (output.map codec.base64) none)

theorem frames_round_trip (codec : StartCodec) (standard : codec.Standard) :
    RoundTrips codec where
  streams := by
    intro maximum narrow bodies fit
    obtain ⟨frames, written⟩ := exists_frames narrow fit
    refine ⟨frames, written, fun rest => ?_⟩
    have read := readFrames_of_written written 0 rest
    rw [Nat.add_zero] at read
    rw [read]
    simp [readFrames, Except.map, pure, Except.pure]
  cut := by
    intro maximum bodies frames body written sent last cut short
    rw [readFrames_of_written sent, readFrames, readFrameBytes_cut last short]
    rfl
  sized _ _ header length := readFrameBytes_sized header length
  start _ _ limits small few := start_returns standard small few limits
  log _ short := log_returns standard short
  finish _ few := finish_returns standard few

end Ipc

namespace Sample

open Ipc

def limitsOfJson (json : Json) : Option Limits := do
  match ← json.fields ["fuel", "memory_bytes", "wall_ms", "max_effects"] with
  | [fuel, memory, wall, effects] =>
      pure ⟨UInt64.ofNat (← fuel.asNat (2 ^ 64)),
        UInt64.ofNat (← memory.asNat (2 ^ 64)),
        UInt64.ofNat (← wall.asNat (2 ^ 64)),
        UInt64.ofNat (← effects.asNat (2 ^ 64))⟩
  | _ => none

def startOfJson (json : Json) : Option StartFrame := do
  match ← json.fields ["version", "type", "module_b64", "input_b64", "limits"]
    with
  | [version, kind, module, input, limits] =>
      pure ⟨UInt8.ofNat (← version.asNat (2 ^ 8)), ← kind.asString,
        ← module.asString, ← input.asString, ← limitsOfJson limits⟩
  | _ => none

def optionalString : Json → Option (Option String)
  | .null => some none
  | .string text => some (some text)
  | _ => none

/-- A frame of the child by the kind it names. -/
def childOfJson (json : Json) : Option ChildFrame :=
  match json with
  | .object members => do
      let kind ← (← members.lookup "type").asString
      let version ← (← members.lookup "version").asNat (2 ^ 8)
      if kind = "log" then
        pure (.log (UInt8.ofNat version)
          (← (← members.lookup "message").asString))
      else if kind = "finish" then
        pure (.finish (UInt8.ofNat version)
          (← optionalString (← members.lookup "output_b64"))
          (← optionalString (← members.lookup "error_code")))
      else
        pure (.effectRequest (UInt8.ofNat version)
          (UInt64.ofNat (← (← members.lookup "message_id").asNat (2 ^ 64)))
          (← EffectRequest.ofJson (← members.lookup "request")))
  | _ => none

/-- JSON by the grammar and standard Base64. -/
def startCodec : StartCodec where
  toCodec :=
    { codec with
      childFrame := fun bytes => (readJson bytes).bind childOfJson
      base64 := base64Text
      fromBase64 := fun text => Base64.decode text.toList }
  startFrameText start := jsonBytes start.toJson
  startFrame bytes := (readJson bytes).bind startOfJson

theorem optionalString_getD (text : Option String) :
    optionalString ((text.map Json.string).getD .null) = some text := by
  cases text <;> rfl

theorem childOfJson_toJson (frame : ChildFrame) :
    childOfJson frame.toJson = some frame := by
  have version (value : UInt8) :
      (Json.number (.ofNat value.toNat)).asNat (2 ^ 8) = some value.toNat :=
    Json.asNat_ofNat value.toNat_lt
  have messageId (value : UInt64) :
      (Json.number (.ofNat value.toNat)).asNat (2 ^ 64) = some value.toNat :=
    Json.asNat_ofNat value.toNat_lt
  cases frame with
  | effectRequest first second request =>
      simp [-Nat.reducePow, childOfJson, ChildFrame.toJson, List.lookup_cons,
        version, messageId, Json.asString, EffectRequest.ofJson_toJson]
  | log first message =>
      simp [-Nat.reducePow, childOfJson, ChildFrame.toJson, List.lookup_cons,
        version, Json.asString]
  | finish first output failure =>
      simp [-Nat.reducePow, childOfJson, ChildFrame.toJson, List.lookup_cons,
        version, Json.asString, optionalString_getD]

theorem startOfJson_toJson (start : StartFrame) :
    startOfJson start.toJson = some start := by
  have number (value : UInt64) :
      (Json.number (.ofNat value.toNat)).asNat (2 ^ 64) = some value.toNat :=
    Json.asNat_ofNat value.toNat_lt
  have version : (Json.number (.ofNat start.version.toNat)).asNat (2 ^ 8) =
      some start.version.toNat :=
    Json.asNat_ofNat start.version.toNat_lt
  have limits : limitsOfJson start.limits.toJson = some start.limits := by
    simp [-Nat.reducePow, limitsOfJson, Limits.toJson, Json.fields,
      List.lookup_cons, number]
  simp [-Nat.reducePow, startOfJson, StartFrame.toJson, Json.fields,
    List.lookup_cons, version, Json.asString, limits]

theorem startCodec_standard : startCodec.Standard where
  lawful := ⟨codec_lawful.written, codec_lawful.kind, codec_lawful.raw,
    codec_lawful.request⟩
  childFrame frame := by
    change (readJson (jsonBytes frame.toJson)).bind childOfJson = some frame
    rw [readJson_jsonBytes]
    exact childOfJson_toJson frame
  startFrameText _ := rfl
  startFrame start := by
    change (readJson (jsonBytes start.toJson)).bind startOfJson = some start
    rw [readJson_jsonBytes]
    exact startOfJson_toJson start
  base64 _ := rfl
  fromBase64 bytes := decode_base64Text bytes

end Sample

namespace Ipc

theorem frames_round_trip_log :
    Returns (Sample.startCodec.childFrameText (.log 1 "ready"))
      messageFrameBytes (readChild Sample.startCodec.toCodec)
      (.log 1 "ready") :=
  (frames_round_trip Sample.startCodec Sample.startCodec_standard).log "ready"
    (by decide +kernel)

end Ipc

end EffectLatch
