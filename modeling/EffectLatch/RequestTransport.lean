import EffectLatch.DomainHashingLaws
import EffectLatch.JsonTextLaws
import EffectLatch.RuntimeIpc

/-!
# Effect requests on their way to the parent

The guest spells a request as it likes, the runner reads it and writes it anew,
and the parent reads what was written under the limit of the guest's text.
-/

namespace EffectLatch

/-- The bytes of a compact JSON text. -/
def jsonBytes (json : Json) : List UInt8 := utf8 (String.ofList json.compact)

def readJson (bytes : List UInt8) : Option Json :=
  (String.fromUTF8? ⟨bytes.toArray⟩).bind fun text => Json.parse text.toList

theorem length_utf8 (text : String) :
    (utf8 text).length = Json.byteSize text.toList := by
  obtain ⟨chars, rfl⟩ := text.exists_eq_ofList
  rw [String.toList_ofList]
  change (String.ofList chars).toByteArray.data.toList.length = _
  rw [String.toByteArray_ofList, Array.length_toList]
  change chars.utf8Encode.size = _
  induction chars with
  | nil => rfl
  | cons char rest ih =>
      rw [List.utf8Encode_cons, ByteArray.size_append, ih,
        List.utf8Encode_singleton, List.size_toByteArray,
        String.length_utf8EncodeChar, Json.byteSize_cons]

theorem length_jsonBytes (json : Json) :
    (jsonBytes json).length = Json.byteSize json.compact := by
  rw [jsonBytes, length_utf8, String.toList_ofList]

theorem readJson_jsonBytes (json : Json) :
    readJson (jsonBytes json) = some json := by
  rw [readJson, jsonBytes, fromUTF8?_utf8, Option.bind_some,
    String.toList_ofList, Json.parse_compact]

theorem byteSize_of_readJson {bytes : List UInt8} {json : Json}
    (read : readJson bytes = some json) :
    Json.byteSize json.compact ≤ bytes.length := by
  obtain ⟨text, decoded, parsed⟩ := Option.bind_eq_some_iff.mp read
  rw [← utf8_of_fromUTF8? decoded, length_utf8]
  exact Json.byteSize_compact_le parsed

/-- A 64-bit number has 20 digits at most. -/
theorem byteSize_ofNat_le (value : UInt64) :
    Json.byteSize (Json.Number.ofNat value.toNat).chars ≤ 80 := by
  have digits : (Json.Number.ofNat value.toNat).chars.length ≤ 20 := by
    apply (Nat.length_toDigits_le_iff (by omega) (by omega)).mpr
    exact Nat.lt_trans value.toNat_lt (by omega)
  have number := Json.byteSize_le (Json.Number.ofNat value.toNat).chars
  omega

namespace TicketArguments

def toJson (arguments : TicketArguments) : Json :=
  .object
    [("project", .string arguments.project), ("title", .string arguments.title),
      ("body", .string arguments.body)]

def ofJson (json : Json) : Option TicketArguments := do
  match ← json.fields ["project", "title", "body"] with
  | [project, title, body] =>
      pure ⟨← project.asString, ← title.asString, ← body.asString⟩
  | _ => none

theorem ofJson_toJson (arguments : TicketArguments) :
    ofJson arguments.toJson = some arguments :=
  rfl

/-- The same arguments without the names of their fields. -/
def toArray (arguments : TicketArguments) : Json :=
  .array [.string arguments.project, .string arguments.title,
    .string arguments.body]

theorem ofJson_toArray (arguments : TicketArguments) :
    ofJson arguments.toArray = some arguments :=
  rfl

theorem ofJson_eq_some_iff {json : Json} {arguments : TicketArguments} :
    ofJson json = some arguments ↔
      json.fields ["project", "title", "body"] =
        some [.string arguments.project, .string arguments.title,
          .string arguments.body] := by
  constructor
  · intro read
    simp only [ofJson, Option.bind_eq_bind, Option.bind_eq_some_iff] at read
    obtain ⟨values, found, read⟩ := read
    split at read
    · simp only [Option.bind_eq_some_iff, Json.asString_eq_some_iff,
        Option.pure_def, Option.some.injEq] at read
      obtain ⟨_, rfl, _, rfl, _, rfl, rfl⟩ := read
      exact found
    · simp at read
  · intro found
    simp [ofJson, found, Json.asString]

end TicketArguments

namespace EffectRequest

def toJson (request : EffectRequest) : Json :=
  .object
    [("ordinal", .number (.ofNat request.ordinal.toNat)),
      ("action", .string request.action),
      ("destination", .string request.destination),
      ("arguments", request.arguments.toJson)]

def ofJson (json : Json) : Option EffectRequest := do
  match ← json.fields ["ordinal", "action", "destination", "arguments"] with
  | [ordinal, action, destination, arguments] =>
      pure ⟨UInt64.ofNat (← ordinal.asNat (2 ^ 64)), ← action.asString,
        ← destination.asString, ← TicketArguments.ofJson arguments⟩
  | _ => none

theorem ofJson_of_fields {json arguments : Json} {request : EffectRequest}
    (found : json.fields ["ordinal", "action", "destination", "arguments"] =
      some [.number (.ofNat request.ordinal.toNat), .string request.action,
        .string request.destination, arguments])
    (inner : TicketArguments.ofJson arguments = some request.arguments) :
    ofJson json = some request := by
  have ordinal : (Json.number (.ofNat request.ordinal.toNat)).asNat (2 ^ 64) =
      some request.ordinal.toNat :=
    Json.asNat_ofNat request.ordinal.toNat_lt
  simp only [ofJson, found, ordinal, Json.asString, inner, Option.bind_eq_bind,
    Option.bind_some, UInt64.ofNat_toNat]
  rfl

theorem ofJson_toJson (request : EffectRequest) :
    ofJson request.toJson = some request :=
  ofJson_of_fields rfl (TicketArguments.ofJson_toJson request.arguments)

/-- The same request without the names of its fields. -/
def toArray (request : EffectRequest) : Json :=
  .array [.number (.ofNat request.ordinal.toNat), .string request.action,
    .string request.destination, request.arguments.toArray]

theorem ofJson_toArray (request : EffectRequest) :
    ofJson request.toArray = some request :=
  ofJson_of_fields rfl (TicketArguments.ofJson_toArray request.arguments)

theorem fields_of_ofJson {json : Json} {request : EffectRequest}
    (read : ofJson json = some request) :
    ∃ ordinal arguments,
      json.fields ["ordinal", "action", "destination", "arguments"] =
        some [.number ordinal, .string request.action,
          .string request.destination, arguments] ∧
      TicketArguments.ofJson arguments = some request.arguments := by
  simp only [ofJson, Option.bind_eq_bind, Option.bind_eq_some_iff] at read
  obtain ⟨values, found, read⟩ := read
  split at read
  · simp only [Option.bind_eq_some_iff, Json.asString_eq_some_iff,
      Option.pure_def, Option.some.injEq] at read
    obtain ⟨_, number, _, rfl, _, rfl, arguments, inner, rfl⟩ := read
    obtain ⟨ordinal, rfl⟩ := Json.exists_of_asNat number
    exact ⟨ordinal, _, found, inner⟩
  · simp at read

end EffectRequest

namespace EffectRequest

/-- The bytes of the request as the runner writes it, from what the guest can
choose. -/
def encodedBytes (request : EffectRequest) : Nat :=
  103 + Json.escapedBytes request.destination +
    Json.escapedBytes request.arguments.project +
    Json.escapedBytes request.arguments.title +
    Json.escapedBytes request.arguments.body

theorem validate_eq_ok_iff {request : EffectRequest} :
    request.validate = .ok () ↔
      request.ordinal < maxEffects ∧ request.action = "ticket.create" ∧
      (isAlias request.destination = true ∧
        isAlias request.arguments.project = true) ∧
      (¬ (utf8 request.arguments.title).isEmpty = true ∧
        request.arguments.title.length ≤ 200 ∧
        (utf8 request.arguments.title).length ≤ 800) ∧
      (utf8 request.arguments.body).length ≤ 8192 := by
  simp only [validate, Except.bind_eq_ok_iff, Except.require_eq_ok_iff,
    exists_const]

theorem byteSize_ordinal {request : EffectRequest}
    (valid : request.validate = .ok ()) :
    Json.byteSize (Json.Number.ofNat request.ordinal.toNat).chars = 1 := by
  have digit : ∀ value < 8,
      Json.byteSize (Json.Number.ofNat value).chars = 1 := by
    decide
  exact digit request.ordinal.toNat (validate_eq_ok_iff.mp valid).1

theorem escapedBytes_names :
    Json.escapedBytes "ordinal" = 7 ∧ Json.escapedBytes "action" = 6 ∧
      Json.escapedBytes "destination" = 11 ∧
      Json.escapedBytes "arguments" = 9 ∧ Json.escapedBytes "project" = 7 ∧
      Json.escapedBytes "title" = 5 ∧ Json.escapedBytes "body" = 4 ∧
      Json.escapedBytes "ticket.create" = 13 := by
  decide

theorem length_jsonBytes_toJson {request : EffectRequest}
    (valid : request.validate = .ok ()) :
    (jsonBytes request.toJson).length = request.encodedBytes := by
  have action := (validate_eq_ok_iff.mp valid).2.1
  have digit := byteSize_ordinal valid
  simp only [length_jsonBytes, toJson, TicketArguments.toJson, action,
    Json.byteSize_compact_object, Json.byteSize_compact_string,
    Json.byteSize_compact_number, List.map_cons, List.map_nil, List.sum_cons,
    List.sum_nil, List.length_cons, List.length_nil, digit, escapedBytes_names,
    encodedBytes]
  omega

/-- Without the names of its fields a request takes 70 bytes less. -/
theorem length_jsonBytes_toArray {request : EffectRequest}
    (valid : request.validate = .ok ()) :
    (jsonBytes request.toArray).length + 70 = request.encodedBytes := by
  have action := (validate_eq_ok_iff.mp valid).2.1
  have digit := byteSize_ordinal valid
  simp only [length_jsonBytes, toArray, TicketArguments.toArray, action,
    Json.byteSize_compact_array, Json.byteSize_compact_string,
    Json.byteSize_compact_number, List.map_cons, List.map_nil, List.sum_cons,
    List.sum_nil, List.length_cons, List.length_nil, digit, escapedBytes_names,
    encodedBytes]
  omega

/-- The request and its arguments are spelled as objects. -/
def SpelledWithNames (json : Json) : Prop :=
  ∃ members arguments, json = .object members ∧
    members.lookup "arguments" = some (.object arguments)

/-- A text that names the fields is not shorter than the runner's. -/
theorem encodedBytes_le_of_names {json : Json} {request : EffectRequest}
    (valid : request.validate = .ok ()) (read : ofJson json = some request)
    (named : SpelledWithNames json) :
    request.encodedBytes ≤ Json.byteSize json.compact := by
  obtain ⟨members, inner, rfl, nested⟩ := named
  obtain ⟨ordinal, arguments, outer, argued⟩ := fields_of_ofJson read
  have found : arguments = .object inner := by
    have looked := outer
    simp only [Json.fields] at looked
    split_ifs at looked
    have pairs := (Json.zip_of_mapM looked).2 ("arguments", arguments)
      (by simp)
    rw [nested] at pairs
    exact (Option.some.inj pairs).symm
  subst found
  have whole := Json.byteSize_of_fields (by decide) outer
  have part := Json.byteSize_of_fields (by decide)
    (TicketArguments.ofJson_eq_some_iff.mp argued)
  have action := (validate_eq_ok_iff.mp valid).2.1
  have digit := ordinal.byteSize_chars_pos
  rw [whole]
  simp only [List.zip_cons_cons, List.zip_nil_right, Json.byteSize_compact_object,
    Json.byteSize_compact_string, Json.byteSize_compact_number, List.map_cons,
    List.map_nil, List.sum_cons, List.sum_nil, List.length_cons,
    List.length_nil, action, escapedBytes_names, encodedBytes] at part ⊢
  omega

end EffectRequest

theorem fromBigEndian_bigEndian {width value : Nat}
    (fits : value < 256 ^ width) :
    Ipc.fromBigEndian (bigEndian width value) = value := by
  induction width generalizing value with
  | zero =>
      rw [Nat.pow_zero] at fits
      simp only [bigEndian, Ipc.fromBigEndian, List.foldl_nil]
      omega
  | succ width ih =>
      rw [Nat.pow_succ] at fits
      have high : value / 256 < 256 ^ width :=
        Nat.div_lt_of_lt_mul (by omega)
      have low : (UInt8.ofNat (value % 256)).toNat = value % 256 := by simp
      have upper := ih high
      simp only [Ipc.fromBigEndian] at upper ⊢
      rw [bigEndian, List.foldl_append, upper, List.foldl_cons,
        List.foldl_nil, low]
      omega

namespace Ipc

theorem writeFrame_eq_ok_iff {body written : List UInt8} {maximum : Nat} :
    writeFrame body maximum = .ok written ↔
      (body ≠ [] ∧ body.length ≤ maximum) ∧ body.length < 2 ^ 32 ∧
        bigEndian 4 body.length ++ body = written := by
  simp only [writeFrame, Except.bind_eq_ok_iff, Except.require_eq_ok_iff,
    Except.pure_eq_ok_iff, exists_const]

/-- A frame that was written is its length in four bytes and its body. -/
theorem framed_of_writeFrame {body written : List UInt8} {maximum : Nat}
    (sent : writeFrame body maximum = .ok written) :
    written = bigEndian 4 body.length ++ body ∧
      (bigEndian 4 body.length).length = 4 ∧
      fromBigEndian (bigEndian 4 body.length) = body.length ∧
      body.length ≠ 0 ∧ body.length ≤ maximum := by
  obtain ⟨⟨nonempty, small⟩, fits, rfl⟩ := writeFrame_eq_ok_iff.mp sent
  have length : fromBigEndian (bigEndian 4 body.length) = body.length :=
    fromBigEndian_bigEndian (by omega)
  have positive : body.length ≠ 0 := by
    simpa [List.length_eq_zero_iff] using nonempty
  exact ⟨rfl, length_bigEndian 4 _, length, positive, small⟩

/-- What was written is read back, and nothing of what follows. -/
theorem readFrameBytes_of_writeFrame {body written : List UInt8}
    {maximum : Nat} (sent : writeFrame body maximum = .ok written)
    (rest : List UInt8) :
    readFrameBytes (written ++ rest) maximum = .ok (body, rest) := by
  obtain ⟨rfl, header, length, positive, small⟩ := framed_of_writeFrame sent
  rw [List.append_assoc]
  simp only [readFrameBytes, List.take_left' header, List.drop_left' header,
    length, Except.bind_eq_ok_iff, Except.require_eq_ok_iff,
    Except.pure_eq_ok_iff, List.length_append, header, exists_const]
  refine ⟨by omega, ⟨positive, small⟩, by omega, ?_⟩
  rw [List.take_left' rfl, List.drop_left' rfl]

def ChildFrame.kind : ChildFrame → String
  | effectRequest _ _ _ => "effect_request"
  | log _ _ => "log"
  | finish _ _ _ => "finish"

/-- The value a frame is written as, its kind first. -/
def ChildFrame.toJson : ChildFrame → Json
  | effectRequest version messageId request =>
      .object
        [("type", .string "effect_request"),
          ("version", .number (.ofNat version.toNat)),
          ("message_id", .number (.ofNat messageId.toNat)),
          ("request", request.toJson)]
  | log version message =>
      .object
        [("type", .string "log"), ("version", .number (.ofNat version.toNat)),
          ("message", .string message)]
  | finish version outputB64 errorCode =>
      .object
        [("type", .string "finish"),
          ("version", .number (.ofNat version.toNat)),
          ("output_b64", (outputB64.map Json.string).getD .null),
          ("error_code", (errorCode.map Json.string).getD .null)]

/-- What the protocol relies on in `serde_json`.  Structures are written as
objects with their fields in order, in compact text; what was written is found
again, the request as the slice of the text it is; and a request is read from
every JSON text of an object or array with its fields. -/
structure Codec.Lawful (codec : Codec) : Prop where
  written : ∀ frame, codec.childFrameText frame = jsonBytes frame.toJson
  kind : ∀ frame : ChildFrame,
    codec.kind (jsonBytes frame.toJson) = some (some frame.kind)
  raw : ∀ version messageId request,
    codec.rawEffectRequest
        (jsonBytes (ChildFrame.effectRequest version messageId request).toJson) =
      some ⟨version, "effect_request", messageId, jsonBytes request.toJson⟩
  request : ∀ bytes,
    codec.effectRequest bytes = (readJson bytes).bind EffectRequest.ofJson

/-- The runner writes the request and the parent reads exactly this request. -/
def Crosses (codec : Codec) (messageId : UInt64) (request : EffectRequest) :
    Prop :=
  ∃ written,
    writeFrame (codec.childFrameText (.effectRequest 1 messageId request))
        messageFrameBytes = .ok written ∧
      ∀ rest, readChild codec (written ++ rest) =
        .ok (.effectRequest 1 messageId request, rest)

theorem length_requestFrame_le (messageId : UInt64) {request : EffectRequest}
    (valid : request.validate = .ok ()) :
    (jsonBytes (ChildFrame.effectRequest 1 messageId request).toJson).length ≤
      messageFrameBytes := by
  obtain ⟨_, _, ⟨destination, project⟩, ⟨_, _, title⟩, body⟩ :=
    EffectRequest.validate_eq_ok_iff.mp valid
  have encoded := EffectRequest.length_jsonBytes_toJson valid
  rw [length_jsonBytes] at encoded
  have number := byteSize_ofNat_le messageId
  have version : Json.byteSize (Json.Number.ofNat (1 : UInt8).toNat).chars = 1 := by
    decide
  have names : Json.escapedBytes "type" = 4 ∧
      Json.escapedBytes "version" = 7 ∧ Json.escapedBytes "message_id" = 10 ∧
      Json.escapedBytes "request" = 7 ∧
      Json.escapedBytes "effect_request" = 14 := by
    decide
  have aliasBound : ∀ text, isAlias text = true →
      (utf8 text).length ≤ 64 := by
    intro text named
    simp only [isAlias, shortIdentifier, Bool.and_eq_true,
      decide_eq_true_eq] at named
    exact named.1.2
  have destinationBound := aliasBound _ destination
  have projectBound := aliasBound _ project
  rw [length_utf8] at title body destinationBound projectBound
  have one := Json.escapedBytes_le request.destination
  have two := Json.escapedBytes_le request.arguments.project
  have three := Json.escapedBytes_le request.arguments.title
  have four := Json.escapedBytes_le request.arguments.body
  simp only [length_jsonBytes, ChildFrame.toJson, Json.byteSize_compact_object,
    Json.byteSize_compact_string, Json.byteSize_compact_number, List.map_cons,
    List.map_nil, List.sum_cons, List.sum_nil, List.length_cons,
    List.length_nil, version, names, encoded, EffectRequest.encodedBytes,
    messageFrameBytes]
  omega

/-- What the parent makes of a written request is what it makes of the request
alone. -/
theorem readChild_requestFrame {codec : Codec} (lawful : codec.Lawful)
    (messageId : UInt64) {request : EffectRequest}
    (valid : request.validate = .ok ()) {written : List UInt8}
    (sent : writeFrame
      (jsonBytes (ChildFrame.effectRequest 1 messageId request).toJson)
      messageFrameBytes = .ok written) (rest : List UInt8) :
    readChild codec (written ++ rest) =
        .ok (.effectRequest 1 messageId request, rest) ↔
      (jsonBytes request.toJson).length ≤ effectRequestBytes := by
  have parsed : codec.effectRequest (jsonBytes request.toJson) =
      some request := by
    rw [lawful.request, readJson_jsonBytes, Option.bind_some,
      EffectRequest.ofJson_toJson]
  have reread : EffectRequest.parse codec.effectRequest
      (jsonBytes request.toJson) = .ok request ↔
        (jsonBytes request.toJson).length ≤ effectRequestBytes := by
    rw [EffectRequest.parse_eq_ok_iff]
    exact ⟨fun all => all.1, fun fits => ⟨fits, parsed, valid⟩⟩
  rw [← reread]
  simp only [readChild, readFrameBytes_of_writeFrame sent rest,
    Except.ok_bind_eq, lawful.kind, Except.fetch_some,
    ChildFrame.kind, if_true,
    readEffectRequest, lawful.raw, Except.bind_eq_ok_iff,
    Except.require_eq_ok_iff, Except.mapError_eq_ok_iff,
    Except.pure_eq_ok_iff]
  constructor
  · rintro ⟨_, ⟨_, _, other, read, rfl⟩, _, _, _, _, same⟩
    simp only [Prod.mk.injEq, ChildFrame.effectRequest.injEq, true_and,
      and_true] at same
    rw [same] at read
    exact read
  · intro read
    refine ⟨_, ⟨(), trivial, request, read, rfl⟩, (), rfl, (), ?_, rfl⟩
    rw [ChildFrame.check, valid]
    rfl

theorem crosses_iff {codec : Codec} (lawful : codec.Lawful)
    (messageId : UInt64) {request : EffectRequest}
    (valid : request.validate = .ok ()) :
    Crosses codec messageId request ↔
      request.encodedBytes ≤ effectRequestBytes := by
  rw [← EffectRequest.length_jsonBytes_toJson valid, Crosses, lawful.written]
  constructor
  · rintro ⟨written, sent, received⟩
    exact (readChild_requestFrame lawful messageId valid sent []).mp
      (received [])
  · intro fits
    have small := length_requestFrame_le messageId valid
    have nonempty :
        jsonBytes (ChildFrame.effectRequest 1 messageId request).toJson ≠ [] := by
      apply List.ne_nil_of_length_pos
      rw [length_jsonBytes, ChildFrame.toJson, Json.byteSize_compact_object]
      omega
    have sent := writeFrame_eq_ok_iff.mpr ⟨⟨nonempty, small⟩,
      Nat.lt_of_le_of_lt small (by decide), rfl⟩
    exact ⟨_, sent, fun rest =>
      (readChild_requestFrame lawful messageId valid sent rest).mpr fits⟩

/-- Whatever a guest spells with the names of the fields reaches the parent. -/
theorem named_request_crosses {codec : Codec} (lawful : codec.Lawful)
    {bytes : List UInt8} {request : EffectRequest} {json : Json}
    (accepted : EffectRequest.parse codec.effectRequest bytes = .ok request)
    (read : readJson bytes = some json)
    (named : EffectRequest.SpelledWithNames json) (messageId : UInt64) :
    Crosses codec messageId request := by
  obtain ⟨small, found, valid⟩ := EffectRequest.parse_eq_ok_iff.mp accepted
  rw [lawful.request, read, Option.bind_some] at found
  rw [crosses_iff lawful messageId valid]
  calc request.encodedBytes
      ≤ Json.byteSize json.compact :=
        EffectRequest.encodedBytes_le_of_names valid found named
    _ ≤ bytes.length := byteSize_of_readJson read
    _ ≤ effectRequestBytes := small

/-- The parent takes a request the guest was allowed exactly when its compact
text is within the limit the guest's own text was held to. -/
theorem allowed_request_crosses_iff (codec : Codec) (lawful : codec.Lawful)
    (bytes : List UInt8) (request : EffectRequest)
    (accepted : EffectRequest.parse codec.effectRequest bytes = .ok request)
    (messageId : UInt64) :
    Crosses codec messageId request ↔
      request.encodedBytes ≤ effectRequestBytes := by
  obtain ⟨_, _, valid⟩ := EffectRequest.parse_eq_ok_iff.mp accepted
  exact crosses_iff lawful messageId valid

end Ipc

namespace Sample

/-- JSON by the grammar.  On a compact text the request is its own compact
text. -/
def codec : Ipc.Codec where
  effectRequest bytes := (readJson bytes).bind EffectRequest.ofJson
  effectReply _ := none
  childFrameText frame := jsonBytes frame.toJson
  kind bytes := (readJson bytes).map fun json =>
    match json with
    | .object members => (members.reverse.lookup "type").bind Json.asString
    | _ => none
  rawEffectRequest bytes := do
    let json ← readJson bytes
    match ← json.fields ["version", "type", "message_id", "request"] with
    | [version, kind, messageId, request] =>
        pure ⟨UInt8.ofNat (← version.asNat (2 ^ 8)), ← kind.asString,
          UInt64.ofNat (← messageId.asNat (2 ^ 64)), jsonBytes request⟩
    | _ => none
  childFrame _ := none
  base64 _ := ""
  fromBase64 _ := none

theorem codec_lawful : codec.Lawful where
  written _ := rfl
  kind frame := by
    simp only [codec, readJson_jsonBytes]
    cases frame <;> rfl
  raw version messageId request := by
    have first : (Json.number (.ofNat version.toNat)).asNat (2 ^ 8) =
        some version.toNat :=
      Json.asNat_ofNat version.toNat_lt
    have second : (Json.number (.ofNat messageId.toNat)).asNat (2 ^ 64) =
        some messageId.toNat :=
      Json.asNat_ofNat messageId.toNat_lt
    have fields :
        (Ipc.ChildFrame.effectRequest version messageId request).toJson.fields
          ["version", "type", "message_id", "request"] =
        some [.number (.ofNat version.toNat), .string "effect_request",
          .number (.ofNat messageId.toNat), request.toJson] :=
      rfl
    simp only [codec, readJson_jsonBytes, fields, first, second, Json.asString,
      Option.bind_eq_bind, Option.bind_some, UInt8.ofNat_toNat,
      UInt64.ofNat_toNat]
    rfl
  request _ := rfl

/-- A request with a body of line ends, which take two bytes each. -/
def lineEnds (count : Nat) : EffectRequest :=
  ⟨0, "ticket.create", "d",
    ⟨"p", "t", String.ofList (List.replicate count '\n')⟩⟩

theorem validate_lineEnds (count : Nat) (few : count ≤ 8192) :
    (lineEnds count).validate = .ok () := by
  have body : (utf8 (String.ofList (List.replicate count '\n'))).length =
      count := by
    have one : '\n'.utf8Size = 1 := by decide
    rw [length_utf8, String.toList_ofList]
    simp [Json.byteSize, one]
  have aliases : isAlias "d" = true ∧ isAlias "p" = true := by decide
  have title : ¬ (utf8 "t").isEmpty = true ∧ "t".length ≤ 200 ∧
      (utf8 "t").length ≤ 800 := by
    decide
  apply EffectRequest.validate_eq_ok_iff.mpr
  refine ⟨(by decide : (0 : UInt64) < maxEffects), rfl, aliases, title, ?_⟩
  rw [lineEnds, body]
  exact few

theorem encodedBytes_lineEnds (count : Nat) :
    (lineEnds count).encodedBytes = 106 + 2 * count := by
  have names : Json.escapedBytes "d" = 1 ∧ Json.escapedBytes "p" = 1 ∧
      Json.escapedBytes "t" = 1 := by
    decide
  have body : Json.escapedBytes (String.ofList (List.replicate count '\n')) =
      2 * count := by
    have two : Json.byteSize (Json.escape '\n') = 2 := by decide
    rw [Json.escapedBytes, String.toList_ofList]
    induction count with
    | zero => rfl
    | succ count ih =>
        rw [List.replicate_succ, List.flatMap_cons, Json.byteSize_append, ih,
          two]
        omega
  simp only [lineEnds, EffectRequest.encodedBytes, names, body]

/-- The guest may leave out the names of the fields. -/
theorem parse_toArray {request : EffectRequest}
    (valid : request.validate = .ok ())
    (fits : request.encodedBytes ≤ effectRequestBytes + 70) :
    EffectRequest.parse codec.effectRequest (jsonBytes request.toArray) =
      .ok request := by
  have shorter := EffectRequest.length_jsonBytes_toArray valid
  apply EffectRequest.parse_eq_ok_iff.mpr
  refine ⟨by omega, ?_, valid⟩
  rw [codec_lawful.request, readJson_jsonBytes, Option.bind_some,
    EffectRequest.ofJson_toArray]

end Sample

namespace Ipc

theorem allowed_request_crosses_iff_short :
    Crosses Sample.codec 7 (Sample.lineEnds 3) ∧
      (Sample.lineEnds 3).encodedBytes = 112 := by
  have sized := Sample.encodedBytes_lineEnds 3
  have accepted := Sample.parse_toArray
    (Sample.validate_lineEnds 3 (by decide)) (by rw [sized]; decide)
  refine ⟨?_, sized⟩
  apply (allowed_request_crosses_iff Sample.codec Sample.codec_lawful _ _
    accepted 7).mpr
  rw [sized]
  decide

/-- 8150 line ends in a text of 16336 bytes are 16406 bytes for the parent. -/
theorem positional_request_lost :
    EffectRequest.parse Sample.codec.effectRequest
        (jsonBytes (Sample.lineEnds 8150).toArray) =
      .ok (Sample.lineEnds 8150) ∧
    (jsonBytes (Sample.lineEnds 8150).toArray).length = 16336 ∧
    ¬ Crosses Sample.codec 1 (Sample.lineEnds 8150) := by
  have valid := Sample.validate_lineEnds 8150 (by decide)
  have sized := Sample.encodedBytes_lineEnds 8150
  have shorter := EffectRequest.length_jsonBytes_toArray valid
  refine ⟨Sample.parse_toArray valid (by rw [sized]; decide), by omega, ?_⟩
  rw [crosses_iff Sample.codec_lawful 1 valid, sized]
  decide

end Ipc

end EffectLatch
