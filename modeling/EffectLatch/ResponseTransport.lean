import EffectLatch.FrameRoundTrips
import EffectLatch.RuntimeRunner

/-!
# Effect responses on their way to the runner

The parent writes a response frame as JSON, and the runner's input thread reads
and checks it.  What limits a response is the size of its frame alone.
-/

namespace EffectLatch

namespace Abi

def EffectReply.toJson (reply : EffectReply) : Json :=
  .object
    [("ordinal", .number (.ofNat reply.ordinal.toNat)),
      ("state", .string "COMMITTED"),
      ("response", .object
        [("ticket_id", .string reply.response.ticketId),
          ("project", .string reply.response.project)]),
      ("replayed", .bool reply.replayed)]

end Abi

namespace Ipc

/-- A response names its status among its own fields. -/
def EffectResponse.toJson : EffectResponse → Json
  | committed reply =>
      .object [("status", .string "committed"), ("reply", reply.toJson)]
  | failed code =>
      .object
        [("status", .string "failed"), ("code", .number (.ofInt code.toInt))]

def EffectResponseFrame.toJson (frame : EffectResponseFrame) : Json :=
  .object
    [("version", .number (.ofNat frame.version.toNat)),
      ("type", .string frame.kind),
      ("message_id", .number (.ofNat frame.messageId.toNat)),
      ("response", frame.response.toJson)]

/-- The codec of both directions of the protocol. -/
structure WireCodec extends StartCodec where
  effectReplyText : Abi.EffectReply → List UInt8
  responseText : EffectResponseFrame → List UInt8
  response : List UInt8 → Option EffectResponseFrame

/-- The writers the runner uses. -/
def WireCodec.writers (codec : WireCodec) : Runner.Writers where
  base64 := codec.base64
  effectReply := codec.effectReplyText

structure WireCodec.Standard (codec : WireCodec) : Prop where
  frames : codec.toStartCodec.Standard
  responseText : ∀ frame, codec.responseText frame = jsonBytes frame.toJson
  response : ∀ frame : EffectResponseFrame,
    codec.response (jsonBytes frame.toJson) = some frame

/-- What the runner's input thread reads. -/
def readResponse (codec : WireCodec) (stream : List UInt8) :
    Except ProtocolError (EffectResponseFrame × List UInt8) := do
  let (body, rest) ← readFrameBytes stream messageFrameBytes
  let frame ← Except.fetch (codec.response body) .json
  frame.check
  pure (frame, rest)

variable {codec : WireCodec} {frame : EffectResponseFrame}

/-- A checked response that was written is read as it was. -/
theorem readResponse_of_writeFrame (standard : codec.Standard)
    (checked : frame.check = .ok ()) {written : List UInt8}
    (sent : writeFrame (codec.responseText frame) messageFrameBytes =
      .ok written) (rest : List UInt8) :
    readResponse codec (written ++ rest) = .ok (frame, rest) := by
  rw [standard.responseText] at sent
  simp only [readResponse, readFrameBytes_of_writeFrame sent rest,
    Except.ok_bind_eq, standard.response, Except.fetch_some, checked]
  rfl

/-- A checked response crosses exactly when its frame fits. -/
theorem response_returns_iff (standard : codec.Standard)
    (checked : frame.check = .ok ()) :
    Returns (codec.responseText frame) messageFrameBytes (readResponse codec)
        frame ↔
      (jsonBytes frame.toJson).length ≤ messageFrameBytes := by
  constructor
  · rintro ⟨written, sent, _⟩
    rw [standard.responseText] at sent
    exact (writeFrame_eq_ok_iff.mp sent).1.2
  · intro fits
    obtain ⟨written, sent⟩ :=
      writeFrame_jsonBytes frame.toJson ⟨_, rfl⟩ (by decide) fits
    rw [← standard.responseText] at sent
    exact ⟨written, sent, readResponse_of_writeFrame standard checked sent⟩

end Ipc

namespace Sample

open Ipc

def replyOfJson (json : Json) : Option Abi.EffectReply := do
  match ← json.fields ["ordinal", "state", "response", "replayed"] with
  | [ordinal, .string "COMMITTED", response, .bool replayed] =>
      match ← response.fields ["ticket_id", "project"] with
      | [ticket, project] =>
          pure ⟨UInt64.ofNat (← ordinal.asNat (2 ^ 64)),
            ⟨← ticket.asString, ← project.asString⟩, replayed⟩
      | _ => none
  | _ => none

def responseOfJson (json : Json) : Option EffectResponse :=
  match json with
  | .object members => do
      let status ← (← members.lookup "status").asString
      if status = "committed" then
        pure (.committed (← replyOfJson (← members.lookup "reply")))
      else if status = "failed" then
        pure (.failed (Int32.ofInt
          (← (← members.lookup "code").asInt (-2 ^ 31) (2 ^ 31 - 1))))
      else none
  | _ => none

def responseFrameOfJson (json : Json) : Option EffectResponseFrame := do
  match ← json.fields ["version", "type", "message_id", "response"] with
  | [version, kind, messageId, response] =>
      pure ⟨UInt8.ofNat (← version.asNat (2 ^ 8)), ← kind.asString,
        UInt64.ofNat (← messageId.asNat (2 ^ 64)), ← responseOfJson response⟩
  | _ => none

def wireCodec : WireCodec where
  toStartCodec := startCodec
  effectReplyText reply := jsonBytes reply.toJson
  responseText frame := jsonBytes frame.toJson
  response bytes := (readJson bytes).bind responseFrameOfJson

theorem replyOfJson_toJson (reply : Abi.EffectReply) :
    replyOfJson reply.toJson = some reply := by
  have ordinal (value : UInt64) :
      (Json.number (.ofNat value.toNat)).asNat (2 ^ 64) = some value.toNat :=
    Json.asNat_ofNat value.toNat_lt
  simp [-Nat.reducePow, replyOfJson, Abi.EffectReply.toJson, Json.fields,
    List.lookup_cons, ordinal, Json.asString]

theorem responseOfJson_toJson (response : EffectResponse) :
    responseOfJson response.toJson = some response := by
  cases response with
  | committed reply =>
      simp [responseOfJson, EffectResponse.toJson, List.lookup_cons,
        Json.asString, replyOfJson_toJson]
  | failed code =>
      have read : (Json.number (.ofInt code.toInt)).asInt (-2 ^ 31)
          (2 ^ 31 - 1) = some code.toInt :=
        Json.asInt_ofInt code.le_toInt (Int.le_sub_one_of_lt code.toInt_lt)
      simp [-Int.reducePow, -Int.reduceNeg, -Int.reduceSub, responseOfJson,
        EffectResponse.toJson, List.lookup_cons, Json.asString, read]

theorem wireCodec_standard : wireCodec.Standard where
  frames := startCodec_standard
  responseText _ := rfl
  response frame := by
    have version (value : UInt8) :
        (Json.number (.ofNat value.toNat)).asNat (2 ^ 8) = some value.toNat :=
      Json.asNat_ofNat value.toNat_lt
    have messageId (value : UInt64) :
        (Json.number (.ofNat value.toNat)).asNat (2 ^ 64) =
          some value.toNat :=
      Json.asNat_ofNat value.toNat_lt
    change (readJson (jsonBytes frame.toJson)).bind responseFrameOfJson =
      some frame
    rw [readJson_jsonBytes]
    simp [-Nat.reducePow, responseFrameOfJson, EffectResponseFrame.toJson,
      Json.fields, List.lookup_cons, version, messageId, Json.asString,
      responseOfJson_toJson]

end Sample

end EffectLatch
