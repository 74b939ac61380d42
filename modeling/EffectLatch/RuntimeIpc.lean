import EffectLatch.DomainHashing
import EffectLatch.RuntimeAbi

/-!
# The protocol between parent and runner

Frames, their length prefix and the parent's sequence state.  The JSON and
Base64 inside a frame are read and written by other crates, which are
parameters here.
-/

namespace EffectLatch

namespace Ipc

def startFrameBytes : Nat := 4 * 1024 * 1024

def messageFrameBytes : Nat := 128 * 1024

inductive ProtocolError where
  | io
  | frameSize
  | json
  | message
  | sequence
deriving DecidableEq

structure StartFrame where
  version : UInt8
  kind : String
  moduleB64 : String
  inputB64 : String
  limits : Limits
deriving DecidableEq

inductive ChildFrame where
  | effectRequest (version : UInt8) (messageId : UInt64)
      (request : EffectRequest)
  | log (version : UInt8) (message : String)
  | finish (version : UInt8) (outputB64 errorCode : Option String)
deriving DecidableEq

def ChildFrame.version : ChildFrame → UInt8
  | effectRequest version _ _ => version
  | log version _ => version
  | finish version _ _ => version

/-- A request frame whose request is still the text that was sent. -/
structure RawEffectRequestFrame where
  version : UInt8
  kind : String
  messageId : UInt64
  request : List UInt8

inductive EffectResponse where
  | committed (reply : Abi.EffectReply)
  | failed (code : Int32)
deriving DecidableEq

structure EffectResponseFrame where
  version : UInt8
  kind : String
  messageId : UInt64
  response : EffectResponse
deriving DecidableEq

def EffectResponseFrame.check (frame : EffectResponseFrame) :
    Except ProtocolError Unit := do
  Except.require (frame.version = 1 ∧ frame.kind = "effect_response") .message
  match frame.response with
  | .failed code => Except.require (-7 ≤ code ∧ code ≤ -3) .message
  | .committed _ => pure ()

/-- `serde_json` and Base64 as the protocol uses them.  `kind` is the text under
`type` when the body is a JSON value at all. -/
structure Codec extends Abi.Readers where
  childFrameText : ChildFrame → List UInt8
  kind : List UInt8 → Option (Option String)
  rawEffectRequest : List UInt8 → Option RawEffectRequestFrame
  childFrame : List UInt8 → Option ChildFrame
  base64 : List UInt8 → String
  fromBase64 : String → Option (List UInt8)

def canonicalBase64 (codec : Codec) (value : String) (maxBytes : Nat) :
    Except ProtocolError (List UInt8) := do
  Except.require ((utf8 value).length ≤ (maxBytes + 2) / 3 * 4) .frameSize
  let decoded ← Except.fetch (codec.fromBase64 value) .message
  Except.require (decoded.length ≤ maxBytes ∧ codec.base64 decoded = value)
    .message
  pure decoded

def StartFrame.check (codec : Codec) (start : StartFrame) :
    Except ProtocolError Unit := do
  Except.require (start.version = 1 ∧ start.kind = "start") .message
  let _ ← canonicalBase64 codec start.moduleB64 moduleBytes
  let _ ← canonicalBase64 codec start.inputB64 payloadBytes

def fromBigEndian (bytes : List UInt8) : Nat :=
  bytes.foldl (fun value byte => value * 256 + byte.toNat) 0

/-- Reads exactly one frame and leaves the rest of the stream.  The length is
rejected before the body is read. -/
def readFrameBytes (stream : List UInt8) (maximum : Nat) :
    Except ProtocolError (List UInt8 × List UInt8) := do
  Except.require (4 ≤ stream.length) .io
  let length := fromBigEndian (stream.take 4)
  Except.require (length ≠ 0 ∧ length ≤ maximum) .frameSize
  let after := stream.drop 4
  Except.require (length ≤ after.length) .io
  pure (after.take length, after.drop length)

/-- The bytes on the pipe for a body. -/
def writeFrame (body : List UInt8) (maximum : Nat) :
    Except ProtocolError (List UInt8) := do
  Except.require (body ≠ [] ∧ body.length ≤ maximum) .frameSize
  Except.require (body.length < 2 ^ 32) .frameSize
  pure (bigEndian 4 body.length ++ body)

def isErrorCode (code : String) : Bool :=
  !(utf8 code).isEmpty && (utf8 code).length ≤ 64 &&
    (utf8 code).all fun byte => isAsciiUppercase byte || byte == 0x5f

/-- What `read_child` asks of a frame after it is read. -/
def ChildFrame.check (codec : Codec) : ChildFrame → Except ProtocolError Unit
  | effectRequest _ _ request => request.validate.mapError fun _ => .message
  | log _ message =>
      Except.require ((utf8 message).length ≤ 16 * 1024) .message
  | finish _ outputB64 errorCode => do
      Except.require (outputB64 = none ∨ errorCode = none) .message
      match outputB64 with
      | some output => (canonicalBase64 codec output payloadBytes).map fun _ => ()
      | none => pure ()
      Except.require (errorCode.all isErrorCode = true) .message

def readEffectRequest (codec : Codec) (body : List UInt8) :
    Except ProtocolError ChildFrame := do
  let raw ← Except.fetch (codec.rawEffectRequest body) .json
  Except.require (raw.kind = "effect_request") .message
  let request ← (EffectRequest.parse codec.effectRequest raw.request).mapError
    fun _ => .message
  pure (.effectRequest raw.version raw.messageId request)

def readChild (codec : Codec) (stream : List UInt8) :
    Except ProtocolError (ChildFrame × List UInt8) := do
  let (body, rest) ← readFrameBytes stream messageFrameBytes
  let named ← Except.fetch (codec.kind body) .json
  let kind ← Except.fetch named .message
  let frame ←
    if kind = "effect_request" then readEffectRequest codec body
    else Except.fetch (codec.childFrame body) .json
  Except.require (frame.version = 1) .message
  frame.check codec
  pure (frame, rest)

/-- The codec with the texts of start frames. -/
structure StartCodec extends Codec where
  startFrameText : StartFrame → List UInt8
  startFrame : List UInt8 → Option StartFrame

def readStart (codec : StartCodec) (stream : List UInt8) :
    Except ProtocolError (StartFrame × List UInt8) := do
  let (body, rest) ← readFrameBytes stream startFrameBytes
  let start ← Except.fetch (codec.startFrame body) .json
  start.check codec.toCodec
  pure (start, rest)

/-- Parent-side state for one child. -/
structure ParentSequence where
  nextId : UInt64
  pending : Option UInt64
  finished : Bool
  logBytes : Nat
  logCap : Nat
  messages : Nat
deriving DecidableEq

namespace ParentSequence

def withLogCap (logCap : Nat) : Except ProtocolError ParentSequence := do
  Except.require (logCap ≠ 0 ∧ logCap ≤ 16 * 1024) .frameSize
  pure
    { nextId := 1
      pending := none
      finished := false
      logBytes := 0
      logCap := logCap
      messages := 0 }

/-- One more message, in saturating 32-bit arithmetic. -/
def counted (sequence : ParentSequence) : ParentSequence :=
  { sequence with messages := min (sequence.messages + 1) (2 ^ 32 - 1) }

/-- A frame arrives.  Finish and log cannot interleave an outstanding call. -/
def observe (sequence : ParentSequence) (frame : ChildFrame) :
    Except ProtocolError ParentSequence := do
  let counted := sequence.counted
  Except.require (counted.finished = false ∧ counted.messages ≤ 128) .sequence
  match frame with
  | .effectRequest _ messageId _ => do
      Except.require
        (counted.pending = none ∧ messageId = counted.nextId) .sequence
      Except.require (counted.nextId.toNat + 1 < 2 ^ 64) .sequence
      pure { counted with
        pending := some messageId
        nextId := counted.nextId + 1 }
  | .log _ message => do
      Except.require
        (counted.pending = none ∧
          (utf8 message).length ≤ counted.logCap - counted.logBytes) .sequence
      pure { counted with
        logBytes := counted.logBytes + (utf8 message).length }
  | .finish _ _ _ => do
      Except.require (counted.pending = none) .sequence
      pure { counted with finished := true }

/-- The response to the outstanding call is sent. -/
def respond (sequence : ParentSequence) (response : EffectResponseFrame) :
    Except ProtocolError ParentSequence := do
  response.check
  Except.require (sequence.pending = some response.messageId) .sequence
  pure { sequence with pending := none }

end ParentSequence

end Ipc

end EffectLatch
