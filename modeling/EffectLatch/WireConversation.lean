import EffectLatch.AbiSteps
import EffectLatch.ResponseTransport
import EffectLatch.RunnerSequencing
import Mathlib.Algebra.Order.BigOperators.Group.List

/-!
# The conversation on its pipes

Runner and parent exchange bytes.  The host calls keep what a guest says within
the limits of the frames, but a request that is written longer than the guest
spelled it and a long ticket identifier in an answer can be beyond them, and
nothing else can.
-/

namespace EffectLatch

namespace Abi

variable {readers : Readers} {dispatcher : Dispatcher} {state next : State}
  {memory : Memory} {made : GuestCall} {reaction : Reaction}

/-- The output and the requests of an invocation are within the limits the host
calls check. -/
structure Limited (state : State) : Prop where
  output : ∀ bytes ∈ state.output, bytes.length ≤ payloadBytes
  requests : ∀ request ∈ state.dispatched.map Prod.fst,
    request.validate = .ok ()

theorem limited_initial (input : List UInt8) (maxEffects : UInt64)
    (caps : AbiCaps) : Limited (initial input maxEffects caps) := by
  constructor <;> simp [initial]

/-- Only one host call changes the output. -/
theorem HostStep.output
    (step : HostStep readers dispatcher state made reaction next) :
    next.output = state.output ∨ ∃ ptr len, made.call = .outputWrite ptr len := by
  cases step with
  | wrote clear called => exact .inr ⟨_, _, called⟩
  | delivered =>
      left
      unfold State.replied
      dsimp only
      split <;> rfl
  | _ => exact .inl rfl

/-- A dispatched request passed its checks. -/
theorem HostStep.requests
    (step : HostStep readers dispatcher state made reaction next) :
    next.dispatched = state.dispatched ∨
      ∃ request answer, next.dispatched =
          state.dispatched ++ [(request, answer)] ∧
        request.validate = .ok () := by
  have valid : ∀ {request : EffectRequest} {respPtr respCap : Int32},
      Requested readers state made request respPtr respCap →
      request.validate = .ok () := by
    rintro request respPtr respCap ⟨_, _, _, checked⟩
    simp only [effectRequest, Except.bind_eq_ok_iff,
      Except.mapError_eq_ok_iff, Except.pure_eq_ok_iff] at checked
    obtain ⟨_, _, _, _, _, _, _, parsed, _, _, rfl⟩ := checked
    exact (EffectRequest.parse_eq_ok_iff.mp parsed).2.2
  cases step with
  | lost clear requested => exact .inr ⟨_, _, rfl, valid requested⟩
  | @delivered request _ _ response _ clear requested =>
      right
      refine ⟨request, .ok response, ?_, valid requested⟩
      unfold State.replied
      dsimp only
      split <;> rfl
  | _ => exact .inl rfl

theorem length_output_outputWrite {ptr len : Int32}
    (few : ∀ bytes ∈ state.output, bytes.length ≤ payloadBytes) :
    ∀ bytes ∈ (outputWrite state memory ptr len).2.output,
      bytes.length ≤ payloadBytes := by
  unfold outputWrite
  rcases metered_cases state memory _ with
    ⟨code, refused⟩ | ⟨_, _, _, continued⟩
  · rw [refused]
    exact few
  · rw [continued]
    split
    · exact few
    · split
      · exact few
      · next sized =>
        split
        · exact few
        · next copied copiedEq =>
          intro bytes member
          obtain rfl : copied = bytes := Option.some.inj member
          rw [length_of_read copiedEq]
          omega

/-- Every host call keeps the limits. -/
theorem Limited.perform (limited : Limited state) (readers : Readers)
    (dispatcher : Dispatcher) (made : GuestCall) :
    Limited (perform readers dispatcher state made).2 := by
  have step := perform_step readers dispatcher state made
  constructor
  · rcases step.output with same | ⟨ptr, len, called⟩
    · rw [same]
      exact limited.output
    · rw [Abi.perform, called]
      exact length_output_outputWrite limited.output
  · rcases step.requests with same | ⟨request, answer, same, valid⟩
    · rw [same]
      exact limited.requests
    · rw [same, List.map_append]
      intro other member
      rcases List.mem_append.mp member with earlier | last
      · exact limited.requests other earlier
      · obtain rfl : other = request := List.mem_singleton.mp last
        exact valid

theorem Limited.interact (limited : Limited state) (readers : Readers)
    (dispatcher : Dispatcher) (calls : List GuestCall) :
    Limited (interact readers dispatcher state calls).2 := by
  induction calls generalizing state with
  | nil => exact limited
  | cons made rest ih =>
      have next := limited.perform readers dispatcher made
      unfold Abi.interact
      dsimp only
      split
      · exact next
      · exact ih next

end Abi

namespace Ipc

variable {α : Type} {text : α → List UInt8} {maximum : Nat}
  {reader : List UInt8 → Except ProtocolError (α × List UInt8)}

/-- Read frames one after the other. -/
def readMany (reader : List UInt8 → Except ProtocolError (α × List UInt8)) :
    Nat → List UInt8 → Except ProtocolError (List α × List UInt8)
  | 0, stream => pure ([], stream)
  | count + 1, stream => do
      let (frame, after) ← reader stream
      let (later, rest) ← readMany reader count after
      pure (frame :: later, rest)

/-- The frames are written and read as one stream. -/
def Carried (text : α → List UInt8) (maximum : Nat)
    (reader : List UInt8 → Except ProtocolError (α × List UInt8))
    (frames : List α) : Prop :=
  ∃ written,
    frames.mapM (fun frame => writeFrame (text frame) maximum) = .ok written ∧
    ∀ rest, readMany reader frames.length (written.flatten ++ rest) =
      .ok (frames, rest)

/-- A reader takes one written frame and nothing of what follows. -/
def Framed (maximum : Nat)
    (reader : List UInt8 → Except ProtocolError (α × List UInt8)) : Prop :=
  ∀ body written, writeFrame body maximum = .ok written →
    ∃ parsed : Except ProtocolError α, ∀ rest,
      reader (written ++ rest) = (fun frame => (frame, rest)) <$> parsed

theorem framed_readChild (codec : Codec) :
    Framed messageFrameBytes (readChild codec) := by
  intro body written sent
  refine ⟨do
    let named ← Except.fetch (codec.kind body) .json
    let kind ← Except.fetch named .message
    let frame ←
      if kind = "effect_request" then readEffectRequest codec body
      else Except.fetch (codec.childFrame body) .json
    Except.require (frame.version = 1) .message
    frame.check codec
    pure frame, fun rest => ?_⟩
  simp only [readChild, readFrameBytes_of_writeFrame sent rest,
    Except.ok_bind_eq, map_bind,
    apply_ite (Functor.map fun frame : ChildFrame => (frame, rest))]
  rfl

theorem framed_readResponse (codec : WireCodec) :
    Framed messageFrameBytes (readResponse codec) := by
  intro body written sent
  refine ⟨do
    let frame ← Except.fetch (codec.response body) .json
    frame.check
    pure frame, fun rest => ?_⟩
  simp only [readResponse, readFrameBytes_of_writeFrame sent rest,
    Except.ok_bind_eq, map_bind]
  rfl

/-- A stream carries frames exactly when each of them returns. -/
theorem carried_iff (framed : Framed maximum reader) {frames : List α} :
    Carried text maximum reader frames ↔
      ∀ frame ∈ frames, Returns (text frame) maximum reader frame := by
  induction frames with
  | nil =>
      constructor
      · simp
      · intro _
        exact ⟨[], rfl, fun rest => rfl⟩
  | cons frame later ih =>
      rw [List.forall_mem_cons, ← ih]
      constructor
      · rintro ⟨written, sent, read⟩
        rw [List.mapM_cons] at sent
        simp only [Except.bind_eq_ok_iff, Except.pure_eq_ok_iff] at sent
        obtain ⟨first, firstSent, others, othersSent, rfl⟩ := sent
        obtain ⟨parsed, reads⟩ := framed _ _ firstSent
        have split : ∀ rest, parsed = .ok frame ∧
            readMany reader later.length (others.flatten ++ rest) =
              .ok (later, rest) := by
          intro rest
          have whole := read rest
          rw [List.length_cons, List.flatten_cons, List.append_assoc, readMany,
            reads] at whole
          simp only [Except.bind_eq_ok_iff, Except.pure_eq_ok_iff] at whole
          obtain ⟨⟨one, after⟩, taken, ⟨more, last⟩, others, same⟩ := whole
          cases parsed with
          | error failure => simp at taken
          | ok value =>
              simp only [Except.map_ok, Except.ok.injEq, Prod.mk.injEq]
                at taken same
              obtain ⟨rfl, rfl⟩ := taken
              simp only [List.cons.injEq] at same
              obtain ⟨⟨rfl, rfl⟩, rfl⟩ := same
              exact ⟨rfl, others⟩
        refine ⟨⟨first, firstSent, fun rest => ?_⟩, others, othersSent,
          fun rest => (split rest).2⟩
        rw [reads, (split rest).1]
        rfl
      · rintro ⟨⟨first, firstSent, returns⟩, others, othersSent, read⟩
        refine ⟨first :: others, ?_, fun rest => ?_⟩
        · rw [List.mapM_cons, firstSent, Except.ok_bind_eq, othersSent]
          rfl
        · rw [List.length_cons, List.flatten_cons, List.append_assoc, readMany,
            returns, Except.ok_bind_eq]
          dsimp only
          rw [read]
          rfl

end Ipc

namespace Runner

open Ipc Supervision

/-- What an execution asks and returns is within the limits. -/
theorem execute_limited (readers : Abi.Readers) (writers : Writers)
    (broker : Broker) (caps : Abi.AbiCaps) (job : Job) :
    (∀ request ∈ requests (execute readers writers broker caps job).1,
        request.validate = .ok ()) ∧
      ∀ outcome, (execute readers writers broker caps job).2 = .ok outcome →
        ∀ bytes ∈ outcome.output, bytes.length ≤ payloadBytes := by
  unfold execute
  cases job.compiled with
  | error failure => simp [requests]
  | ok done =>
      dsimp only
      unfold Abi.executeAbi
      by_cases sized : payloadBytes < job.input.length
      · simp [sized, requests]
      · rw [if_neg sized]
        cases caps.validate with
        | error failure => simp [requests]
        | ok caps =>
            dsimp only
            have limited := (Abi.limited_initial job.input job.maxEffects
              caps).interact readers (ipcDispatcher writers broker)
                job.guest.calls
            have last := Abi.interact_last readers
              (ipcDispatcher writers broker)
              (Abi.initial job.input job.maxEffects caps) job.guest.calls
            generalize Abi.interact readers (ipcDispatcher writers broker)
              (Abi.initial job.input job.maxEffects caps)
              job.guest.calls = ran at limited last ⊢
            obtain ⟨events, final⟩ := ran
            have asked : requests events = final.dispatched.map Prod.fst := by
              rw [requests, ← last]
              rfl
            dsimp only at limited ⊢
            cases final.sticky with
            | some code =>
                rw [asked]
                exact ⟨limited.requests, by simp⟩
            | none =>
                rw [asked]
                refine ⟨limited.requests, ?_⟩
                intro outcome returned
                obtain ⟨_, _, rfl⟩ := Except.map_eq_ok_iff.mp returned
                exact limited.output

def Message.answer? : Message → Option EffectResponseFrame
  | sent _ => none
  | answered frame => some frame

/-- Both pipes carry these messages. -/
def Transmits (codec : WireCodec) (messages : List Message) : Prop :=
  Carried codec.childFrameText messageFrameBytes (readChild codec.toCodec)
      (messages.filterMap Message.frame?) ∧
    Carried codec.responseText messageFrameBytes (readResponse codec)
      (messages.filterMap Message.answer?)

/-- The only sizes of a conversation that may be beyond the protocol's. -/
def Message.Fits : Message → Prop
  | .sent (.effectRequest _ _ request) =>
      request.encodedBytes ≤ effectRequestBytes
  | .sent _ => True
  | .answered frame => (jsonBytes frame.toJson).length ≤ messageFrameBytes

/-- What the two sides make sure of before they write a message. -/
inductive Message.Sound (codec : Codec) : Message → Prop
  | request {messageId : UInt64} {request : EffectRequest}
      (valid : request.validate = .ok ()) :
      Sound codec (.sent (.effectRequest 1 messageId request))
  | log {message : String} (short : (utf8 message).length ≤ 16 * 1024) :
      Sound codec (.sent (.log 1 message))
  | finish {output : Option (List UInt8)}
      (few : ∀ bytes ∈ output, bytes.length ≤ payloadBytes) :
      Sound codec (.sent (.finish 1 (output.map codec.base64) none))
  | failure {code : String} (named : isErrorCode code = true) :
      Sound codec (.sent (.finish 1 none (some code)))
  | answer {frame : EffectResponseFrame} (checked : frame.check = .ok ()) :
      Sound codec (.answered frame)

variable {codec : WireCodec} {readers : Abi.Readers} {broker : Broker}
  {caps : Abi.AbiCaps} {job : Job}

theorem failure_returns (standard : codec.Standard) {code : String}
    (named : isErrorCode code = true) :
    Returns (codec.childFrameText (.finish 1 none (some code)))
      messageFrameBytes (readChild codec.toCodec)
      (.finish 1 none (some code)) := by
  have checked : (ChildFrame.finish 1 none (some code)).check codec.toCodec =
      .ok () := by
    simp only [ChildFrame.check, Option.all_some, named]
    rfl
  refine child_returns standard.frames (by simp [ChildFrame.kind]) rfl checked
    ⟨_, rfl⟩ ?_
  have short : (utf8 code).length ≤ 64 := by
    simp only [isErrorCode, Bool.and_eq_true, decide_eq_true_eq] at named
    exact named.1.2
  have escaped := Json.escapedBytes_le code
  rw [← length_utf8] at escaped
  simp only [length_jsonBytes, ChildFrame.toJson, Option.map_none,
    Option.map_some, Option.getD_none, Option.getD_some,
    Json.byteSize_compact_object, Json.byteSize_compact_string,
    Json.byteSize_compact_number, List.map_cons, List.map_nil, List.sum_cons,
    List.sum_nil, List.length_cons, List.length_nil, escapedBytes_frame,
    messageFrameBytes]
  omega

/-- Sound messages are transmitted exactly when they all fit. -/
theorem transmits_iff_fits (standard : codec.Standard) {messages : List Message}
    (sound : ∀ message ∈ messages, message.Sound codec.toCodec) :
    Transmits codec messages ↔ ∀ message ∈ messages, message.Fits := by
  rw [Transmits, carried_iff (framed_readChild codec.toCodec),
    carried_iff (framed_readResponse codec)]
  have each : ∀ message ∈ messages,
      (∀ frame ∈ message.frame?, Returns (codec.childFrameText frame)
          messageFrameBytes (readChild codec.toCodec) frame) ∧
        (∀ frame ∈ message.answer?, Returns (codec.responseText frame)
          messageFrameBytes (readResponse codec) frame) ↔ message.Fits := by
    intro message member
    cases sound message member with
    | @request messageId request valid =>
        have crosses : Returns _ _ _ _ ↔ _ :=
          crosses_iff standard.frames.lawful messageId valid
        simpa [Message.frame?, Message.answer?, Message.Fits] using crosses
    | log short =>
        have returns := log_returns standard.frames short
        simpa [Message.frame?, Message.answer?, Message.Fits] using returns
    | finish few =>
        have returns := finish_returns standard.frames few
        simpa [Message.frame?, Message.answer?, Message.Fits] using returns
    | failure named =>
        have returns := failure_returns standard named
        simpa [Message.frame?, Message.answer?, Message.Fits] using returns
    | answer checked =>
        have returns := response_returns_iff standard checked
        simpa [Message.frame?, Message.answer?, Message.Fits] using returns
  simp only [List.mem_filterMap]
  constructor
  · rintro ⟨frames, answers⟩ message member
    apply (each message member).mp
    exact ⟨fun frame found => frames frame ⟨message, member, found⟩,
      fun frame found => answers frame ⟨message, member, found⟩⟩
  · intro fits
    constructor
    · rintro frame ⟨message, member, found⟩
      exact ((each message member).mpr (fits message member)).1 frame found
    · rintro frame ⟨message, member, found⟩
      exact ((each message member).mpr (fits message member)).2 frame found

theorem isErrorCode_abiErrorCode (failure : Abi.AbiError) :
    isErrorCode (abiErrorCode failure) = true := by
  cases failure with
  | inputSize => decide
  | invalidCaps => decide
  | violation code => cases code <;> decide
  | runtime _ => exact (by decide : isErrorCode "RUNTIME_FAILURE" = true)

theorem sound_exchange (broker : Broker) (codec : WireCodec)
    (rest : List EffectRequest)
    (valid : ∀ request ∈ rest, request.validate = .ok ()) :
    ∀ earlier, ∀ message ∈ (exchange broker earlier rest).1,
      message.Sound codec.toCodec := by
  induction rest with
  | nil => simp [exchange]
  | cons request rest ih =>
      rw [List.forall_mem_cons] at valid
      intro earlier message member
      unfold exchange at member
      split at member
      · obtain rfl := List.mem_singleton.mp member
        exact .request valid.1
      · next frame built =>
        rcases List.mem_cons.mp member with rfl | member
        · exact .request valid.1
        · rcases List.mem_cons.mp member with rfl | member
          · exact .answer (check_responseFrame built)
          · exact ih valid.2 _ message member

/-- What an honest runner and its parent say to each other is sound. -/
theorem sound_conversation (valid : caps.validate = .ok caps) :
    ∀ message ∈ conversation readers codec.writers broker caps job,
      message.Sound codec.toCodec := by
  obtain ⟨requested, returned⟩ :=
    execute_limited readers codec.writers broker caps job
  obtain ⟨_, bounded⟩ :=
    execute_bounded readers codec.writers broker job valid
  have exchanged := sound_exchange broker codec _ requested []
  intro message member
  unfold conversation at member
  dsimp only at member
  split at member
  · rcases List.mem_append.mp member with early | late
    · exact exchanged message early
    · obtain ⟨frame, closed, rfl⟩ := List.mem_map.mp late
      generalize executed : (execute readers codec.writers broker caps job).2 =
        result at closed returned bounded
      cases result with
      | error failure =>
          obtain rfl := List.mem_singleton.mp closed
          exact .failure (isErrorCode_abiErrorCode failure)
      | ok outcome =>
          rcases List.mem_append.mp closed with logged | last
          · obtain ⟨log, kept, rfl⟩ := List.mem_map.mp logged
            have total := (bounded outcome rfl).2
            have one : (utf8 log).length ≤
                (outcome.logs.map fun log => (utf8 log).length).sum :=
              List.le_sum_of_mem (List.mem_map_of_mem kept)
            have cap := (valid_caps valid).2.2
            exact .log (by omega)
          · obtain rfl := List.mem_singleton.mp last
            exact .finish (returned outcome rfl)
  · exact exchanged message member

/-- At every moment of the conversation of an honest runner, what was written
on the two pipes is read back as the frames that were said, exactly when every
request of the execution is short enough as the runner writes it and every
answer fits a frame. -/
theorem conversation_transmits_iff (codec : WireCodec)
    (standard : codec.Standard) (readers : Abi.Readers) (broker : Broker)
    (caps : Abi.AbiCaps) (valid : caps.validate = .ok caps) (job : Job) :
    (∀ count, Transmits codec
        ((conversation readers codec.writers broker caps job).take count)) ↔
      ∀ message ∈ conversation readers codec.writers broker caps job,
        message.Fits := by
  have sound : ∀ message ∈
      conversation readers codec.writers broker caps job,
      message.Sound codec.toCodec := sound_conversation valid
  constructor
  · intro transmits
    have whole := transmits
      (conversation readers codec.writers broker caps job).length
    rw [List.take_length] at whole
    exact (transmits_iff_fits standard sound).mp whole
  · intro fits count
    apply (transmits_iff_fits standard ?_).mpr
    · intro message member
      exact fits message (List.mem_of_mem_take member)
    · intro message member
      exact sound message (List.mem_of_mem_take member)

/-- An effect with its answer, one log and a return. -/
theorem conversation_transmits_iff_answered :
    Transmits Sample.wireCodec
      (conversation Sample.readers Sample.wireCodec.writers Sample.broker
        ⟨4, 16⟩ Sample.job) := by
  have fits := (conversation_transmits_iff Sample.wireCodec
    Sample.wireCodec_standard Sample.readers Sample.broker ⟨4, 16⟩
    (Except.eq_ok_of_toOption (by decide)) Sample.job).mpr
  rw [conversation_sample] at fits ⊢
  have asked : Sample.effectRequest.encodedBytes ≤ effectRequestBytes := by
    decide +kernel
  have answered : (jsonBytes (EffectResponseFrame.toJson
      ⟨1, "effect_response", 1, .committed Sample.effectReply⟩)).length ≤
      messageFrameBytes := by
    decide +kernel
  exact fits (by simp [Message.Fits, asked, answered]) 4

end Runner

end EffectLatch
