import EffectLatch.RuntimeIpc

/-!
# Supervision of one runner

The polling loop of the parent.  Its surroundings act at any time between two
of its steps: a broker call in flight returns, the clock and the lease move,
and the child sends what it wants.  A run is a list of such occurrences.
-/

namespace EffectLatch

namespace Supervision

open Ipc

inductive LeaseState where
  | current
  | cancelled
  | lost
deriving DecidableEq

inductive BrokerError where
  | cancelled
  | leaseLost
  | effect (failure : Abi.DispatchFailure)
deriving DecidableEq

abbrev BrokerResult := Except BrokerError Abi.EffectReply

structure SupervisedOutcome where
  output : Option (List UInt8)
  logs : List String
deriving DecidableEq

inductive SupervisorError where
  | io
  | protocol (error : ProtocolError)
  | deadline
  | cancelled
  | leaseLost
  | runnerFailure (code : String)
  | childExit (code : Option Int)
  | brokerResponse
deriving DecidableEq

def validReply (request : EffectRequest) (reply : Abi.EffectReply) : Bool :=
  reply.ordinal == request.ordinal &&
    reply.response.project == request.arguments.project &&
    !(utf8 reply.response.ticketId).isEmpty

def dispatchCode : Abi.DispatchFailure → Int32
  | .policy => -3
  | .unresolved => -4
  | .replayDivergence => -5
  | .unavailable => -7

/-- The response to a broker result, unless the run ends with it. -/
def brokerResponse (request : EffectRequest) :
    BrokerResult → Except SupervisorError EffectResponse
  | .ok reply =>
      if validReply request reply then .ok (.committed reply)
      else .error .brokerResponse
  | .error .cancelled => .error .cancelled
  | .error .leaseLost => .error .leaseLost
  | .error (.effect failure) => .ok (.failed (dispatchCode failure))

def responseFrame (messageId : UInt64) (request : EffectRequest)
    (result : BrokerResult) : Except SupervisorError EffectResponseFrame := do
  let response ← brokerResponse request result
  pure
    { version := 1
      kind := "effect_response"
      messageId := messageId
      response := response }

/-- A request handed to the broker. -/
structure Dispatch where
  messageId : UInt64
  request : EffectRequest
deriving DecidableEq

/-- Where the loop stands: at the head of an iteration, or before it receives
from the child. -/
inductive Phase where
  | head
  | receiving
deriving DecidableEq

/-- The variables of the loop and its channels, with a record of what was
observed, dispatched and written. -/
structure State where
  phase : Phase
  sequence : ParentSequence
  logs : List String
  dispatchPending : Bool
  /-- Broker calls that have not returned. -/
  inFlight : List Dispatch
  /-- Results in the channel to the loop. -/
  results : List (Dispatch × BrokerResult)
  observed : List ChildFrame
  dispatched : List Dispatch
  responses : List EffectResponseFrame

/-- How the child exited. -/
structure ExitStatus where
  success : Bool
  code : Option Int

/-- What the loop receives from the child's output. -/
inductive Arrival where
  | frame (frame : ChildFrame)
  | failed (error : ProtocolError)
  | timeout
  | disconnected

/-- The system calls around a received frame: whether a thread could be
spawned, the exit status unless waiting failed, and whether the process group
was killed. -/
structure Surroundings where
  spawned : Bool
  status : Option ExitStatus
  disarmed : Bool

/-- Something happens: a broker call in flight returns or dies without a
result, or the loop takes its next step. -/
inductive Occurrence where
  | returned (position : Nat) (result : BrokerResult)
  | vanished (position : Nat)
  | polled (lease : LeaseState) (expired : Bool)
      (written : Except SupervisorError Unit)
  | received (arrival : Arrival) (surroundings : Surroundings)

/-- A run that goes on, or the result it returned with its last state. -/
structure Run where
  state : State
  result : Option (Except SupervisorError SupervisedOutcome)

namespace State

def goOn (state : State) : Run := ⟨state, none⟩

def fail (state : State) (error : SupervisorError) : Run :=
  ⟨state, some (.error error)⟩

/-- Answer the broker result that was received.  `written` is what encoding the
frame and writing it to the child gave. -/
def answer (state : State) (dispatch : Dispatch) (result : BrokerResult)
    (written : Except SupervisorError Unit) : Run :=
  let taken := { state with dispatchPending := false }
  match responseFrame dispatch.messageId dispatch.request result with
  | .error error => taken.fail error
  | .ok frame =>
      match taken.sequence.respond frame with
      | .error error => taken.fail (.protocol error)
      | .ok sequence =>
          let responded := { taken with
            sequence := sequence
            responses := taken.responses ++ [frame] }
          match written with
          | .error error => responded.fail error
          | .ok _ => ({ responded with phase := .receiving } : State).goOn

/-- The first half of an iteration: lease, deadline and broker results. -/
def poll (state : State) (lease : LeaseState) (expired : Bool)
    (written : Except SupervisorError Unit) : Run :=
  match lease with
  | .cancelled => state.fail .cancelled
  | .lost => state.fail .leaseLost
  | .current =>
      if expired then
        state.fail .deadline
      else if state.dispatchPending then
        -- the loop holds a sender itself, so the channel never disconnects
        match state.results with
        | [] => ({ state with phase := .receiving } : State).goOn
        | (dispatch, result) :: rest =>
            ({ state with results := rest } : State).answer dispatch result
              written
      else
        ({ state with phase := .receiving } : State).goOn

/-- Hand a request to the broker in a thread of its own. -/
def dispatch (state : State) (messageId : UInt64) (request : EffectRequest)
    (surroundings : Surroundings) : Run :=
  if state.dispatchPending then
    state.fail (.protocol .sequence)
  else if surroundings.spawned = false then
    ({ state with dispatchPending := true } : State).fail .io
  else
    ({ state with
      phase := .head
      dispatchPending := true
      inFlight := state.inFlight ++ [⟨messageId, request⟩]
      dispatched := state.dispatched ++ [⟨messageId, request⟩] } : State).goOn

/-- The child finished: wait for it and return its output. -/
def conclude (decode : String → Option (List UInt8)) (state : State)
    (outputB64 errorCode : Option String) (surroundings : Surroundings) : Run :=
  if state.dispatchPending then
    state.fail (.protocol .sequence)
  else
    match surroundings.status with
    | none => state.fail .io
    | some status =>
        if status.success = false then
          state.fail (.childExit status.code)
        else
          match errorCode with
          | some code => state.fail (.runnerFailure code)
          | none =>
              match outputB64.mapM decode with
              | none => state.fail (.protocol .message)
              | some output =>
                  if surroundings.disarmed = false then
                    state.fail .io
                  else
                    ⟨state, some (.ok ⟨output, state.logs⟩)⟩

/-- The second half of an iteration: one frame, or none in time. -/
def receive (decode : String → Option (List UInt8)) (state : State)
    (arrival : Arrival) (surroundings : Surroundings) : Run :=
  match arrival with
  | .failed error => state.fail (.protocol error)
  | .timeout => ({ state with phase := .head } : State).goOn
  | .disconnected =>
      match surroundings.status with
      | none => state.fail .io
      | some status => state.fail (.childExit status.code)
  | .frame frame =>
      match state.sequence.observe frame with
      | .error error => state.fail (.protocol error)
      | .ok sequence =>
          let seen := { state with
            sequence := sequence
            observed := state.observed ++ [frame] }
          match frame with
          | .effectRequest _ messageId request =>
              seen.dispatch messageId request surroundings
          | .log _ message =>
              ({ seen with
                phase := .head
                logs := seen.logs ++ [message] } : State).goOn
          | .finish _ outputB64 errorCode =>
              seen.conclude decode outputB64 errorCode surroundings

end State

/-- The loop is entered with the operator's log cap. -/
def start (logCap : Nat) : Run :=
  match ParentSequence.withLogCap logCap with
  | .ok sequence => ⟨⟨.head, sequence, [], false, [], [], [], [], []⟩, none⟩
  | .error error =>
      ⟨⟨.head, ⟨1, none, false, 0, logCap, 0⟩, [], false, [], [], [], [], []⟩,
        some (.error (.protocol error))⟩

/-- One occurrence.  The loop takes the step its phase is at, and nothing more
once it returned; a broker call in flight still comes back. -/
def Run.step (decode : String → Option (List UInt8)) (run : Run)
    (occurrence : Occurrence) : Run :=
  match occurrence with
  | .returned position result =>
      match run.state.inFlight[position]? with
      | none => run
      | some dispatch =>
          { run with state := { run.state with
            inFlight := run.state.inFlight.eraseIdx position
            results := run.state.results ++ [(dispatch, result)] } }
  | .vanished position =>
      { run with state := { run.state with
        inFlight := run.state.inFlight.eraseIdx position } }
  | .polled lease expired written =>
      if run.result.isNone && run.state.phase == .head then
        run.state.poll lease expired written
      else run
  | .received arrival surroundings =>
      if run.result.isNone && run.state.phase == .receiving then
        run.state.receive decode arrival surroundings
      else run

/-- A whole run of the loop. -/
def supervise (decode : String → Option (List UInt8)) (logCap : Nat)
    (occurrences : List Occurrence) : Run :=
  occurrences.foldl (Run.step decode) (start logCap)

end Supervision

end EffectLatch
