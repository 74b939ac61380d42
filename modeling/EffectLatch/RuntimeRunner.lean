import EffectLatch.RuntimeSupervisor

/-!
# The runner and its conversation with the parent

The runner executes one guest.  Effects go to the parent as request frames, one
at a time; logs and the finish frame follow the execution.
-/

namespace EffectLatch

namespace Runner

open Ipc Supervision

/-- The broker behind the parent, as a function of the requests before. -/
abbrev Broker := List EffectRequest → EffectRequest → BrokerResult

/-- The writers of other crates: Base64 and the JSON of a reply. -/
structure Writers where
  base64 : List UInt8 → String
  effectReply : Abi.EffectReply → List UInt8

/-- The identity of the request after these. -/
def messageId (earlier : List EffectRequest) : UInt64 :=
  UInt64.ofNat (earlier.length + 1)

/-- What a received response tells the guest. -/
def settle (writers : Writers) (expected : UInt64)
    (frame : EffectResponseFrame) : Abi.DispatchResult :=
  if frame.messageId ≠ expected then
    .error .unavailable
  else
    match frame.response with
    | .committed reply => .ok (writers.effectReply reply)
    | .failed code =>
        if code = -3 then .error .policy
        else if code = -4 then .error .unresolved
        else if code = -5 then .error .replayDivergence
        else .error .unavailable

/-- `IpcDispatcher` with the parent on the other side.  When the parent gives up
it kills the runner, and no answer comes. -/
def ipcDispatcher (writers : Writers) (broker : Broker) : Abi.Dispatcher :=
  fun dispatched request =>
    let earlier := dispatched.map Prod.fst
    if 2 ^ 64 ≤ earlier.length + 2 then
      .error .unavailable
    else
      match responseFrame (messageId earlier) request (broker earlier request)
        with
      | .error _ => .error .unavailable
      | .ok frame => settle writers (messageId earlier) frame

def abiErrorCode : Abi.AbiError → String
  | .inputSize => "INPUT_SIZE"
  | .invalidCaps => "INVALID_CAPS"
  | .violation code =>
      match code with
      | .invalidMemory => "INVALID_MEMORY"
      | .size => "SIZE"
      | .policy => "POLICY"
      | .unresolved => "UNRESOLVED"
      | .replayDivergence => "REPLAY_DIVERGED"
      | .invalidState => "INVALID_STATE"
      | .unavailable => "UNAVAILABLE"
  | .runtime _ => "RUNTIME_FAILURE"

/-- What the runner is started with: the module's compilation succeeds or not,
and the guest does what it wants. -/
structure Job where
  compiled : Except Abi.RuntimeError Unit
  input : List UInt8
  maxEffects : UInt64
  guest : Abi.Guest

def execute (readers : Abi.Readers) (writers : Writers) (broker : Broker)
    (caps : Abi.AbiCaps) (job : Job) :
    List Abi.Event × Except Abi.AbiError Abi.AbiOutcome :=
  match job.compiled with
  | .error failure => ([], .error (.runtime failure))
  | .ok _ =>
      Abi.executeAbi readers (ipcDispatcher writers broker) job.input
        job.maxEffects caps job.guest

/-- The frames after the execution. -/
def closing (writers : Writers) :
    Except Abi.AbiError Abi.AbiOutcome → List ChildFrame
  | .ok outcome =>
      outcome.logs.map (ChildFrame.log 1) ++
        [.finish 1 (outcome.output.map writers.base64) none]
  | .error failure => [.finish 1 none (some (abiErrorCode failure))]

/-- One frame in either direction. -/
inductive Message where
  | sent (frame : ChildFrame)
  | answered (frame : EffectResponseFrame)
deriving DecidableEq

def Message.frame? : Message → Option ChildFrame
  | sent frame => some frame
  | answered _ => none

/-- The requests of a run with their answers, and whether the parent answered
them all. -/
def exchange (broker : Broker) (earlier : List EffectRequest) :
    List EffectRequest → List Message × Bool
  | [] => ([], true)
  | request :: rest =>
      let frame := ChildFrame.effectRequest 1 (messageId earlier) request
      match responseFrame (messageId earlier) request (broker earlier request)
        with
      | .error _ => ([.sent frame], false)
      | .ok response =>
          let later := exchange broker (earlier ++ [request]) rest
          (.sent frame :: .answered response :: later.1, later.2)

/-- The requests the dispatcher was asked in an execution. -/
def requests (events : List Abi.Event) : List EffectRequest :=
  ((events.getLast?.map fun event => event.after.dispatched).getD []).map
    Prod.fst

/-- Everything said between runner and parent. -/
def conversation (readers : Abi.Readers) (writers : Writers) (broker : Broker)
    (caps : Abi.AbiCaps) (job : Job) : List Message :=
  let executed := execute readers writers broker caps job
  let exchanged := exchange broker [] (requests executed.1)
  if exchanged.2 then
    exchanged.1 ++ (closing writers executed.2).map Message.sent
  else
    exchanged.1

/-- The parent's sequence over a conversation. -/
def follow (sequence : ParentSequence) :
    List Message → Except ProtocolError ParentSequence
  | [] => pure sequence
  | .sent frame :: rest => do
      let next ← sequence.observe frame
      follow next rest
  | .answered frame :: rest => do
      let next ← sequence.respond frame
      follow next rest

end Runner

end EffectLatch
