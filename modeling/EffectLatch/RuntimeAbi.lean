import EffectLatch.DomainEffects
import EffectLatch.TransitionHistories

/-!
# Checked guest imports

The five host calls a guest may make and the invocation around them.  The guest
itself runs in another crate's engine: here it is any sequence of host calls
with any contents of its memory at each call, ended by a return or a trap.  A
dispatcher is any function of the dispatches it answered before.
-/

namespace EffectLatch

namespace Abi

def maxHostCalls : Nat := 64

def logBytesLimit : Nat := 16 * 1024

structure TicketResponse where
  ticketId : String
  project : String
deriving DecidableEq

/-- A reply is always in state `COMMITTED`. -/
structure EffectReply where
  ordinal : UInt64
  response : TicketResponse
  replayed : Bool
deriving DecidableEq

inductive AbiCode where
  | invalidMemory
  | size
  | policy
  | unresolved
  | replayDivergence
  | invalidState
  | unavailable
deriving DecidableEq

def AbiCode.toInt32 : AbiCode → Int32
  | invalidMemory => -1
  | size => -2
  | policy => -3
  | unresolved => -4
  | replayDivergence => -5
  | invalidState => -6
  | unavailable => -7

inductive DispatchFailure where
  | policy
  | unresolved
  | replayDivergence
  | unavailable
deriving DecidableEq

def DispatchFailure.code : DispatchFailure → AbiCode
  | policy => .policy
  | unresolved => .unresolved
  | replayDivergence => .replayDivergence
  | unavailable => .unavailable

/-- Errors of the engine; which one it is plays no role here. -/
structure RuntimeError where
deriving DecidableEq

inductive AbiError where
  | inputSize
  | invalidCaps
  | violation (code : AbiCode)
  | runtime (error : RuntimeError)
deriving DecidableEq

structure AbiCaps where
  hostCalls : Nat
  logBytes : Nat
deriving DecidableEq

def AbiCaps.validate (caps : AbiCaps) : Except AbiError AbiCaps := do
  Except.require
    (caps.hostCalls ≠ 0 ∧ caps.hostCalls ≤ maxHostCalls ∧
      caps.logBytes ≠ 0 ∧ caps.logBytes ≤ logBytesLimit)
    .invalidCaps
  pure caps

structure AbiOutcome where
  returnCode : Int32
  output : Option (List UInt8)
  logs : List String
  hostCalls : Nat
deriving DecidableEq

/-- What a dispatcher answers: the bytes of a reply or a failure. -/
abbrev DispatchResult := Except DispatchFailure (List UInt8)

/-- A dispatcher answers a request given the requests it answered before. -/
abbrev Dispatcher :=
  List (EffectRequest × DispatchResult) → EffectRequest → DispatchResult

/-- The readers `serde_json` derives for requests and replies. -/
structure Readers where
  effectRequest : List UInt8 → Option EffectRequest
  effectReply : List UInt8 → Option EffectReply

/-- `dispatched` is the state of the dispatcher: all it was asked and
answered. -/
structure State where
  input : List UInt8
  output : Option (List UInt8)
  logs : List String
  logBytes : Nat
  calls : Nat
  caps : AbiCaps
  nextOrdinal : UInt64
  maxEffects : UInt64
  sticky : Option AbiCode
  dispatched : List (EffectRequest × DispatchResult)

/-- A linear memory, if the guest exports one. -/
abbrev Memory := Option (List UInt8)

/-- A host call that ends the guest with an error. -/
structure Trap where
deriving DecidableEq

/-- What a host call leaves behind: the guest's memory, and its result or a
trap. -/
structure Reaction where
  memory : Memory
  result : Except Trap Int32

namespace State

/-- The first violation sticks. -/
def fail (state : State) (code : AbiCode) : State :=
  { state with sticky := some (state.sticky.getD code) }

/-- Report a violation to the guest. -/
def refuse (state : State) (memory : Memory) (code : AbiCode) :
    Reaction × State :=
  (⟨memory, .ok code.toInt32⟩, state.fail code)

/-- Stop the guest: the effect may have happened. -/
def unresolved (state : State) (memory : Memory) : Reaction × State :=
  (⟨memory, .error ⟨⟩⟩, state.fail .unresolved)

/-- The dispatcher was asked and answered. -/
def asked (state : State) (request : EffectRequest)
    (answer : DispatchResult) : State :=
  { state with dispatched := state.dispatched ++ [(request, answer)] }

/-- One more call, in saturating 32-bit arithmetic. -/
def counted (state : State) : State :=
  { state with calls := min (state.calls + 1) (2 ^ 32 - 1) }

@[simp]
theorem counted_sticky (state : State) :
    state.counted.sticky = state.sticky :=
  rfl

@[simp]
theorem counted_output (state : State) :
    state.counted.output = state.output :=
  rfl

@[simp]
theorem counted_caps (state : State) : state.counted.caps = state.caps :=
  rfl

@[simp]
theorem counted_logs (state : State) : state.counted.logs = state.logs :=
  rfl

@[simp]
theorem counted_dispatched (state : State) :
    state.counted.dispatched = state.dispatched :=
  rfl

/-- Count the call.  An answer is given when the call goes no further. -/
def budget (state : State) : Option Int32 × State :=
  match state.counted.sticky with
  | some code => (some code.toInt32, state.counted)
  | none =>
      if state.counted.output.isSome then
        (some AbiCode.invalidState.toInt32, state.counted.fail .invalidState)
      else if state.counted.caps.hostCalls < state.counted.calls then
        (some AbiCode.invalidState.toInt32, state.counted.fail .invalidState)
      else
        (none, state.counted)

/-- The part every host call begins with. -/
def metered (state : State) (memory : Memory)
    (body : State → Reaction × State) : Reaction × State :=
  match state.budget with
  | (some code, refused) => (⟨memory, .ok code⟩, refused)
  | (none, counted) => body counted

end State

/-- Start and length of a range inside the memory. -/
def range (memory : Memory) (ptr len : Int32) : Except AbiCode (Nat × Nat) := do
  Except.require (0 ≤ len) .size
  let length := len.toInt.toNat
  -- an address is unsigned, so the end is below `2 ^ 33`
  let start := ptr.toUInt32.toNat
  let bytes ← Except.fetch memory .invalidMemory
  Except.require (start + length ≤ bytes.length) .invalidMemory
  pure (start, length)

/-- `Memory::read`. -/
def memoryRead (memory : Memory) (start length : Nat) : Option (List UInt8) := do
  let bytes ← memory
  if start + length ≤ bytes.length then
    some ((bytes.drop start).take length)
  else
    none

/-- `Memory::write`. -/
def memoryWrite (memory : Memory) (start : Nat) (content : List UInt8) :
    Option Memory := do
  let bytes ← memory
  if start + content.length ≤ bytes.length then
    some (some (bytes.take start ++ content ++
      bytes.drop (start + content.length)))
  else
    none

def read (memory : Memory) (ptr len : Int32) : Except AbiCode (List UInt8) := do
  let (start, length) ← range memory ptr len
  Except.fetch (memoryRead memory start length) .invalidMemory

def inputLen (state : State) (memory : Memory) : Reaction × State :=
  state.metered memory fun state =>
    (⟨memory, .ok (Int32.ofNat state.input.length)⟩, state)

def inputRead (state : State) (memory : Memory) (ptr capacity : Int32) :
    Reaction × State :=
  state.metered memory fun state =>
    if capacity < 0 ∨ capacity.toInt.toNat < state.input.length then
      state.refuse memory .size
    else
      match range memory ptr capacity with
      | .error code => state.refuse memory code
      | .ok (start, _) =>
          match memoryWrite memory start state.input with
          | none => state.refuse memory .invalidMemory
          | some written =>
              (⟨written, .ok (Int32.ofNat state.input.length)⟩, state)

def outputWrite (state : State) (memory : Memory) (ptr len : Int32) :
    Reaction × State :=
  state.metered memory fun state =>
    if state.output.isSome then
      state.refuse memory .invalidState
    else if len < 0 ∨ payloadBytes < len.toInt.toNat then
      state.refuse memory .size
    else
      match read memory ptr len with
      | .error code => state.refuse memory code
      | .ok bytes => (⟨memory, .ok len⟩, { state with output := some bytes })

def log (state : State) (memory : Memory) (ptr len : Int32) :
    Reaction × State :=
  state.metered memory fun state =>
    if len < 0 ∨ state.caps.logBytes - state.logBytes < len.toInt.toNat then
      state.refuse memory .size
    else
      match read memory ptr len with
      | .error code => state.refuse memory code
      | .ok bytes =>
          match String.fromUTF8? ⟨bytes.toArray⟩ with
          | none => state.refuse memory .policy
          | some message =>
              (⟨memory, .ok len⟩,
                { state with
                  logBytes := state.logBytes + len.toInt.toNat
                  logs := state.logs ++ [message] })

/-- The checks of `effect_call` before a dispatch.  The full destination of the
reply is validated before an intent is created. -/
def effectRequest (readers : Readers) (state : State) (memory : Memory)
    (reqPtr reqLen respPtr respCap : Int32) : Except AbiCode EffectRequest := do
  Except.require
    (¬ (reqLen ≤ 0 ∨ effectRequestBytes < reqLen.toInt.toNat ∨
      respCap.toInt < payloadBytes)) .size
  let _ ← range memory respPtr respCap
  let bytes ← read memory reqPtr reqLen
  let request ← (EffectRequest.parse readers.effectRequest bytes).mapError
    fun _ => .policy
  Except.require
    (¬ (state.nextOrdinal < request.ordinal ∨
      state.maxEffects ≤ request.ordinal)) .policy
  pure request

/-- The reply is a committed ticket for this request. -/
def validReply (readers : Readers) (request : EffectRequest)
    (response : List UInt8) : Bool :=
  (readers.effectReply response).any fun reply =>
    reply.ordinal == request.ordinal &&
      reply.response.project == request.arguments.project &&
      !(utf8 reply.response.ticketId).isEmpty

/-- Hand the dispatcher's bytes to the guest. -/
def deliver (readers : Readers) (state : State) (memory : Memory)
    (request : EffectRequest) (respPtr respCap : Int32)
    (response : List UInt8) : Reaction × State :=
  if payloadBytes < response.length ∨ respCap.toInt.toNat < response.length then
    state.unresolved memory
  else if validReply readers request response = false then
    state.unresolved memory
  else
    match range memory respPtr respCap with
    | .error _ => state.unresolved memory
    | .ok (start, _) =>
        match memoryWrite memory start response with
        | none => state.unresolved memory
        | some written =>
            (⟨written, .ok (Int32.ofNat response.length)⟩,
              if request.ordinal = state.nextOrdinal then
                { state with nextOrdinal := state.nextOrdinal + 1 }
              else state)

/-- Ask the dispatcher and hand its answer on. -/
def dispatch (readers : Readers) (dispatcher : Dispatcher) (state : State)
    (memory : Memory) (request : EffectRequest) (respPtr respCap : Int32) :
    Reaction × State :=
  let answer := dispatcher state.dispatched request
  let asked := state.asked request answer
  match answer with
  | .ok response =>
      deliver readers asked memory request respPtr respCap response
  | .error failure =>
      if failure.code = .unresolved then
        (asked.fail failure.code).unresolved memory
      else
        asked.refuse memory failure.code

def effectCall (readers : Readers) (dispatcher : Dispatcher) (state : State)
    (memory : Memory) (reqPtr reqLen respPtr respCap : Int32) :
    Reaction × State :=
  state.metered memory fun state =>
    match effectRequest readers state memory reqPtr reqLen respPtr respCap with
    | .error code => state.refuse memory code
    | .ok request =>
        dispatch readers dispatcher state memory request respPtr respCap

inductive HostCall where
  | inputLen
  | inputRead (ptr capacity : Int32)
  | outputWrite (ptr len : Int32)
  | log (ptr len : Int32)
  | effectCall (reqPtr reqLen respPtr respCap : Int32)
deriving DecidableEq

/-- A host call with the guest's memory at the call. -/
structure GuestCall where
  memory : Memory
  call : HostCall

def perform (readers : Readers) (dispatcher : Dispatcher) (state : State)
    (made : GuestCall) : Reaction × State :=
  match made.call with
  | .inputLen => inputLen state made.memory
  | .inputRead ptr capacity => inputRead state made.memory ptr capacity
  | .outputWrite ptr len => outputWrite state made.memory ptr len
  | .log ptr len => log state made.memory ptr len
  | .effectCall reqPtr reqLen respPtr respCap =>
      effectCall readers dispatcher state made.memory reqPtr reqLen respPtr
        respCap

/-- A guest: the calls it makes unless one of them traps, and how it ends. -/
structure Guest where
  calls : List GuestCall
  ended : Except RuntimeError Int32

/-- One performed host call. -/
abbrev Event := Performed State GuestCall Reaction

/-- Perform the calls up to the first trap. -/
def interact (readers : Readers) (dispatcher : Dispatcher) :
    State → List GuestCall → List Event × State
  | state, [] => ([], state)
  | state, made :: rest =>
      let done := perform readers dispatcher state made
      let event := ⟨state, made, done.1, done.2⟩
      match done.1.result with
      | .error _ => ([event], done.2)
      | .ok _ =>
          let later := interact readers dispatcher done.2 rest
          (event :: later.1, later.2)

def initial (input : List UInt8) (maxEffects : UInt64) (caps : AbiCaps) :
    State where
  input := input
  output := none
  logs := []
  logBytes := 0
  calls := 0
  caps := caps
  nextOrdinal := 0
  maxEffects := maxEffects
  sticky := none
  dispatched := []

/-- The engine's result: a trap in a host call is an error of the run. -/
def engineResult (guest : Guest) (events : List Event) :
    Except AbiError Int32 :=
  if events.all fun event => event.outcome.result.isOk then
    guest.ended.mapError AbiError.runtime
  else
    .error (.runtime ⟨⟩)

/-- The invocation with the host calls it performed. -/
def executeAbi (readers : Readers) (dispatcher : Dispatcher)
    (input : List UInt8) (maxEffects : UInt64) (caps : AbiCaps)
    (guest : Guest) : List Event × Except AbiError AbiOutcome :=
  if payloadBytes < input.length then
    ([], .error .inputSize)
  else
    match caps.validate with
    | .error failure => ([], .error failure)
    | .ok caps =>
        let (events, state) := interact readers dispatcher
          (initial input maxEffects caps) guest.calls
        match state.sticky with
        | some code => (events, .error (.violation code))
        | none =>
            (events, (engineResult guest events).map fun returnCode =>
              { returnCode := returnCode
                output := state.output
                logs := state.logs
                hostCalls := state.calls })

end Abi

end EffectLatch
