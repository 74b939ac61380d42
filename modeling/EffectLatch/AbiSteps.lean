import EffectLatch.AbiDelivery

/-!
# What one host call can do

A host call is refused, informs the guest, sets the output, keeps a log line or
asks the dispatcher.  `HostStep` lists these with the state each leaves behind,
and what holds over an execution is proved against it.
-/

namespace EffectLatch

namespace Abi

variable {readers : Readers} {dispatcher : Dispatcher} {state next : State}
  {memory : Memory} {made : GuestCall} {reaction : Reaction}

theorem AbiCode.toInt32_neg (code : AbiCode) : code.toInt32 < 0 := by
  cases code <;> decide

/-- A call within the budget of an invocation without a violation. -/
structure Clear (state : State) : Prop where
  sticky : state.sticky = none
  output : state.output = none
  within : state.counted.calls ≤ state.caps.hostCalls

/-- The guest asked for an effect, and every check passed. -/
structure Requested (readers : Readers) (state : State) (made : GuestCall)
    (request : EffectRequest) (respPtr respCap : Int32) : Prop where
  called : ∃ reqPtr reqLen,
    made.call = .effectCall reqPtr reqLen respPtr respCap ∧
      effectRequest readers state.counted made.memory reqPtr reqLen respPtr
        respCap = .ok request

/-- The state after a reply was written: the ordinal in turn is used up. -/
def State.replied (state : State) (request : EffectRequest)
    (response : List UInt8) : State :=
  let asked := state.asked request (.ok response)
  if request.ordinal = state.nextOrdinal then
    { asked with nextOrdinal := state.nextOrdinal + 1 }
  else asked

inductive HostStep (readers : Readers) (dispatcher : Dispatcher)
    (state : State) (made : GuestCall) : Reaction → State → Prop
  | stuck {code : AbiCode} (sticky : state.sticky = some code) :
      HostStep readers dispatcher state made
        ⟨made.memory, .ok code.toInt32⟩ state.counted
  | refused {code : AbiCode} (sticky : state.sticky = none) :
      HostStep readers dispatcher state made
        ⟨made.memory, .ok code.toInt32⟩ (state.counted.fail code)
  | informed {memory : Memory} {count : Int32} (clear : Clear state)
      (called : made.call = .inputLen ∨
        ∃ ptr capacity, made.call = .inputRead ptr capacity) :
      HostStep readers dispatcher state made ⟨memory, .ok count⟩
        state.counted
  | wrote {ptr len : Int32} {bytes : List UInt8} (clear : Clear state)
      (called : made.call = .outputWrite ptr len) (signed : 0 ≤ len)
      (copied : read made.memory ptr len = .ok bytes) :
      HostStep readers dispatcher state made ⟨made.memory, .ok len⟩
        { state.counted with output := some bytes }
  | logged {ptr len : Int32} {bytes : List UInt8} {message : String}
      (clear : Clear state) (called : made.call = .log ptr len)
      (signed : 0 ≤ len) (copied : read made.memory ptr len = .ok bytes)
      (decoded : String.fromUTF8? ⟨bytes.toArray⟩ = some message)
      (room : (utf8 message).length ≤ state.caps.logBytes - state.logBytes) :
      HostStep readers dispatcher state made ⟨made.memory, .ok len⟩
        { state.counted with
          logBytes := state.logBytes + (utf8 message).length
          logs := state.logs ++ [message] }
  | lost {request : EffectRequest} {respPtr respCap : Int32}
      {code : AbiCode} {result : Except Trap Int32} (clear : Clear state)
      (requested : Requested readers state made request respPtr respCap)
      (result_eq : result = .error ⟨⟩ ∨ result = .ok code.toInt32) :
      HostStep readers dispatcher state made ⟨made.memory, result⟩
        ((state.counted.asked request
          (dispatcher state.dispatched request)).fail code)
  | delivered {request : EffectRequest} {respPtr respCap : Int32}
      {response : List UInt8} {written : Memory} (clear : Clear state)
      (requested : Requested readers state made request respPtr respCap)
      (answered : dispatcher state.dispatched request = .ok response)
      (short : response.length ≤ payloadBytes)
      (valid : validReply readers request response = true)
      (stored : memoryWrite made.memory respPtr.toUInt32.toNat response =
        some written) :
      HostStep readers dispatcher state made
        ⟨written, .ok (Int32.ofNat response.length)⟩
        (state.counted.replied request response)

/-- The part before the body of a host call. -/
theorem metered_step {body : State → Reaction × State}
    (stepped : Clear state → HostStep readers dispatcher state made
      (body state.counted).1 (body state.counted).2) :
    HostStep readers dispatcher state made
      (state.metered made.memory body).1 (state.metered made.memory body).2 := by
  cases sticky : state.sticky with
  | some code =>
      have kept : state.metered made.memory body =
          (⟨made.memory, .ok code.toInt32⟩, state.counted) := by
        simp [State.metered, State.budget, sticky]
      rw [kept]
      exact .stuck sticky
  | none =>
      rcases metered_cases state made.memory body with
        ⟨code, refused⟩ | ⟨_, output, within, continued⟩
      · rw [refused]
        exact .refused sticky
      · rw [continued]
        exact stepped ⟨sticky, output, within⟩

theorem inputLen_step (called : made.call = .inputLen) :
    HostStep readers dispatcher state made (inputLen state made.memory).1
      (inputLen state made.memory).2 :=
  metered_step fun clear => .informed clear (.inl called)

theorem inputRead_step {ptr capacity : Int32}
    (called : made.call = .inputRead ptr capacity) :
    HostStep readers dispatcher state made
      (inputRead state made.memory ptr capacity).1
      (inputRead state made.memory ptr capacity).2 := by
  apply metered_step
  intro clear
  split
  · exact .refused clear.sticky
  · split
    · exact .refused clear.sticky
    · split
      · exact .refused clear.sticky
      · exact .informed clear (.inr ⟨ptr, capacity, called⟩)

theorem outputWrite_step {ptr len : Int32}
    (called : made.call = .outputWrite ptr len) :
    HostStep readers dispatcher state made
      (outputWrite state made.memory ptr len).1
      (outputWrite state made.memory ptr len).2 := by
  apply metered_step
  intro clear
  split
  · exact .refused clear.sticky
  · split
    · exact .refused clear.sticky
    next sized =>
      split
      · exact .refused clear.sticky
      next bytes copied =>
        rw [not_or] at sized
        exact .wrote clear called (Int32.not_lt.mp sized.1) copied

theorem log_step {ptr len : Int32} (called : made.call = .log ptr len) :
    HostStep readers dispatcher state made (log state made.memory ptr len).1
      (log state made.memory ptr len).2 := by
  apply metered_step
  intro clear
  split
  · exact .refused clear.sticky
  next sized =>
    split
    · exact .refused clear.sticky
    next bytes copied =>
      split
      · exact .refused clear.sticky
      next message decoded =>
        rw [not_or] at sized
        have length : (utf8 message).length = len.toInt.toNat := by
          rw [utf8_of_fromUTF8? decoded]
          exact length_of_read copied
        rw [← length]
        exact .logged clear called (Int32.not_lt.mp sized.1) copied decoded
          (by rw [length]; exact not_lt.mp sized.2)

/-- A reply is written whole, or the invocation traps. -/
theorem deliver_cases (readers : Readers) (state : State) (memory : Memory)
    (request : EffectRequest) (respPtr respCap : Int32)
    (response : List UInt8) :
    deliver readers state memory request respPtr respCap response =
        state.unresolved memory ∨
      response.length ≤ payloadBytes ∧
        validReply readers request response = true ∧
        ∃ written, memoryWrite memory respPtr.toUInt32.toNat response =
            some written ∧
          deliver readers state memory request respPtr respCap response =
            (⟨written, .ok (Int32.ofNat response.length)⟩,
              if request.ordinal = state.nextOrdinal then
                { state with nextOrdinal := state.nextOrdinal + 1 }
              else state) := by
  unfold deliver
  split
  · exact .inl rfl
  next sized =>
    rw [not_or, not_lt, not_lt] at sized
    split
    · exact .inl rfl
    next valid =>
      split
      · exact .inl rfl
      next start length ranged =>
        obtain ⟨_, rfl, _⟩ := range_eq_ok_iff.mp ranged
        split
        · exact .inl rfl
        next written stored =>
          exact .inr ⟨sized.1, by simpa using valid, written, stored, rfl⟩

theorem effectCall_step {reqPtr reqLen respPtr respCap : Int32}
    (called : made.call = .effectCall reqPtr reqLen respPtr respCap) :
    HostStep readers dispatcher state made
      (effectCall readers dispatcher state made.memory reqPtr reqLen respPtr
        respCap).1
      (effectCall readers dispatcher state made.memory reqPtr reqLen respPtr
        respCap).2 := by
  apply metered_step
  intro clear
  split
  · exact .refused clear.sticky
  next request accepted =>
    have requested : Requested readers state made request respPtr respCap :=
      ⟨reqPtr, reqLen, called, accepted⟩
    have lost (code : AbiCode) (result : Except Trap Int32)
        (ended : result = .error ⟨⟩ ∨ result = .ok code.toInt32) :
        HostStep readers dispatcher state made ⟨made.memory, result⟩
          ((state.counted.asked request
            (dispatcher state.dispatched request)).fail code) :=
      .lost clear requested ended
    have answered : dispatcher state.counted.dispatched request =
      dispatcher state.dispatched request := rfl
    rw [dispatch, answered]
    cases reply : dispatcher state.dispatched request with
    | error failure =>
        rw [reply] at lost
        dsimp only
        split
        next code =>
          have twice := lost failure.code (.error ⟨⟩) (.inl rfl)
          rw [code] at twice ⊢
          exact twice
        · exact lost failure.code _ (.inr rfl)
    | ok response =>
        rw [reply] at lost
        dsimp only
        rcases deliver_cases readers
          (state.counted.asked request (.ok response)) made.memory request
          respPtr respCap response with
          unresolved | ⟨short, valid, written, stored, delivered⟩
        · rw [unresolved]
          exact lost .unresolved _ (.inl rfl)
        · rw [delivered]
          exact .delivered clear requested reply short valid stored

/-- Every host call is one of the steps. -/
theorem perform_step (readers : Readers) (dispatcher : Dispatcher)
    (state : State) (made : GuestCall) :
    HostStep readers dispatcher state made
      (perform readers dispatcher state made).1
      (perform readers dispatcher state made).2 := by
  unfold perform
  split
  next called => exact inputLen_step called
  next ptr capacity called => exact inputRead_step called
  next ptr len called => exact outputWrite_step called
  next ptr len called => exact log_step called
  next reqPtr reqLen respPtr respCap called => exact effectCall_step called

/-- A property of the events so far and the state holds at the end when every
host call keeps it. -/
theorem interact_induction (readers : Readers) (dispatcher : Dispatcher)
    (Holds : List Event → State → Prop)
    (kept : ∀ {history : List Event} {event : Event},
      Holds history event.before →
      HostStep readers dispatcher event.before event.call event.outcome
        event.after →
      Holds (history ++ [event]) event.after)
    (calls : List GuestCall) :
    ∀ {history : List Event} {state : State}, Holds history state →
      Holds (history ++ (interact readers dispatcher state calls).1)
        (interact readers dispatcher state calls).2 := by
  induction calls with
  | nil =>
      intro history state holds
      simpa [interact] using holds
  | cons made rest ih =>
      intro history state holds
      have next := @kept history ⟨state, made,
        (perform readers dispatcher state made).1,
        (perform readers dispatcher state made).2⟩ holds
        (perform_step readers dispatcher state made)
      unfold interact
      dsimp only
      split
      · exact next
      · have last := ih next
        rwa [List.append_assoc] at last

/-- The events after one are those of an interaction that goes on from the
state it left. -/
theorem interact_split {calls : List GuestCall} {earlier later : List Event}
    {event : Event}
    (position : (interact readers dispatcher state calls).1 =
      earlier ++ event :: later) :
    HostStep readers dispatcher event.before event.call event.outcome
        event.after ∧
      ∃ rest, interact readers dispatcher event.after rest =
        (later, (interact readers dispatcher state calls).2) := by
  induction calls generalizing state earlier with
  | nil => simp [interact] at position
  | cons made rest ih =>
      have stepped := perform_step readers dispatcher state made
      rw [interact] at position ⊢
      dsimp only at position ⊢
      cases result : (perform readers dispatcher state made).1.result with
      | error trap =>
          simp only [result] at position ⊢
          cases earlier with
          | nil =>
              obtain ⟨rfl, rfl⟩ := List.cons.inj position
              exact ⟨stepped, [], rfl⟩
          | cons head front =>
              have short := congrArg List.length position
              simp at short
      | ok answer =>
          simp only [result] at position ⊢
          cases earlier with
          | nil =>
              obtain ⟨rfl, rfl⟩ := List.cons.inj position
              exact ⟨stepped, rest, rfl⟩
          | cons head front =>
              exact ih (List.cons.inj position).2

/-- The events before one are those of a shorter interaction. -/
theorem interact_before {calls : List GuestCall} {earlier later : List Event}
    {event : Event}
    (position : (interact readers dispatcher state calls).1 =
      earlier ++ event :: later) :
    ∃ first, interact readers dispatcher state first =
      (earlier, event.before) := by
  induction calls generalizing state earlier with
  | nil => simp [interact] at position
  | cons made rest ih =>
      rw [interact] at position
      dsimp only at position
      cases result : (perform readers dispatcher state made).1.result with
      | error trap =>
          simp only [result] at position
          cases earlier with
          | nil =>
              obtain ⟨rfl, rfl⟩ := List.cons.inj position
              exact ⟨[], rfl⟩
          | cons head front =>
              have short := congrArg List.length position
              simp at short
      | ok answer =>
          simp only [result] at position
          cases earlier with
          | nil =>
              obtain ⟨rfl, rfl⟩ := List.cons.inj position
              exact ⟨[], rfl⟩
          | cons head front =>
              obtain ⟨rfl, tail⟩ := List.cons.inj position
              obtain ⟨first, stopped⟩ := ih tail
              refine ⟨made :: first, ?_⟩
              rw [interact]
              simp only [result, stopped]

end Abi

end EffectLatch
