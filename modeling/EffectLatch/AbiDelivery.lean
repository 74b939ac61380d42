import EffectLatch.RuntimeAbi

/-!
# No dispatched effect is lost at the ABI

A dispatch is made only when its reply can be written afterwards.  Its answer
reaches the guest's memory whole, or the invocation fails with a violation: no
later call clears the code that stuck.
-/

namespace EffectLatch

namespace Abi

variable {readers : Readers} {dispatcher : Dispatcher} {state next : State}
  {memory : Memory} {reaction : Reaction}

theorem range_eq_ok_iff {ptr len : Int32} {start length : Nat} :
    range memory ptr len = .ok (start, length) ↔
      0 ≤ len ∧ start = ptr.toUInt32.toNat ∧ length = len.toInt.toNat ∧
        ∃ bytes, memory = some bytes ∧ start + length ≤ bytes.length := by
  simp only [range, Except.bind_eq_ok_iff, Except.require_eq_ok_iff,
    Except.fetch_eq_ok_iff, Except.pure_eq_ok_iff, Prod.mk.injEq]
  constructor
  · rintro ⟨_, signed, bytes, exported, _, inside, rfl, rfl⟩
    exact ⟨signed, rfl, rfl, bytes, exported, inside⟩
  · rintro ⟨signed, rfl, rfl, bytes, exported, inside⟩
    exact ⟨(), signed, bytes, exported, (), inside, rfl, rfl⟩

/-- The content stands at `start`, and nothing else changed. -/
structure Written (before after : List UInt8) (start : Nat)
    (content : List UInt8) : Prop where
  length : after.length = before.length
  inside : ∀ index < content.length, after[start + index]? = content[index]?
  outside : ∀ index, index < start ∨ start + content.length ≤ index →
    after[index]? = before[index]?

theorem written_of_memoryWrite {bytes content : List UInt8} {start : Nat}
    (fits : start + content.length ≤ bytes.length) :
    ∃ after, memoryWrite (some bytes) start content = some (some after) ∧
      Written bytes after start content := by
  refine ⟨bytes.take start ++ content ++ bytes.drop (start + content.length),
    by simp [memoryWrite, fits], ?_, ?_, ?_⟩
  · simp only [List.length_append, List.length_take, List.length_drop]
    omega
  · intro index inside
    have startIn : start ≤ bytes.length := by omega
    rw [List.append_assoc, List.getElem?_append_right (by simp)]
    simp only [List.length_take, Nat.min_eq_left startIn,
      Nat.add_sub_cancel_left]
    exact List.getElem?_append_left inside
  · intro index outside
    have startIn : start ≤ bytes.length := by omega
    rcases outside with before | behind
    · rw [List.append_assoc, List.getElem?_append_left (by simp; omega),
        List.getElem?_take, if_pos before]
    · have front : (bytes.take start ++ content).length =
          start + content.length := by
        simp [startIn]
      rw [List.getElem?_append_right (by omega), front, List.getElem?_drop]
      congr 1
      omega

/-- What a dispatch that reached the guest left behind. -/
structure Delivered (readers : Readers) (before : List UInt8)
    (request : EffectRequest) (respPtr : Int32) (response : List UInt8)
    (reaction : Reaction) : Prop where
  positive : 0 < response.length
  bounded : response.length ≤ payloadBytes
  result : ∃ count, reaction.result = .ok count ∧
    count.toInt = response.length
  written : ∃ after, reaction.memory = some after ∧
    Written before after respPtr.toUInt32.toNat response
  parsed : ∃ reply, readers.effectReply response = some reply ∧
    reply.ordinal = request.ordinal ∧
    reply.response.project = request.arguments.project ∧
    reply.response.ticketId ≠ ""

/-- The dispatcher answered with a reply the guest may get. -/
def Usable (readers : Readers) (request : EffectRequest) :
    DispatchResult → Prop
  | .ok response =>
      response.length ≤ payloadBytes ∧
        validReply readers request response = true
  | .error _ => False

/-- The code left behind by an answer that does not reach the guest. -/
def lostCode : DispatchResult → AbiCode
  | .ok _ => .unresolved
  | .error failure => failure.code

theorem validReply_eq_true_iff {request : EffectRequest}
    {response : List UInt8} :
    validReply readers request response = true ↔
      ∃ reply, readers.effectReply response = some reply ∧
        reply.ordinal = request.ordinal ∧
        reply.response.project = request.arguments.project ∧
        reply.response.ticketId ≠ "" := by
  have nonempty (text : String) : (!(utf8 text).isEmpty) = true ↔ text ≠ "" := by
    rw [Bool.not_eq_true', ← Bool.not_eq_true, not_iff_not,
      List.isEmpty_iff]
    exact utf8_eq_nil_iff
  simp only [validReply, Option.any_eq_true, Bool.and_eq_true, beq_iff_eq,
    nonempty, and_assoc]

/-- Within its budget the body of a host call runs. -/
theorem metered_eq (clear : state.sticky = none)
    (unwritten : state.output = none)
    (within : state.counted.calls ≤ state.caps.hostCalls)
    (body : State → Reaction × State) :
    state.metered memory body = body state.counted := by
  simp [State.metered, State.budget, clear, unwritten, not_lt.mpr within]

/-- A host call is refused with a code that sticks, or its body runs with a
clear state. -/
theorem metered_cases (state : State) (memory : Memory)
    (body : State → Reaction × State) :
    (∃ code, state.metered memory body =
        (⟨memory, .ok code.toInt32⟩, state.counted.fail code)) ∨
      (state.sticky = none ∧ state.output = none ∧
        state.counted.calls ≤ state.caps.hostCalls ∧
        state.metered memory body = body state.counted) := by
  cases sticky : state.sticky with
  | some code =>
      left
      refine ⟨code, ?_⟩
      simp [State.metered, State.budget, State.counted, State.fail, sticky]
  | none =>
      by_cases written : state.output.isSome = true
      · left
        refine ⟨.invalidState, ?_⟩
        simp [State.metered, State.budget, sticky, written]
      · by_cases spent : state.caps.hostCalls < state.counted.calls
        · left
          refine ⟨.invalidState, ?_⟩
          simp [State.metered, State.budget, sticky, written, spent]
        · right
          have unwritten : state.output = none := by simpa using written
          exact ⟨rfl, unwritten, not_lt.mp spent,
            metered_eq sticky unwritten (not_lt.mp spent) body⟩

/-- A step that asks nobody and logs nothing. -/
structure Quiet (before after : State) : Prop where
  caps : after.caps = before.caps
  calls : after.calls = before.calls
  logs : after.logs = before.logs
  logBytes : after.logBytes = before.logBytes
  dispatched : after.dispatched = before.dispatched

theorem Quiet.refl (state : State) : Quiet state state :=
  ⟨rfl, rfl, rfl, rfl, rfl⟩

theorem Quiet.fail (state : State) (code : AbiCode) :
    Quiet state (state.fail code) :=
  ⟨rfl, rfl, rfl, rfl, rfl⟩

theorem metered_quiet {body : State → Reaction × State}
    (kept : ∀ counted, Quiet counted (body counted).2) :
    Quiet state.counted (state.metered memory body).2 := by
  rcases metered_cases state memory body with
    ⟨code, refused⟩ | ⟨_, _, _, continued⟩
  · rw [refused]
    exact .fail state.counted code
  · rw [continued]
    exact kept state.counted

theorem inputLen_quiet : Quiet state.counted (inputLen state memory).2 :=
  metered_quiet .refl

theorem inputRead_quiet {ptr capacity : Int32} :
    Quiet state.counted (inputRead state memory ptr capacity).2 := by
  apply metered_quiet
  intro counted
  split
  · exact .fail counted _
  · split
    · exact .fail counted _
    · split
      · exact .fail counted _
      · exact .refl counted

theorem outputWrite_quiet {ptr len : Int32} :
    Quiet state.counted (outputWrite state memory ptr len).2 := by
  apply metered_quiet
  intro counted
  split
  · exact .fail counted _
  · split
    · exact .fail counted _
    · split
      · exact .fail counted _
      · exact ⟨rfl, rfl, rfl, rfl, rfl⟩

theorem length_of_read {bytes : List UInt8} {ptr len : Int32}
    (copied : read memory ptr len = .ok bytes) :
    bytes.length = len.toInt.toNat := by
  simp only [read, Except.bind_eq_ok_iff, Except.fetch_eq_ok_iff] at copied
  obtain ⟨⟨start, length⟩, ranged, taken⟩ := copied
  obtain ⟨_, rfl, rfl, content, rfl, inside⟩ := range_eq_ok_iff.mp ranged
  simp only [memoryRead, Option.bind_eq_bind, Option.bind_some, inside,
    if_true, Option.some.injEq] at taken
  rw [← taken, List.length_take, List.length_drop]
  omega

/-- A log is refused, or one message more is kept and as many bytes as it has
are charged. -/
theorem log_cases (state : State) (memory : Memory) (ptr len : Int32) :
    Quiet state.counted (log state memory ptr len).2 ∨
      ∃ message, state.counted.calls ≤ state.caps.hostCalls ∧
        (utf8 message).length ≤ state.caps.logBytes - state.logBytes ∧
        (log state memory ptr len).2 = { state.counted with
          logBytes := state.logBytes + (utf8 message).length
          logs := state.logs ++ [message] } := by
  unfold log
  rcases metered_cases state memory _ with
    ⟨code, refused⟩ | ⟨_, _, within, continued⟩
  · rw [refused]
    exact .inl (.fail state.counted code)
  · rw [continued]
    split
    · exact .inl (.fail state.counted _)
    next sized =>
      split
      · exact .inl (.fail state.counted _)
      next bytes copied =>
        split
        · exact .inl (.fail state.counted _)
        next message decoded =>
          have length : (utf8 message).length = len.toInt.toNat := by
            rw [utf8_of_fromUTF8? decoded]
            exact length_of_read copied
          rw [not_or] at sized
          refine .inr ⟨message, within, ?_, ?_⟩
          · rw [length]
            exact not_lt.mp sized.2
          · rw [length]
            rfl

section Delivery

variable {bytes response : List UInt8} {request : EffectRequest}
  {respPtr respCap : Int32}

theorem deliver_quiet (readers : Readers) (state : State)
    (memory : Memory) (request : EffectRequest) (respPtr respCap : Int32)
    (response : List UInt8) :
    Quiet state (deliver readers state memory request respPtr respCap
      response).2 := by
  unfold deliver
  split
  · exact .fail state _
  · split
    · exact .fail state _
    · split
      · exact .fail state _
      · split
        · exact .fail state _
        · dsimp only
          split
          · exact ⟨rfl, rfl, rfl, rfl, rfl⟩
          · exact .refl state

/-- With its destination checked before, a usable reply is always written. -/
theorem deliver_usable (state : State)
    (large : (payloadBytes : Int) ≤ respCap.toInt)
    (inside : respPtr.toUInt32.toNat + respCap.toInt.toNat ≤ bytes.length)
    (usable : Usable readers request (.ok response)) :
    ∃ after, Written bytes after respPtr.toUInt32.toNat response ∧
      deliver readers state (some bytes) request respPtr respCap response =
        (⟨some after, .ok (Int32.ofNat response.length)⟩,
          if request.ordinal = state.nextOrdinal then
            { state with nextOrdinal := state.nextOrdinal + 1 }
          else state) := by
  obtain ⟨bounded, valid⟩ := usable
  unfold payloadBytes at large bounded
  have fits : response.length ≤ respCap.toInt.toNat := by omega
  have room : respPtr.toUInt32.toNat + response.length ≤ bytes.length := by
    omega
  have ranged : range (some bytes) respPtr respCap =
      .ok (respPtr.toUInt32.toNat, respCap.toInt.toNat) := by
    refine range_eq_ok_iff.mpr ⟨?_, rfl, rfl, bytes, rfl, inside⟩
    rw [Int32.le_iff_toInt_le]
    change 0 ≤ respCap.toInt
    omega
  obtain ⟨after, stored, written⟩ := written_of_memoryWrite room
  have short : ¬ (payloadBytes < response.length ∨
      respCap.toInt.toNat < response.length) := by
    unfold payloadBytes
    omega
  refine ⟨after, written, ?_⟩
  unfold deliver
  rw [if_neg short, if_neg (by simp [valid]), ranged]
  simp only [stored]

theorem deliver_of_usable (state : State)
    (emptyRefused : readers.effectReply [] = none)
    (large : (payloadBytes : Int) ≤ respCap.toInt)
    (inside : respPtr.toUInt32.toNat + respCap.toInt.toNat ≤ bytes.length)
    (usable : Usable readers request (.ok response)) :
    Delivered readers bytes request respPtr response
      (deliver readers state (some bytes) request respPtr respCap
        response).1 := by
  obtain ⟨after, written, done⟩ := deliver_usable state large inside usable
  obtain ⟨bounded, valid⟩ := usable
  have parsed := validReply_eq_true_iff.mp valid
  have positive : 0 < response.length := by
    rw [List.length_pos_iff]
    rintro rfl
    obtain ⟨reply, read, _⟩ := parsed
    rw [emptyRefused] at read
    exact absurd read (by simp)
  rw [done]
  refine ⟨positive, bounded, ⟨_, rfl, ?_⟩, ⟨after, rfl, written⟩, parsed⟩
  rw [Int32.toInt_ofNat_of_lt]
  unfold payloadBytes at bounded
  omega

theorem deliver_of_not_usable
    (unusable : ¬ Usable readers request (.ok response)) :
    deliver readers state memory request respPtr respCap response =
      state.unresolved memory := by
  unfold deliver
  by_cases long : payloadBytes < response.length ∨
      respCap.toInt.toNat < response.length
  · rw [if_pos long]
  · rw [if_neg long, if_pos]
    rw [not_or, not_lt, not_lt] at long
    rw [← Bool.not_eq_true]
    intro valid
    exact unusable ⟨long.1, valid⟩

/-- The answer of the dispatcher is recorded and either delivered or the code
it left sticks. -/
theorem dispatch_settles (emptyRefused : readers.effectReply [] = none)
    (clear : state.sticky = none)
    (large : (payloadBytes : Int) ≤ respCap.toInt)
    (inside : respPtr.toUInt32.toNat + respCap.toInt.toNat ≤ bytes.length)
    {answer : DispatchResult}
    (answered : dispatcher state.dispatched request = answer)
    (done : dispatch readers dispatcher state (some bytes) request respPtr
      respCap = (reaction, next)) :
    next.dispatched = state.dispatched ++ [(request, answer)] ∧
      (Usable readers request answer → ∃ response, answer = .ok response ∧
        Delivered readers bytes request respPtr response reaction) ∧
      (¬ Usable readers request answer →
        next.sticky = some (lostCode answer)) := by
  unfold dispatch at done
  rw [answered] at done
  cases answer with
  | error failure =>
      simp only [Usable, false_imp_iff, not_false_eq_true, true_imp_iff,
        true_and, lostCode]
      by_cases code : failure.code = .unresolved
      · simp only [code, if_true] at done
        rw [← (Prod.mk.inj done).2]
        simp [State.fail, State.asked, clear, code]
      · simp only [code, if_false] at done
        rw [← (Prod.mk.inj done).2]
        simp [State.fail, State.asked, clear]
  | ok response =>
      simp only at done
      by_cases usable : Usable readers request (.ok response)
      · have delivered := deliver_of_usable (state.asked request (.ok response))
          emptyRefused large inside usable
        have recorded := (deliver_quiet readers
          (state.asked request (.ok response)) (some bytes) request respPtr
          respCap response).dispatched
        rw [done] at delivered recorded
        exact ⟨recorded, fun _ => ⟨response, rfl, delivered⟩,
          fun unusable => absurd usable unusable⟩
      · rw [deliver_of_not_usable usable] at done
        rw [← (Prod.mk.inj done).2]
        simp [State.fail, State.asked, clear, usable, lostCode]

end Delivery

/-- What stuck once stays. -/
theorem metered_sticky {code : AbiCode} (stuck : state.sticky = some code)
    (body : State → Reaction × State) :
    (state.metered memory body).2.sticky = some code := by
  simp [State.metered, State.budget, State.counted, stuck]

theorem perform_sticky (readers : Readers) (dispatcher : Dispatcher)
    {code : AbiCode} (stuck : state.sticky = some code)
    (made : GuestCall) :
    (perform readers dispatcher state made).2.sticky = some code := by
  unfold perform
  cases made.call <;> exact metered_sticky stuck _

theorem interact_sticky {code : AbiCode} (stuck : state.sticky = some code)
    (calls : List GuestCall) :
    (interact readers dispatcher state calls).2.sticky = some code := by
  induction calls generalizing state with
  | nil => exact stuck
  | cons made rest ih =>
      have kept := perform_sticky readers dispatcher stuck made
      unfold interact
      dsimp only
      split
      · exact kept
      · exact ih kept

/-- Every event is a performed call, and what it left sticking decides the
end. -/
theorem interact_events {calls : List GuestCall} {event : Event}
    (member : event ∈ (interact readers dispatcher state calls).1) :
    perform readers dispatcher event.before event.call =
        (event.outcome, event.after) ∧
      ∀ code, event.after.sticky = some code →
        (interact readers dispatcher state calls).2.sticky = some code := by
  induction calls generalizing state with
  | nil => simp [interact] at member
  | cons made rest ih =>
      unfold interact at member ⊢
      dsimp only at member ⊢
      cases result : (perform readers dispatcher state made).1.result with
      | error trap =>
          simp only [result, List.mem_singleton] at member ⊢
          subst member
          exact ⟨rfl, fun _ stuck => stuck⟩
      | ok answer =>
          simp only [result, List.mem_cons] at member ⊢
          rcases member with rfl | later
          · exact ⟨rfl, fun _ stuck => interact_sticky stuck rest⟩
          · exact ih later

theorem log_dispatched {ptr len : Int32} :
    (log state memory ptr len).2.dispatched = state.dispatched := by
  rcases log_cases state memory ptr len with quiet | ⟨message, _, _, logged⟩
  · exact quiet.dispatched
  · rw [logged]
    rfl

/-- A request is accepted only with room for the largest reply. -/
theorem room_of_effectRequest {reqPtr reqLen respPtr respCap : Int32}
    {request : EffectRequest}
    (accepted : effectRequest readers state memory reqPtr reqLen respPtr
      respCap = .ok request) :
    ∃ bytes, memory = some bytes ∧ (payloadBytes : Int) ≤ respCap.toInt ∧
      respPtr.toUInt32.toNat + respCap.toInt.toNat ≤ bytes.length := by
  simp only [effectRequest, Except.bind_eq_ok_iff,
    Except.require_eq_ok_iff] at accepted
  obtain ⟨_, sized, ⟨start, length⟩, ranged, _⟩ := accepted
  obtain ⟨_, rfl, rfl, bytes, exported, inside⟩ := range_eq_ok_iff.mp ranged
  refine ⟨bytes, exported, ?_, inside⟩
  rw [not_or, not_or] at sized
  exact not_lt.mp sized.2.2

/-- A call that asked the dispatcher was an `effectCall` whose whole reply range
lay in the memory, and settles what became of the answer. -/
theorem perform_settles (emptyRefused : readers.effectReply [] = none)
    {made : GuestCall}
    (done : perform readers dispatcher state made = (reaction, next))
    (asked : next.dispatched ≠ state.dispatched) :
    ∃ reqPtr reqLen respPtr respCap bytes request,
      made = ⟨some bytes, .effectCall reqPtr reqLen respPtr respCap⟩ ∧
      state.sticky = none ∧
      respPtr.toUInt32.toNat + respCap.toInt.toNat ≤ bytes.length ∧
      next.dispatched = state.dispatched ++
        [(request, dispatcher state.dispatched request)] ∧
      (Usable readers request (dispatcher state.dispatched request) →
        ∃ response, dispatcher state.dispatched request = .ok response ∧
          Delivered readers bytes request respPtr response reaction) ∧
      (¬ Usable readers request (dispatcher state.dispatched request) →
        next.sticky =
          some (lostCode (dispatcher state.dispatched request))) := by
  obtain ⟨memory, call⟩ := made
  have moved : (perform readers dispatcher state ⟨memory, call⟩).2.dispatched ≠
      state.dispatched := by
    rw [done]
    exact asked
  cases call with
  | inputLen => exact absurd inputLen_quiet.dispatched moved
  | inputRead ptr capacity => exact absurd inputRead_quiet.dispatched moved
  | outputWrite ptr len => exact absurd outputWrite_quiet.dispatched moved
  | log ptr len => exact absurd log_dispatched moved
  | effectCall reqPtr reqLen respPtr respCap =>
      simp only [perform, effectCall] at done
      rcases metered_cases state memory _ with
        ⟨code, refused⟩ | ⟨clear, _, _, continued⟩
      · rw [refused] at done
        rw [← (Prod.mk.inj done).2] at asked
        exact absurd rfl asked
      · rw [continued] at done
        cases accepted : effectRequest readers state.counted memory reqPtr
            reqLen respPtr respCap with
        | error code =>
            simp only [accepted] at done
            rw [← (Prod.mk.inj done).2] at asked
            exact absurd rfl asked
        | ok request =>
            simp only [accepted] at done
            obtain ⟨bytes, rfl, large, inside⟩ :=
              room_of_effectRequest accepted
            obtain ⟨recorded, delivered, lost⟩ :=
              dispatch_settles emptyRefused
                (state.counted_sticky.trans clear) large inside rfl done
            exact ⟨reqPtr, reqLen, respPtr, respCap, bytes, request, rfl,
              clear, inside, recorded, delivered, lost⟩

/-- An accepted effect call whose answer is usable puts it in the memory. -/
theorem perform_of_usable (state : State) (clear : state.sticky = none)
    (unwritten : state.output = none)
    (within : state.counted.calls ≤ state.caps.hostCalls)
    {bytes response : List UInt8} {request : EffectRequest}
    {reqPtr reqLen respPtr respCap : Int32}
    (accepted : effectRequest readers state.counted (some bytes) reqPtr reqLen
      respPtr respCap = .ok request)
    (answered : dispatcher state.dispatched request = .ok response)
    (usable : Usable readers request (.ok response)) :
    ∃ after, Written bytes after respPtr.toUInt32.toNat response ∧
      perform readers dispatcher state
          ⟨some bytes, .effectCall reqPtr reqLen respPtr respCap⟩ =
        (⟨some after, .ok (Int32.ofNat response.length)⟩,
          if request.ordinal = state.nextOrdinal then
            { state.counted.asked request (.ok response) with
              nextOrdinal := state.nextOrdinal + 1 }
          else state.counted.asked request (.ok response)) := by
  obtain ⟨_, same, large, inside⟩ := room_of_effectRequest accepted
  obtain rfl := Option.some.inj same
  obtain ⟨after, written, delivered⟩ := deliver_usable
    (state.counted.asked request (.ok response)) large inside usable
  refine ⟨after, written, ?_⟩
  have asked : dispatcher state.counted.dispatched request = .ok response :=
    answered
  simp only [perform, effectCall]
  rw [metered_eq clear unwritten within]
  simp only [accepted, dispatch, asked, delivered]
  rfl

/-- The events of an invocation are those of the guest's calls, and a code that
stuck after one of them is reported. -/
theorem executeAbi_events {input : List UInt8} {maxEffects : UInt64}
    {caps : AbiCaps} {guest : Guest} {event : Event}
    (member : event ∈
      (executeAbi readers dispatcher input maxEffects caps guest).1) :
    perform readers dispatcher event.before event.call =
        (event.outcome, event.after) ∧
      ∀ code, event.after.sticky = some code →
        (executeAbi readers dispatcher input maxEffects caps guest).2 =
          .error (.violation code) := by
  unfold executeAbi at member ⊢
  split at member
  · simp at member
  next sized =>
    rw [if_neg sized]
    cases checked : caps.validate with
    | error failure => simp [checked] at member
    | ok valid =>
        simp only [checked] at member ⊢
        cases sticky : (interact readers dispatcher
            (initial input maxEffects valid) guest.calls).2.sticky with
        | some reported =>
            simp only [sticky] at member ⊢
            obtain ⟨done, kept⟩ := interact_events member
            refine ⟨done, fun code stuck => ?_⟩
            rw [Option.some.inj ((kept code stuck).symm.trans sticky)]
        | none =>
            simp only [sticky] at member ⊢
            obtain ⟨done, kept⟩ := interact_events member
            refine ⟨done, fun code stuck => ?_⟩
            exact absurd ((kept code stuck).symm.trans sticky) (by simp)

/-- Whenever a host call asks the dispatcher, the reply's whole range lay in
the guest's memory, and either the reply is delivered there whole or the
invocation fails with the code of the failure. -/
theorem dispatched_effect_never_lost
    (emptyRefused : readers.effectReply [] = none) (dispatcher : Dispatcher)
    (input : List UInt8) (maxEffects : UInt64) (caps : AbiCaps)
    (guest : Guest) (event : Event)
    (performed : event ∈
      (executeAbi readers dispatcher input maxEffects caps guest).1)
    (asked : event.after.dispatched ≠ event.before.dispatched) :
    ∃ reqPtr reqLen respPtr respCap bytes request answer,
      event.call = ⟨some bytes, .effectCall reqPtr reqLen respPtr respCap⟩ ∧
      respPtr.toUInt32.toNat + respCap.toInt.toNat ≤ bytes.length ∧
      answer = dispatcher event.before.dispatched request ∧
      event.after.dispatched =
        event.before.dispatched ++ [(request, answer)] ∧
      (Usable readers request answer → ∃ response, answer = .ok response ∧
        Delivered readers bytes request respPtr response event.outcome) ∧
      (¬ Usable readers request answer →
        event.before.sticky = none ∧
        event.after.sticky = some (lostCode answer) ∧
        (executeAbi readers dispatcher input maxEffects caps guest).2 =
          .error (.violation (lostCode answer))) := by
  obtain ⟨done, reported⟩ := executeAbi_events performed
  obtain ⟨reqPtr, reqLen, respPtr, respCap, bytes, request, called, clear,
    inside, recorded, delivered, lost⟩ :=
      perform_settles emptyRefused done asked
  refine ⟨reqPtr, reqLen, respPtr, respCap, bytes, request, _, called, inside,
    rfl, recorded, delivered, ?_⟩
  intro unusable
  exact ⟨clear, lost unusable, reported _ (lost unusable)⟩

/-- The first call of a guest is performed on the initial state. -/
theorem first_event_mem (readers : Readers) (dispatcher : Dispatcher)
    (input : List UInt8) (maxEffects : UInt64) {caps : AbiCaps}
    (made : GuestCall) (rest : List GuestCall)
    (ended : Except RuntimeError Int32) (sized : input.length ≤ payloadBytes)
    (checked : caps.validate = .ok caps) :
    (⟨initial input maxEffects caps, made,
      (perform readers dispatcher (initial input maxEffects caps) made).1,
      (perform readers dispatcher (initial input maxEffects caps) made).2⟩ :
        Event) ∈
      (executeAbi readers dispatcher input maxEffects caps
        ⟨made :: rest, ended⟩).1 := by
  have first : (⟨initial input maxEffects caps, made,
      (perform readers dispatcher (initial input maxEffects caps) made).1,
      (perform readers dispatcher (initial input maxEffects caps) made).2⟩ :
        Event) ∈
      (interact readers dispatcher (initial input maxEffects caps)
        (made :: rest)).1 := by
    unfold interact
    dsimp only
    split <;> simp
  unfold executeAbi
  rw [if_neg (not_lt.mpr sized), checked]
  dsimp only
  split <;> exact first

end Abi

namespace Sample

def effectRequest : EffectRequest :=
  ⟨0, "ticket.create", "tickets-idem", ⟨"DEMO", "Title", "Body"⟩⟩

def effectRequestText : String :=
  "\x7b\"ordinal\":0,\"action\":\"ticket.create\"," ++
    "\"destination\":\"tickets-idem\",\"arguments\":" ++
    "\x7b\"project\":\"DEMO\",\"title\":\"Title\",\"body\":\"Body\"\x7d\x7d"

def effectReplyText : String :=
  "\x7b\"ordinal\":0,\"state\":\"COMMITTED\",\"response\":" ++
    "\x7b\"ticket_id\":\"T-1\",\"project\":\"DEMO\"\x7d,\"replayed\":false\x7d"

def effectReply : Abi.EffectReply := ⟨0, ⟨"T-1", "DEMO"⟩, false⟩

/-- What the readers answer on the texts of the sample. -/
def readers : Abi.Readers where
  effectRequest bytes :=
    if bytes = utf8 effectRequestText then some effectRequest else none
  effectReply bytes :=
    if bytes = utf8 effectReplyText then some effectReply else none

/-- A guest's memory with the request at its start and room for a reply
behind. -/
def guestMemory : List UInt8 :=
  utf8 effectRequestText ++ List.replicate 65536 0

theorem length_effectRequestText : (utf8 effectRequestText).length = 128 := by
  decide +kernel

theorem take_guestMemory : guestMemory.take 128 = utf8 effectRequestText := by
  rw [← length_effectRequestText]
  exact List.take_left

theorem length_guestMemory : guestMemory.length = 128 + 65536 := by
  rw [guestMemory, List.length_append, length_effectRequestText,
    List.length_replicate]

attribute [irreducible] guestMemory

end Sample

namespace Abi

/-- The request in the sample's memory passes every check. -/
theorem effectRequest_sample (next : state.nextOrdinal = 0)
    (budget : state.maxEffects = 8) :
    effectRequest Sample.readers state (some Sample.guestMemory) 0 128 128
      65536 = .ok Sample.effectRequest := by
  have total := Sample.length_guestMemory
  have destination : range (some Sample.guestMemory) 128 65536 =
      .ok (128, 65536) := by
    refine range_eq_ok_iff.mpr ⟨by decide, by decide, by decide, _, rfl, ?_⟩
    omega
  have source : range (some Sample.guestMemory) 0 128 = .ok (0, 128) := by
    refine range_eq_ok_iff.mpr ⟨by decide, by decide, by decide, _, rfl, ?_⟩
    omega
  have copied : read (some Sample.guestMemory) 0 128 =
      .ok (utf8 Sample.effectRequestText) := by
    simp [read, source, memoryRead, Sample.take_guestMemory, total]
  have parsed : EffectRequest.parse Sample.readers.effectRequest
      (utf8 Sample.effectRequestText) = .ok Sample.effectRequest := by
    refine EffectRequest.parse_eq_ok_iff.mpr ⟨by decide +kernel,
      by simp [Sample.readers], Except.eq_ok_of_toOption (by decide +kernel)⟩
  simp only [effectRequest, Except.bind_eq_ok_iff, Except.require_eq_ok_iff,
    Except.mapError_eq_ok_iff, Except.pure_eq_ok_iff, next, budget]
  exact ⟨(), by decide, _, destination, _, copied, _, parsed, (), by decide,
    rfl⟩

theorem usable_sample : Usable Sample.readers Sample.effectRequest
    (.ok (utf8 Sample.effectReplyText)) := by
  constructor <;> decide +kernel

/-- A dispatcher that answers the sample's request has its reply delivered. -/
theorem perform_sample (dispatcher : Dispatcher) (caps : AbiCaps)
    (answered : dispatcher [] Sample.effectRequest =
      .ok (utf8 Sample.effectReplyText))
    (allowed : 1 ≤ caps.hostCalls) :
    ∃ after, perform Sample.readers dispatcher (initial [] 8 caps)
        ⟨some Sample.guestMemory, .effectCall 0 128 128 65536⟩ =
      (⟨some after, .ok 98⟩,
        { initial [] 8 caps with
          calls := 1
          nextOrdinal := 1
          dispatched :=
            [(Sample.effectRequest, .ok (utf8 Sample.effectReplyText))] }) := by
  have accepted : effectRequest Sample.readers (initial [] 8 caps).counted
      (some Sample.guestMemory) 0 128 128 65536 = .ok Sample.effectRequest :=
    effectRequest_sample rfl rfl
  have sized : (utf8 Sample.effectReplyText).length = 98 := by
    decide +kernel
  obtain ⟨after, _, performed⟩ := perform_of_usable (initial [] 8 caps) rfl
    rfl allowed accepted answered usable_sample
  refine ⟨after, performed.trans ?_⟩
  rw [sized]
  rfl

theorem dispatched_effect_never_lost_delivered :
    ∃ event ∈ (executeAbi Sample.readers
        (fun _ _ => .ok (utf8 Sample.effectReplyText)) [] 8 ⟨64, 16384⟩
        ⟨[⟨some Sample.guestMemory, .effectCall 0 128 128 65536⟩], .ok 0⟩).1,
      Delivered Sample.readers Sample.guestMemory Sample.effectRequest 128
        (utf8 Sample.effectReplyText) event.outcome := by
  have valid : (⟨64, 16384⟩ : AbiCaps).validate = .ok ⟨64, 16384⟩ :=
    Except.eq_ok_of_toOption (by decide)
  obtain ⟨after, performed⟩ := perform_sample
    (fun _ _ => .ok (utf8 Sample.effectReplyText)) ⟨64, 16384⟩ rfl (by decide)
  -- what follows does not look at the bytes of the memory
  obtain ⟨bytes, known⟩ : ∃ bytes, Sample.guestMemory = bytes := ⟨_, rfl⟩
  rw [known] at performed ⊢
  have member := first_event_mem Sample.readers
    (fun _ _ => .ok (utf8 Sample.effectReplyText)) [] 8
    ⟨some bytes, .effectCall 0 128 128 65536⟩ [] (.ok 0)
    (Nat.zero_le payloadBytes) valid
  have asked : (perform Sample.readers
      (fun _ _ => .ok (utf8 Sample.effectReplyText)) (initial [] 8 ⟨64, 16384⟩)
      ⟨some bytes, .effectCall 0 128 128 65536⟩).2.dispatched =
        [(Sample.effectRequest, .ok (utf8 Sample.effectReplyText))] := by
    rw [performed]
  obtain ⟨reqPtr, reqLen, respPtr, respCap, memory, request, answer, called, _,
    answered, recorded, delivered, _⟩ := dispatched_effect_never_lost
      (by decide +kernel) _ _ _ _ _ _ member
      (by rw [asked]; exact List.cons_ne_nil _ _)
  rw [asked] at recorded
  simp only [initial, List.nil_append, List.cons.injEq, Prod.mk.injEq,
    and_true] at recorded
  simp only [GuestCall.mk.injEq, Option.some.injEq,
    HostCall.effectCall.injEq] at called
  obtain ⟨rfl, rfl, rfl, rfl, rfl⟩ := called
  obtain ⟨rfl, rfl⟩ := recorded
  obtain ⟨response, same, done⟩ := delivered usable_sample
  obtain rfl := Except.ok.inj same
  exact ⟨_, member, done⟩

end Abi

end EffectLatch
