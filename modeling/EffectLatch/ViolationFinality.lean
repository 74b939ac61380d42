import EffectLatch.AbiSteps
import Mathlib.Algebra.GroupWithZero.Nat
import Mathlib.Algebra.Order.BigOperators.Group.List

/-!
# The first violation decides the outcome

A code that sticks answers every later host call and is the result of the
invocation.  Without a violation the outcome is what the guest's calls gave:
their number, the messages they logged and the output the last one wrote.
-/

namespace EffectLatch

namespace Abi

variable {readers : Readers} {dispatcher : Dispatcher} {state : State}
  {caps : AbiCaps} {history : List Event} {event : Event}

/-- The message a call logged, if it was accepted. -/
def Event.message (event : Event) : Option String :=
  match event.call.call, event.outcome.result with
  | .log ptr len, .ok count =>
      if 0 ≤ count then do
        let bytes ← (read event.call.memory ptr len).toOption
        String.fromUTF8? ⟨bytes.toArray⟩
      else none
  | _, _ => none

/-- The output a call wrote, if it was accepted. -/
def Event.written (event : Event) : Option (List UInt8) :=
  match event.call.call, event.outcome.result with
  | .outputWrite ptr len, .ok count =>
      if 0 ≤ count then (read event.call.memory ptr len).toOption else none
  | _, _ => none

/-- The call was answered with the code and changed nothing. -/
structure Answered (code : AbiCode) (event : Event) : Prop where
  result : event.outcome.result = .ok code.toInt32
  memory : event.outcome.memory = event.call.memory
  dispatched : event.after.dispatched = event.before.dispatched
  output : event.after.output = event.before.output
  logs : event.after.logs = event.before.logs
  nextOrdinal : event.after.nextOrdinal = event.before.nextOrdinal

/-- After a violation only its code is answered. -/
theorem HostStep.answered {code : AbiCode}
    (stepped : HostStep readers dispatcher event.before event.call
      event.outcome event.after)
    (stuck : event.before.sticky = some code) :
    Answered code event ∧ event.after.sticky = some code := by
  obtain ⟨before, made, outcome, after⟩ := event
  dsimp only at stepped stuck ⊢
  cases stepped with
  | stuck sticky =>
      obtain rfl := Option.some.inj (sticky.symm.trans stuck)
      exact ⟨⟨rfl, rfl, rfl, rfl, rfl, rfl⟩, stuck⟩
  | refused sticky => simp [stuck] at sticky
  | informed clear _ | wrote clear _ _ _ | logged clear _ _ _ _ _
  | lost clear _ _ | delivered clear _ _ _ _ _ =>
      exact absurd (stuck.symm.trans clear.sticky) (by simp)

theorem interact_answered {code : AbiCode} (stuck : state.sticky = some code)
    (calls : List GuestCall) :
    (∀ event ∈ (interact readers dispatcher state calls).1,
      Answered code event) ∧
      (interact readers dispatcher state calls).2.sticky = some code := by
  have together := interact_induction readers dispatcher
    (fun history state => (∀ event ∈ history, Answered code event) ∧
      state.sticky = some code)
    (fun {history event} holds stepped => by
      obtain ⟨answered, kept⟩ := stepped.answered holds.2
      refine ⟨?_, kept⟩
      intro other member
      rcases List.mem_append.mp member with earlier | last
      · exact holds.1 other earlier
      · exact List.mem_singleton.mp last ▸ answered)
    calls ⟨List.forall_mem_nil _, stuck⟩
  simpa using together

/-- The part of an invocation in which no code stuck. -/
structure Unviolated (caps : AbiCaps) (history : List Event) (state : State) :
    Prop where
  answered : ∀ event ∈ history, event.outcome.result.isOk = true
  calls : state.calls = history.length
  within : state.calls ≤ caps.hostCalls
  logs : state.logs = history.filterMap Event.message
  logBytes : state.logBytes =
    (state.logs.map fun message => (utf8 message).length).sum
  bounded : state.logBytes ≤ caps.logBytes
  output : state.output = history.getLast?.bind Event.written
  early : ∀ event ∈ history.dropLast, event.written = none

/-- Before the output was written no call wrote one. -/
theorem Unviolated.written_eq_none (clean : Unviolated caps history state)
    (unwritten : state.output = none) :
    ∀ event ∈ history, event.written = none := by
  rcases List.eq_nil_or_concat history with rfl | ⟨front, last, rfl⟩
  · simp
  · have output := clean.output
    have early := clean.early
    simp only [List.concat_eq_append, List.getLast?_concat, Option.bind_some,
      List.dropLast_concat] at output early
    intro event member
    rw [List.concat_eq_append] at member
    rcases List.mem_append.mp member with earlier | same
    · exact early event earlier
    · rw [List.mem_singleton.mp same, ← output]
      exact unwritten

/-- What a call leaves behind when nothing stuck before it or at it. -/
structure Clean (event : Event) : Prop where
  clear : Clear event.before
  answered : event.outcome.result.isOk = true
  caps : event.after.caps = event.before.caps
  calls : event.after.calls = event.before.counted.calls
  logs : event.after.logs = event.before.logs ++ event.message.toList
  logBytes : event.after.logBytes = event.before.logBytes +
    (event.message.toList.map fun message => (utf8 message).length).sum
  bounded : event.before.logBytes ≤ event.before.caps.logBytes →
    event.after.logBytes ≤ event.before.caps.logBytes
  output : event.after.output = event.written

theorem State.replied_eq (state : State) (request : EffectRequest)
    (response : List UInt8) : state.replied request response =
      { state.asked request (.ok response) with
        nextOrdinal := if request.ordinal = state.nextOrdinal then
          state.nextOrdinal + 1 else state.nextOrdinal } := by
  unfold State.replied
  dsimp only
  split <;> rfl

/-- A call in which nothing sticks is one of the accepted ones. -/
theorem HostStep.clean
    (stepped : HostStep readers dispatcher event.before event.call
      event.outcome event.after)
    (unstuck : event.after.sticky = none) : Clean event := by
  obtain ⟨before, ⟨memory, call⟩, outcome, after⟩ := event
  dsimp only at stepped unstuck ⊢
  cases stepped with
  | stuck sticky =>
      exact absurd (sticky.symm.trans unstuck) (by simp)
  | refused _ | lost _ _ _ => simp [State.fail] at unstuck
  | informed clear called =>
      rcases called with rfl | ⟨ptr, capacity, rfl⟩
      · exact ⟨clear, rfl, rfl, rfl, (List.append_nil _).symm, rfl, id,
          clear.output⟩
      · exact ⟨clear, rfl, rfl, rfl, (List.append_nil _).symm, rfl, id,
          clear.output⟩
  | wrote clear called signed copied =>
      dsimp only at called
      subst called
      refine ⟨clear, rfl, rfl, rfl, (List.append_nil _).symm, rfl, id, ?_⟩
      dsimp only [Event.written] at copied ⊢
      rw [if_pos signed, copied]
      rfl
  | @logged ptr len bytes message clear called signed copied decoded room =>
      dsimp only at called
      subst called
      have kept (after : State) : Event.message
          ⟨before, ⟨memory, .log ptr len⟩, ⟨memory, .ok len⟩, after⟩ =
            some message := by
        dsimp only [Event.message] at copied ⊢
        rw [if_pos signed, copied]
        exact decoded
      refine ⟨clear, rfl, rfl, rfl, ?_, ?_, ?_, clear.output⟩
      · rw [kept]
        rfl
      · rw [kept]
        simp
      · intro bounded
        dsimp only at bounded room ⊢
        omega
  | delivered clear requested answered short valid stored =>
      obtain ⟨⟨reqPtr, reqLen, called, _⟩⟩ := requested
      dsimp only at called
      subst called
      rw [State.replied_eq]
      exact ⟨clear, rfl, rfl, rfl, (List.append_nil _).symm, rfl, id,
        clear.output⟩

/-- One more call without a violation. -/
theorem Unviolated.append (valid : caps.hostCalls ≤ maxHostCalls)
    (unviolated : Unviolated caps history event.before)
    (sameCaps : event.before.caps = caps) (clean : Clean event) :
    Unviolated caps (history ++ [event]) event.after := by
  have within := clean.clear.within
  have before := unviolated.within
  have counted : event.before.counted.calls = event.before.calls + 1 := by
    unfold maxHostCalls at valid
    change min (event.before.calls + 1) (2 ^ 32 - 1) = _
    omega
  constructor
  · intro other member
    rcases List.mem_append.mp member with earlier | last
    · exact unviolated.answered other earlier
    · exact List.mem_singleton.mp last ▸ clean.answered
  · rw [clean.calls, counted, unviolated.calls, List.length_append]
    rfl
  · rw [clean.calls, ← sameCaps]
    exact within
  · rw [clean.logs, unviolated.logs, List.filterMap_append]
    cases kept : event.message <;> simp [kept]
  · rw [clean.logBytes, clean.logs, unviolated.logBytes, List.map_append,
      List.sum_append]
  · rw [← sameCaps]
    exact clean.bounded (sameCaps ▸ unviolated.bounded)
  · rw [clean.output, List.getLast?_concat]
    rfl
  · rw [List.dropLast_concat]
    exact unviolated.written_eq_none clean.clear.output

theorem unviolated_initial (input : List UInt8) (maxEffects : UInt64)
    (caps : AbiCaps) : Unviolated caps [] (initial input maxEffects caps) := by
  constructor <;> simp [initial]

/-- An interaction in which nothing stuck. -/
theorem interact_unviolated (readers : Readers) (dispatcher : Dispatcher)
    (valid : caps.hostCalls ≤ maxHostCalls)
    (input : List UInt8) (maxEffects : UInt64) (calls : List GuestCall) :
    (∀ event ∈ (interact readers dispatcher (initial input maxEffects caps)
        calls).1, event.after.sticky = none) →
      (interact readers dispatcher (initial input maxEffects caps)
        calls).2.sticky = none ∧
      Unviolated caps
        (interact readers dispatcher (initial input maxEffects caps) calls).1
        (interact readers dispatcher (initial input maxEffects caps)
          calls).2 := by
  have together := interact_induction readers dispatcher
    (fun history state => (∀ event ∈ history, event.after.sticky = none) →
      state.sticky = none ∧ state.caps = caps ∧ Unviolated caps history state)
    (fun {history event} holds stepped unstuck => by
      rw [List.forall_mem_append, List.forall_mem_singleton] at unstuck
      obtain ⟨_, sameCaps, unviolated⟩ := holds unstuck.1
      have clean := stepped.clean unstuck.2
      exact ⟨unstuck.2, clean.caps.trans sameCaps,
        unviolated.append valid sameCaps clean⟩)
    calls fun _ => ⟨rfl, rfl, unviolated_initial input maxEffects caps⟩
  intro unstuck
  obtain ⟨sticky, _, unviolated⟩ := together (by simpa using unstuck)
  exact ⟨sticky, unviolated⟩

/-- What an invocation without a violation reports. -/
def State.outcome (state : State) (returnCode : Int32) : AbiOutcome where
  returnCode := returnCode
  output := state.output
  logs := state.logs
  hostCalls := state.calls

/-- The result of an invocation that runs. -/
theorem executeAbi_eq (valid : caps.validate = .ok caps)
    {input : List UInt8} (sized : input.length ≤ payloadBytes)
    (maxEffects : UInt64) (guest : Guest) {events : List Event}
    {final : State}
    (ran : interact readers dispatcher (initial input maxEffects caps)
      guest.calls = (events, final)) :
    executeAbi readers dispatcher input maxEffects caps guest =
      (events, match final.sticky with
      | some code => .error (.violation code)
      | none => (engineResult guest events).map final.outcome) := by
  unfold executeAbi
  rw [if_neg (not_lt.mpr sized), valid]
  simp only [ran]
  cases final.sticky <;> rfl

theorem valid_hostCalls (valid : caps.validate = .ok caps) :
    caps.hostCalls ≤ maxHostCalls := by
  simp only [AbiCaps.validate, Except.bind_eq_ok_iff,
    Except.require_eq_ok_iff] at valid
  obtain ⟨_, ⟨_, calls, _⟩, _⟩ := valid
  exact calls

/-- The outcome an invocation reports is made of its accepted calls. -/
structure Reported (caps : AbiCaps) (events : List Event)
    (returnCode : Int32) (outcome : AbiOutcome) : Prop where
  returnCode : outcome.returnCode = returnCode
  hostCalls : outcome.hostCalls = events.length
  within : outcome.hostCalls ≤ caps.hostCalls
  logs : outcome.logs = events.filterMap Event.message
  logBytes :
    (outcome.logs.map fun message => (utf8 message).length).sum ≤ caps.logBytes
  output : outcome.output = events.getLast?.bind Event.written
  early : ∀ event ∈ events.dropLast, event.written = none

/-- The first violation answers every later call and is the result.  Without
one, a guest that returns gets an outcome made of its accepted calls. -/
theorem first_violation_final (readers : Readers) (dispatcher : Dispatcher)
    (valid : caps.validate = .ok caps) {input : List UInt8}
    (sized : input.length ≤ payloadBytes) (maxEffects : UInt64)
    (guest : Guest) {events : List Event}
    {result : Except AbiError AbiOutcome}
    (ran : executeAbi readers dispatcher input maxEffects caps guest =
      (events, result)) :
    (∀ earlier event later code, events = earlier ++ event :: later →
      event.after.sticky = some code →
      (∀ other ∈ later, Answered code other) ∧
        result = .error (.violation code)) ∧
    ((∀ event ∈ events, event.after.sticky = none) →
      ∀ returnCode, guest.ended = .ok returnCode →
      ∃ outcome, result = .ok outcome ∧
        Reported caps events returnCode outcome) := by
  cases interacted : interact readers dispatcher
    (initial input maxEffects caps) guest.calls with
  | mk performed final =>
  rw [executeAbi_eq valid sized maxEffects guest interacted] at ran
  obtain ⟨rfl, rfl⟩ := Prod.mk.inj ran
  refine ⟨?_, ?_⟩
  · intro earlier event later code position stuck
    obtain ⟨_, rest, continued⟩ := interact_split
      (congrArg Prod.fst interacted |>.trans position)
    obtain ⟨answered, kept⟩ := interact_answered stuck rest
    rw [continued, interacted] at answered kept
    refine ⟨answered, ?_⟩
    dsimp only at kept
    rw [kept]
  · intro unstuck returnCode returned
    have unviolated := interact_unviolated readers dispatcher
      (valid_hostCalls valid) input maxEffects guest.calls
    rw [interacted] at unviolated
    obtain ⟨sticky, unviolated⟩ := unviolated unstuck
    dsimp only at sticky unviolated
    have engine : engineResult guest performed = .ok returnCode := by
      rw [engineResult, if_pos (List.all_eq_true.mpr unviolated.answered),
        returned]
      rfl
    refine ⟨final.outcome returnCode, ?_, rfl, unviolated.calls,
      unviolated.within, unviolated.logs, ?_, unviolated.output,
      unviolated.early⟩
    · rw [sticky, engine]
      rfl
    · exact unviolated.logBytes ▸ unviolated.bounded

/-- A guest that writes its output twice. -/
def twice : Guest where
  calls := [⟨some [7], .outputWrite 0 1⟩, ⟨some [7], .outputWrite 0 1⟩,
    ⟨some [7], .log 0 1⟩]
  ended := .ok 0

theorem first_violation_final_twice :
    (executeAbi Sample.readers (fun _ _ => .error .policy) [] 0 ⟨64, 16384⟩
      twice).2 = .error (.violation .invalidState) := by
  have valid : (⟨64, 16384⟩ : AbiCaps).validate = .ok ⟨64, 16384⟩ :=
    Except.eq_ok_of_toOption (by decide)
  have empty : ([] : List UInt8).length ≤ payloadBytes := Nat.zero_le _
  obtain ⟨first, second, third, events, stuck⟩ :
      ∃ first second third : Event,
        (executeAbi Sample.readers (fun _ _ => .error .policy) [] 0
          ⟨64, 16384⟩ twice).1 = [first, second, third] ∧
        second.after.sticky = some .invalidState :=
    ⟨_, _, _, rfl, rfl⟩
  exact ((first_violation_final Sample.readers (fun _ _ => .error .policy)
    valid empty 0 twice (Prod.ext events rfl)).1 [first] second [third]
    .invalidState rfl stuck).2

end Abi

end EffectLatch
