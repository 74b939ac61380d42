import EffectLatch.AbiDelivery
import EffectLatch.ResponseTransport
import EffectLatch.SupervisorProtocol

/-!
# An honest runner keeps the parent's sequence

The runner's host counts calls and log bytes, the parent counts messages,
identities and log bytes on its own.  A budgeted host call causes one frame at
most, so the two counts agree for every guest.
-/

namespace EffectLatch

namespace Abi

variable {readers : Readers} {dispatcher : Dispatcher} {caps : AbiCaps}
  {state : State} {memory : Memory}

/-- Every dispatch and every log used one call of the budget, and the log bytes
are those of the messages. -/
structure Budgeted (caps : AbiCaps) (state : State) : Prop where
  sameCaps : state.caps = caps
  calls : state.dispatched.length + state.logs.length ≤ state.calls
  hostCalls : state.dispatched.length + state.logs.length ≤ caps.hostCalls
  logBytes : state.logBytes =
    (state.logs.map fun message => (utf8 message).length).sum
  withinCap : state.logBytes ≤ caps.logBytes

namespace Budgeted

theorem quiet {next : State} (budgeted : Budgeted caps state)
    (quiet : Quiet state next) : Budgeted caps next := by
  constructor
  · rw [quiet.caps]
    exact budgeted.sameCaps
  · rw [quiet.dispatched, quiet.logs, quiet.calls]
    exact budgeted.calls
  · rw [quiet.dispatched, quiet.logs]
    exact budgeted.hostCalls
  · rw [quiet.logBytes, quiet.logs]
    exact budgeted.logBytes
  · rw [quiet.logBytes]
    exact budgeted.withinCap

theorem counted (valid : caps.hostCalls ≤ maxHostCalls)
    (budgeted : Budgeted caps state) : Budgeted caps state.counted := by
  refine ⟨budgeted.sameCaps, ?_, budgeted.hostCalls, budgeted.logBytes,
    budgeted.withinCap⟩
  have calls := budgeted.calls
  have few := budgeted.hostCalls
  unfold maxHostCalls at valid
  change state.dispatched.length + state.logs.length ≤
    min (state.calls + 1) (2 ^ 32 - 1)
  omega

/-- A call within its budget leaves room for one dispatch or log. -/
theorem room (valid : caps.hostCalls ≤ maxHostCalls)
    (budgeted : Budgeted caps state)
    (within : state.counted.calls ≤ state.caps.hostCalls) :
    state.dispatched.length + state.logs.length + 1 ≤ state.counted.calls ∧
      state.dispatched.length + state.logs.length + 1 ≤ caps.hostCalls := by
  have calls := budgeted.calls
  rw [budgeted.sameCaps] at within
  unfold maxHostCalls at valid
  change min (state.calls + 1) (2 ^ 32 - 1) ≤ caps.hostCalls at within
  change _ ≤ min (state.calls + 1) (2 ^ 32 - 1) ∧ _
  omega

end Budgeted

/-- A logged message is one frame more, of as many bytes as were charged. -/
theorem budgeted_log (valid : caps.hostCalls ≤ maxHostCalls)
    (budgeted : Budgeted caps state) (ptr len : Int32) :
    Budgeted caps (log state memory ptr len).2 := by
  rcases log_cases state memory ptr len with
    quiet | ⟨message, within, fits, logged⟩
  · exact (budgeted.counted valid).quiet quiet
  · have room := budgeted.room valid within
    have spent := budgeted.withinCap
    rw [budgeted.sameCaps] at fits
    rw [logged]
    refine ⟨budgeted.sameCaps, ?_, ?_, ?_, ?_⟩
    · simpa [Nat.add_assoc] using room.1
    · simpa [Nat.add_assoc] using room.2
    · simp [budgeted.logBytes]
    · dsimp only
      omega

theorem budgeted_dispatch (budgeted : Budgeted caps state)
    (room : state.dispatched.length + state.logs.length + 1 ≤ state.calls ∧
      state.dispatched.length + state.logs.length + 1 ≤ caps.hostCalls)
    (request : EffectRequest) (respPtr respCap : Int32) :
    Budgeted caps (dispatch readers dispatcher state memory request respPtr
      respCap).2 := by
  have asked (answer : DispatchResult) :
      Budgeted caps (state.asked request answer) := by
    refine ⟨budgeted.sameCaps, ?_, ?_, budgeted.logBytes, budgeted.withinCap⟩
    · simpa [State.asked, Nat.add_right_comm] using room.1
    · simpa [State.asked, Nat.add_right_comm] using room.2
  unfold dispatch
  dsimp only
  split
  · exact (asked _).quiet (deliver_quiet ..)
  · split
    · exact ((asked _).quiet (.fail _ _)).quiet (.fail _ _)
    · exact (asked _).quiet (.fail _ _)

theorem budgeted_effectCall (valid : caps.hostCalls ≤ maxHostCalls)
    (budgeted : Budgeted caps state)
    (reqPtr reqLen respPtr respCap : Int32) :
    Budgeted caps (effectCall readers dispatcher state memory reqPtr reqLen
      respPtr respCap).2 := by
  have counted := budgeted.counted valid
  unfold effectCall
  rcases metered_cases state memory _ with
    ⟨code, refused⟩ | ⟨_, _, within, continued⟩
  · rw [refused]
    exact counted.quiet (.fail _ code)
  · rw [continued]
    split
    · exact counted.quiet (.fail _ _)
    · exact budgeted_dispatch counted (budgeted.room valid within) _ respPtr
        respCap

/-- Every host call keeps the budget. -/
theorem budgeted_perform (readers : Readers) (dispatcher : Dispatcher)
    (valid : caps.hostCalls ≤ maxHostCalls)
    (budgeted : Budgeted caps state) (made : GuestCall) :
    Budgeted caps (perform readers dispatcher state made).2 := by
  unfold perform
  cases made.call with
  | inputLen => exact (budgeted.counted valid).quiet inputLen_quiet
  | inputRead ptr capacity =>
      exact (budgeted.counted valid).quiet inputRead_quiet
  | outputWrite ptr len =>
      exact (budgeted.counted valid).quiet outputWrite_quiet
  | log ptr len => exact budgeted_log valid budgeted ptr len
  | effectCall reqPtr reqLen respPtr respCap =>
      exact budgeted_effectCall valid budgeted reqPtr reqLen respPtr respCap

theorem budgeted_interact (readers : Readers) (dispatcher : Dispatcher)
    (valid : caps.hostCalls ≤ maxHostCalls)
    (budgeted : Budgeted caps state) (calls : List GuestCall) :
    Budgeted caps (interact readers dispatcher state calls).2 := by
  induction calls generalizing state with
  | nil => exact budgeted
  | cons made rest ih =>
      have next := budgeted_perform readers dispatcher valid budgeted made
      unfold interact
      dsimp only
      split
      · exact next
      · exact ih next

/-- The last event of an interaction ends in its last state. -/
theorem interact_last (readers : Readers) (dispatcher : Dispatcher)
    (state : State) (calls : List GuestCall) :
    ((interact readers dispatcher state calls).1.getLast?.map
        fun event => event.after.dispatched).getD state.dispatched =
      (interact readers dispatcher state calls).2.dispatched := by
  induction calls generalizing state with
  | nil => rfl
  | cons made rest ih =>
      unfold interact
      dsimp only
      cases result : (perform readers dispatcher state made).1.result with
      | error trap => simp
      | ok answer =>
          dsimp only
          rw [← ih, List.getLast?_cons]
          cases (interact readers dispatcher
              (perform readers dispatcher state made).2 rest).1.getLast? <;>
            rfl

end Abi

namespace Runner

open Ipc Supervision

variable {readers : Abi.Readers} {writers : Writers} {broker : Broker}
  {caps : Abi.AbiCaps} {job : Job}

theorem valid_caps (valid : caps.validate = .ok caps) :
    caps.hostCalls ≤ Abi.maxHostCalls ∧ caps.logBytes ≠ 0 ∧
      caps.logBytes ≤ 16 * 1024 := by
  simp only [Abi.AbiCaps.validate, Except.bind_eq_ok_iff,
    Except.require_eq_ok_iff] at valid
  obtain ⟨_, ⟨_, calls, some_, bytes⟩, _⟩ := valid
  exact ⟨calls, some_, bytes⟩

theorem budgeted_initial (input : List UInt8) (maxEffects : UInt64)
    (caps : Abi.AbiCaps) :
    Abi.Budgeted caps (Abi.initial input maxEffects caps) := by
  constructor <;> simp [Abi.initial]

variable (readers writers broker job)

/-- Requests and logs of an execution share the budget of host calls. -/
theorem execute_bounded (valid : caps.validate = .ok caps) :
    (requests (execute readers writers broker caps job).1).length ≤
        caps.hostCalls ∧
      ∀ outcome,
        (execute readers writers broker caps job).2 = .ok outcome →
        (requests (execute readers writers broker caps job).1).length +
            outcome.logs.length ≤ caps.hostCalls ∧
          (outcome.logs.map fun message => (utf8 message).length).sum ≤
            caps.logBytes := by
  unfold execute
  cases job.compiled with
  | error failure => simp [requests]
  | ok done =>
      dsimp only
      unfold Abi.executeAbi
      by_cases sized : payloadBytes < job.input.length
      · simp [sized, requests]
      · rw [if_neg sized, valid]
        dsimp only
        have budgeted := Abi.budgeted_interact readers
          (ipcDispatcher writers broker) (valid_caps valid).1
          (budgeted_initial job.input job.maxEffects caps) job.guest.calls
        have last := Abi.interact_last readers (ipcDispatcher writers broker)
          (Abi.initial job.input job.maxEffects caps) job.guest.calls
        generalize Abi.interact readers (ipcDispatcher writers broker)
          (Abi.initial job.input job.maxEffects caps) job.guest.calls = ran
          at budgeted last ⊢
        obtain ⟨events, final⟩ := ran
        have asked : requests events = final.dispatched.map Prod.fst := by
          rw [requests, ← last]
          rfl
        have few := budgeted.hostCalls
        dsimp only at few ⊢
        cases final.sticky with
        | some code =>
            simp only [asked, List.length_map, reduceCtorEq, false_imp_iff,
              implies_true, and_true]
            omega
        | none =>
            simp only [asked, List.length_map]
            refine ⟨by omega, ?_⟩
            intro outcome returned
            obtain ⟨_, _, rfl⟩ := Except.map_eq_ok_iff.mp returned
            refine ⟨few, ?_⟩
            rw [← budgeted.logBytes]
            exact budgeted.withinCap

theorem dispatchCode_range (failure : Abi.DispatchFailure) :
    -7 ≤ dispatchCode failure ∧ dispatchCode failure ≤ -3 := by
  cases failure <;> decide

/-- Every response the parent builds passes the check of the protocol. -/
theorem check_responseFrame {messageId : UInt64} {request : EffectRequest}
    {result : BrokerResult} {frame : EffectResponseFrame}
    (built : responseFrame messageId request result = .ok frame) :
    frame.check = .ok () := by
  simp only [responseFrame, Except.bind_eq_ok_iff,
    Except.pure_eq_ok_iff] at built
  obtain ⟨response, answered, rfl⟩ := built
  cases result with
  | ok reply =>
      simp only [brokerResponse] at answered
      split at answered
      · rw [← Except.ok.inj answered]
        rfl
      · simp at answered
  | error failure =>
      cases failure with
      | cancelled => simp [brokerResponse] at answered
      | leaseLost => simp [brokerResponse] at answered
      | effect failure =>
          rw [← Except.ok.inj answered]
          simp only [EffectResponseFrame.check, Except.bind_eq_ok_iff,
            Except.require_eq_ok_iff]
          exact ⟨(), ⟨trivial, trivial⟩, dispatchCode_range failure⟩

/-- The parent between two calls, after so many requests, messages and log
bytes. -/
def ready (asked seen logged cap : Nat) : ParentSequence where
  nextId := UInt64.ofNat (asked + 1)
  pending := none
  finished := false
  logBytes := logged
  logCap := cap
  messages := seen

variable (asked seen logged cap : Nat)

theorem counted_ready (few : seen < 128) :
    (ready asked seen logged cap).counted =
      ready asked (seen + 1) logged cap := by
  simp only [ParentSequence.counted, ready, ParentSequence.mk.injEq, true_and]
  omega

theorem observe_request_ready (few : seen < 128)
    (representable : asked + 2 < 2 ^ 64) (request : EffectRequest) :
    (ready asked seen logged cap).observe
        (.effectRequest 1 (UInt64.ofNat (asked + 1)) request) =
      .ok { ready (asked + 1) (seen + 1) logged cap with
        pending := some (UInt64.ofNat (asked + 1)) } := by
  have next : UInt64.ofNat (asked + 1) + 1 = UInt64.ofNat (asked + 1 + 1) := by
    apply UInt64.toNat_inj.mp
    simp
  have below : (UInt64.ofNat (asked + 1)).toNat + 1 < 2 ^ 64 := by
    rw [UInt64.toNat_ofNat_of_lt' (by unfold UInt64.size; omega)]
    omega
  simp only [ParentSequence.observe, counted_ready _ _ _ _ few,
    Except.bind_eq_ok_iff, Except.require_eq_ok_iff, Except.pure_eq_ok_iff]
  refine ⟨(), ⟨rfl, few⟩, (), ⟨rfl, rfl⟩, (), below, ?_⟩
  simp only [ready, next]

theorem observe_log_ready (few : seen < 128) {message : String}
    (fits : (utf8 message).length ≤ cap - logged) :
    (ready asked seen logged cap).observe (.log 1 message) =
      .ok (ready asked (seen + 1) (logged + (utf8 message).length) cap) := by
  simp only [ParentSequence.observe, counted_ready _ _ _ _ few,
    Except.bind_eq_ok_iff, Except.require_eq_ok_iff, Except.pure_eq_ok_iff]
  exact ⟨(), ⟨rfl, few⟩, (), ⟨rfl, fits⟩, rfl⟩

theorem observe_finish_ready (few : seen < 128) (version : UInt8)
    (outputB64 errorCode : Option String) :
    (ready asked seen logged cap).observe
        (.finish version outputB64 errorCode) =
      .ok { ready asked (seen + 1) logged cap with finished := true } := by
  simp only [ParentSequence.observe, counted_ready _ _ _ _ few,
    Except.bind_eq_ok_iff, Except.require_eq_ok_iff, Except.pure_eq_ok_iff]
  exact ⟨(), ⟨rfl, few⟩, (), rfl, trivial⟩

theorem respond_ready {request : EffectRequest} {result : BrokerResult}
    {frame : EffectResponseFrame} {id : UInt64}
    (built : responseFrame id request result = .ok frame) :
    ({ ready asked seen logged cap with pending := some id } :
        ParentSequence).respond frame = .ok (ready asked seen logged cap) := by
  have own := messageId_of_responseFrame built
  simp only [ParentSequence.respond, check_responseFrame built,
    Except.bind_eq_ok_iff, Except.require_eq_ok_iff, Except.pure_eq_ok_iff]
  exact ⟨(), trivial, (), by rw [own], rfl⟩

theorem follow_append (sequence : ParentSequence)
    (before after : List Message) :
    follow sequence (before ++ after) =
      (follow sequence before).bind fun next => follow next after := by
  induction before generalizing sequence with
  | nil => rfl
  | cons message rest ih =>
      cases message with
      | sent frame =>
          simp only [List.cons_append, follow]
          cases sequence.observe frame with
          | error failure => rfl
          | ok next => exact ih next
      | answered frame =>
          simp only [List.cons_append, follow]
          cases sequence.respond frame with
          | error failure => rfl
          | ok next => exact ih next

/-- The requests of a run keep the parent in step: it accepts them all, and when
it answered them all it is ready for what follows. -/
theorem follow_exchange (broker : Broker) (rest : List EffectRequest) :
    ∀ (earlier : List EffectRequest) (seen : Nat),
      seen + rest.length ≤ 128 → earlier.length ≤ seen →
      ∃ last, follow (ready earlier.length seen logged cap)
          (exchange broker earlier rest).1 = .ok last ∧
        ((exchange broker earlier rest).2 = true →
          last = ready (earlier.length + rest.length) (seen + rest.length)
            logged cap) := by
  induction rest with
  | nil =>
      intro earlier seen few below
      exact ⟨_, rfl, fun _ => rfl⟩
  | cons request rest ih =>
      intro earlier seen few below
      simp only [List.length_cons] at few ⊢
      have observed := observe_request_ready earlier.length seen logged cap
        (by omega) (by omega) request
      unfold exchange
      cases built : responseFrame (messageId earlier) request
          (broker earlier request) with
      | error failure =>
          simp only [follow, messageId, observed]
          exact ⟨_, rfl, fun answered => nomatch answered⟩
      | ok response =>
          obtain ⟨last, followed, settled⟩ :=
            ih (earlier ++ [request]) (seen + 1) (by omega) (by simp; omega)
          simp only [List.length_append, List.length_singleton] at followed settled
          refine ⟨last, ?_, ?_⟩
          · simp only [follow, messageId, observed]
            have answered := respond_ready (earlier.length + 1) (seen + 1) logged
              cap built
            rw [messageId] at answered
            simp only [bind, Except.bind, answered, followed]
          · intro answered
            rw [settled answered]
            congr 1 <;> omega

/-- Logs that fit in the cap are all accepted. -/
theorem follow_logs (logs : List String) :
    ∀ (seen logged : Nat), seen + logs.length ≤ 128 →
      logged + (logs.map fun log => (utf8 log).length).sum ≤ cap →
      ∃ total, follow (ready asked seen logged cap)
          ((logs.map (ChildFrame.log 1)).map Message.sent) =
        .ok (ready asked (seen + logs.length) total cap) := by
  induction logs with
  | nil =>
      intro seen logged few fits
      exact ⟨logged, rfl⟩
  | cons log rest ih =>
      intro seen logged few fits
      simp only [List.length_cons, List.map_cons, List.sum_cons] at few fits ⊢
      have accepted := observe_log_ready asked seen logged cap (by omega)
        (show (utf8 log).length ≤ cap - logged by omega)
      obtain ⟨total, followed⟩ :=
        ih (seen + 1) (logged + (utf8 log).length) (by omega) (by omega)
      refine ⟨total, ?_⟩
      simp only [follow, accepted]
      rw [show seen + (rest.length + 1) = seen + 1 + rest.length by omega]
      exact followed

theorem exchange_frames (broker : Broker) (rest : List EffectRequest) :
    ∀ earlier, ((exchange broker earlier rest).1.filterMap
      Message.frame?).length ≤ rest.length := by
  induction rest with
  | nil => intro earlier; exact Nat.le_refl 0
  | cons request rest ih =>
      intro earlier
      unfold exchange
      split
      · simp [Message.frame?]
      · have later := ih (earlier ++ [request])
        simp only [List.filterMap_cons, Message.frame?, List.length_cons]
        omega

/-- Every answer is well formed and follows its own request directly. -/
theorem exchange_answers (broker : Broker) (rest : List EffectRequest) :
    ∀ (earlier : List EffectRequest) (before after : List Message)
      (frame : EffectResponseFrame),
      (exchange broker earlier rest).1 = before ++ .answered frame :: after →
      frame.check = .ok () ∧ ∃ prior request,
        before = prior ++ [.sent (.effectRequest 1 frame.messageId request)] := by
  induction rest with
  | nil => simp [exchange]
  | cons request rest ih =>
      intro earlier before after frame parts
      unfold exchange at parts
      split at parts
      · rcases before with _ | ⟨first, _ | ⟨second, before⟩⟩ <;> simp at parts
      · next response built =>
          rcases before with _ | ⟨first, _ | ⟨second, before⟩⟩
          · simp at parts
          · simp only [List.cons_append, List.nil_append, List.cons.injEq,
              Message.answered.injEq] at parts
            obtain ⟨rfl, rfl, _⟩ := parts
            rw [messageId_of_responseFrame built]
            exact ⟨check_responseFrame built, [], request, rfl⟩
          · simp only [List.cons_append, List.cons.injEq] at parts
            obtain ⟨rfl, rfl, later⟩ := parts
            obtain ⟨checked, prior, asked, rfl⟩ := ih _ _ _ _ later
            exact ⟨checked, _ :: _ :: prior, asked, rfl⟩

variable {asked seen logged cap}

/-- The frames after an execution are accepted by a parent that is ready. -/
theorem follow_closing (writers : Writers)
    (result : Except Abi.AbiError Abi.AbiOutcome)
    (few : seen < 128)
    (bounded : ∀ outcome, result = .ok outcome →
      seen + outcome.logs.length < 128 ∧
        (outcome.logs.map fun message => (utf8 message).length).sum ≤ cap) :
    ∃ last, follow (ready asked seen 0 cap)
      ((closing writers result).map Message.sent) = .ok last := by
  cases result with
  | error failure =>
      have accepted := observe_finish_ready asked seen 0 cap few 1 none
        (some (abiErrorCode failure))
      simp only [closing, List.map_cons, List.map_nil, follow, accepted]
      exact ⟨_, rfl⟩
  | ok outcome =>
      have enough := bounded outcome rfl
      obtain ⟨total, followed⟩ := follow_logs asked cap outcome.logs seen 0
        (by omega) (by omega)
      have accepted := observe_finish_ready asked (seen + outcome.logs.length)
        total cap enough.1 1 (outcome.output.map writers.base64) none
      rw [closing, List.map_append, follow_append, followed]
      simp only [Except.bind, List.map_cons, List.map_nil, follow, accepted]
      exact ⟨_, rfl⟩

theorem closing_length (writers : Writers)
    (result : Except Abi.AbiError Abi.AbiOutcome) :
    (closing writers result).length = 1 ∨
      ∃ outcome, result = .ok outcome ∧
        (closing writers result).length = outcome.logs.length + 1 := by
  cases result with
  | error failure => exact .inl rfl
  | ok outcome => exact .inr ⟨outcome, rfl, by simp [closing]⟩

/-- What the runner says last is not an answer, so the answers of a
conversation are those of its exchange. -/
theorem conversation_answers {before after : List Message}
    {frame : EffectResponseFrame}
    (parts : conversation readers writers broker caps job =
      before ++ .answered frame :: after) :
    frame.check = .ok () ∧ ∃ prior request,
      before = prior ++ [.sent (.effectRequest 1 frame.messageId request)] := by
  unfold conversation at parts
  dsimp only at parts
  split at parts
  · have silent : Message.answered frame ∉
        (closing writers (execute readers writers broker caps job).2).map
          Message.sent := by
      simp
    obtain ⟨more, _, closed⟩ | ⟨more, exchanged, closed⟩ :=
      List.append_eq_append_iff.mp parts
    · exact absurd (closed ▸ by simp) silent
    · cases more with
      | nil =>
          rw [List.nil_append] at closed
          exact absurd (closed ▸ List.mem_cons_self) silent
      | cons message more =>
          simp only [List.cons_append, List.cons.injEq] at closed
          rw [← closed.1] at exchanged
          exact exchange_answers broker _ [] before more frame exchanged
  · exact exchange_answers broker _ [] before after frame parts

/-- The parent accepts the whole conversation. -/
theorem follow_conversation (valid : caps.validate = .ok caps) :
    ∃ last, follow (ready 0 0 0 caps.logBytes)
      (conversation readers writers broker caps job) = .ok last := by
  have calls : caps.hostCalls ≤ 64 := (valid_caps valid).1
  obtain ⟨few, bounded⟩ := execute_bounded readers writers broker job
    valid
  obtain ⟨last, followed, settled⟩ := follow_exchange 0 caps.logBytes broker
    (requests (execute readers writers broker caps job).1) [] 0 (by omega)
    (Nat.le_refl 0)
  rw [List.length_nil] at followed settled
  unfold conversation
  dsimp only
  split
  · next answered =>
      rw [follow_append, followed, settled answered]
      apply follow_closing
      · omega
      · intro outcome returned
        have enough := bounded outcome returned
        omega
  · exact ⟨last, followed⟩

theorem conversation_frames (valid : caps.validate = .ok caps) :
    ((conversation readers writers broker caps job).filterMap
      Message.frame?).length ≤ caps.hostCalls + 1 := by
  obtain ⟨few, bounded⟩ := execute_bounded readers writers broker job
    valid
  have asked := exchange_frames broker
    (requests (execute readers writers broker caps job).1) []
  unfold conversation
  dsimp only
  split
  · have all : ∀ frames : List ChildFrame,
        (frames.map Message.sent).filterMap Message.frame? = frames := by
      intro frames
      induction frames with
      | nil => rfl
      | cons frame rest ih => simp [Message.frame?, ih]
    rw [List.filterMap_append, all, List.length_append]
    obtain one | ⟨outcome, returned, more⟩ :=
      closing_length writers (execute readers writers broker caps job).2
    · omega
    · have enough := bounded outcome returned
      omega
  · omega

/-- An honest runner never breaks the sequence of the parent.  Every frame and
every response is accepted, every response is well formed and answers the
request right before it, and the frames stay within the host calls and one. -/
theorem runner_never_breaks_sequence (readers : Abi.Readers)
    (writers : Writers) (broker : Broker) (caps : Abi.AbiCaps)
    (valid : caps.validate = .ok caps) (job : Job) :
    (∃ first last, ParentSequence.withLogCap caps.logBytes = .ok first ∧
      follow first (conversation readers writers broker caps job) = .ok last) ∧
    (∀ before frame after,
      conversation readers writers broker caps job =
        before ++ .answered frame :: after →
      frame.check = .ok () ∧ ∃ prior request,
        before = prior ++ [.sent (.effectRequest 1 frame.messageId request)]) ∧
    ((conversation readers writers broker caps job).filterMap
      Message.frame?).length ≤ caps.hostCalls + 1 := by
  refine ⟨?_, ?_, conversation_frames readers writers broker job valid⟩
  · obtain ⟨_, positive, capped⟩ := valid_caps valid
    obtain ⟨last, followed⟩ := follow_conversation readers writers
      broker job valid
    refine ⟨_, last, ?_, followed⟩
    simp only [ParentSequence.withLogCap, Except.bind_eq_ok_iff,
      Except.require_eq_ok_iff]
    exact ⟨(), ⟨positive, capped⟩, rfl⟩
  · intro before frame after parts
    exact conversation_answers readers writers broker job parts

end Runner

namespace Sample

/-- A guest that asks for an effect, logs two bytes and returns them. -/
def job : Runner.Job where
  compiled := .ok ()
  input := []
  maxEffects := 8
  guest := ⟨[⟨some guestMemory, .effectCall 0 128 128 65536⟩,
    ⟨some [104, 105], .log 0 2⟩, ⟨some [104, 105], .outputWrite 0 2⟩], .ok 0⟩

def broker : Runner.Broker := fun _ _ => .ok effectReply

end Sample

namespace Runner

open Ipc Supervision

theorem responseFrame_sample (messageId : UInt64) :
    responseFrame messageId Sample.effectRequest (.ok Sample.effectReply) =
      .ok ⟨1, "effect_response", messageId,
        .committed Sample.effectReply⟩ := by
  have valid : validReply Sample.effectRequest Sample.effectReply = true := by
    decide +kernel
  simp only [responseFrame, brokerResponse, valid, if_true, Except.ok_bind_eq]
  rfl

theorem ipcDispatcher_sample :
    ipcDispatcher Sample.wireCodec.writers Sample.broker []
      Sample.effectRequest = .ok (utf8 Sample.effectReplyText) := by
  have written : Sample.wireCodec.writers.effectReply Sample.effectReply =
      utf8 Sample.effectReplyText := by
    decide +kernel
  simp [ipcDispatcher, Sample.broker, responseFrame_sample, settle, messageId,
    written]

/-- The guest of the sample gets its reply. -/
theorem execute_sample :
    requests (execute Sample.readers Sample.wireCodec.writers Sample.broker
        ⟨4, 16⟩ Sample.job).1 = [Sample.effectRequest] ∧
      (execute Sample.readers Sample.wireCodec.writers Sample.broker ⟨4, 16⟩
        Sample.job).2 = .ok ⟨0, some [104, 105], ["hi"], 3⟩ := by
  obtain ⟨after, performed⟩ := Abi.perform_sample
    (ipcDispatcher Sample.wireCodec.writers Sample.broker) ⟨4, 16⟩
    ipcDispatcher_sample (by decide)
  have valid : (⟨4, 16⟩ : Abi.AbiCaps).validate = .ok ⟨4, 16⟩ :=
    Except.eq_ok_of_toOption (by decide)
  have small : ¬ payloadBytes < ([] : List UInt8).length := by decide
  unfold Sample.job
  obtain ⟨bytes, known⟩ : ∃ bytes, Sample.guestMemory = bytes := ⟨_, rfl⟩
  rw [known] at performed ⊢
  simp only [execute, Abi.executeAbi, valid, if_neg small, Abi.interact,
    performed]
  exact ⟨rfl, rfl⟩

theorem conversation_sample :
    conversation Sample.readers Sample.wireCodec.writers Sample.broker ⟨4, 16⟩
        Sample.job =
      [.sent (.effectRequest 1 1 Sample.effectRequest),
        .answered ⟨1, "effect_response", 1, .committed Sample.effectReply⟩,
        .sent (.log 1 "hi"), .sent (.finish 1 (some "aGk=") none)] := by
  obtain ⟨asked, returned⟩ := execute_sample
  have exchanged : exchange Sample.broker [] [Sample.effectRequest] =
      ([.sent (.effectRequest 1 1 Sample.effectRequest),
        .answered ⟨1, "effect_response", 1, .committed Sample.effectReply⟩],
        true) := by
    simp only [exchange, Sample.broker, responseFrame_sample]
    rfl
  rw [conversation, asked, exchanged, returned]
  decide +kernel

/-- An effect with its answer, one log and a return. -/
theorem runner_never_breaks_sequence_answered :
    (∃ first last, ParentSequence.withLogCap 16 = .ok first ∧
      follow first (conversation Sample.readers Sample.wireCodec.writers
        Sample.broker ⟨4, 16⟩ Sample.job) = .ok last) ∧
    conversation Sample.readers Sample.wireCodec.writers Sample.broker ⟨4, 16⟩
        Sample.job =
      [.sent (.effectRequest 1 1 Sample.effectRequest),
        .answered ⟨1, "effect_response", 1, .committed Sample.effectReply⟩,
        .sent (.log 1 "hi"), .sent (.finish 1 (some "aGk=") none)] :=
  ⟨(runner_never_breaks_sequence Sample.readers Sample.wireCodec.writers
    Sample.broker ⟨4, 16⟩ (Except.eq_ok_of_toOption (by decide))
    Sample.job).1, conversation_sample⟩

end Runner

end EffectLatch
