import EffectLatch.RuntimeSupervisor

/-!
# Safety of the supervisor's protocol

The loop keeps two records of an outstanding call: its own flag and the pending
identity of the sequence.  They agree whenever an iteration begins, whatever
the child sends and whenever the broker answers, so calls are numbered in order
and answered one at a time.
-/

namespace EffectLatch

namespace Supervision

open Ipc

/-- The message of a log frame. -/
def logMessage : ChildFrame → Option String
  | .log _ message => some message
  | _ => none

namespace State

/-- What holds also after the loop returned, with a broker call still in
flight. -/
structure Safe (state : State) : Prop where
  oneOutstanding : state.inFlight.length + state.results.length ≤ 1
  numbered : state.dispatched.map (fun dispatch => dispatch.messageId.toNat) =
    List.range' 1 state.dispatched.length
  answered : state.responses.map EffectResponseFrame.messageId =
    (state.dispatched.map Dispatch.messageId).take state.responses.length

/-- What holds between two steps of the loop. -/
structure Consistent (logCap : Nat) (state : State) : Prop where
  pending : state.sequence.pending =
    if state.dispatchPending then
      state.dispatched.getLast?.map Dispatch.messageId
    else none
  progress : state.dispatched.length =
    state.responses.length + if state.dispatchPending then 1 else 0
  outstanding : ∀ dispatch ∈ state.inFlight ++ state.results.map Prod.fst,
    state.dispatchPending = true ∧ state.dispatched.getLast? = some dispatch
  nextId : state.sequence.nextId.toNat = state.dispatched.length + 1
  messages : state.sequence.messages = state.observed.length
  bounded : state.observed.length ≤ 128
  logs : state.logs = state.observed.filterMap logMessage
  logBytes : state.sequence.logBytes =
    (state.logs.map fun message => (utf8 message).length).sum
  cap : state.sequence.logCap = logCap
  withinCap : state.sequence.logBytes ≤ logCap

/-- What holds when the loop returned an outcome. -/
structure Concluded (logCap : Nat) (state : State)
    (outcome : SupervisedOutcome) : Prop where
  lastFrame : ∃ version outputB64 errorCode,
    state.observed.getLast? = some (.finish version outputB64 errorCode)
  answered : state.responses.map EffectResponseFrame.messageId =
    state.dispatched.map Dispatch.messageId
  bounded : state.observed.length ≤ 128
  logs : outcome.logs = state.observed.filterMap logMessage
  withinCap : (outcome.logs.map fun message => (utf8 message).length).sum ≤
    logCap

end State

/-- The invariant of a run. -/
structure Run.Invariant (logCap : Nat) (run : Run) : Prop where
  safe : run.state.Safe
  running : run.result = none → run.state.Consistent logCap
  concluded : ∀ outcome, run.result = some (.ok outcome) →
    run.state.Concluded logCap outcome

variable {logCap : Nat} {state : State}

/-- A run that failed only has to be safe. -/
theorem State.Safe.fail (safe : state.Safe) (error : SupervisorError) :
    (state.fail error).Invariant logCap where
  safe := safe
  running := by simp [State.fail]
  concluded := by simp [State.fail]

/-- A run that goes on has to be consistent too. -/
theorem State.Safe.goOn (safe : state.Safe)
    (consistent : state.Consistent logCap) :
    state.goOn.Invariant logCap where
  safe := safe
  running _ := consistent
  concluded := by simp [State.goOn]

theorem counted_messages {sequence : ParentSequence}
    (few : sequence.counted.messages ≤ 128) :
    sequence.counted.messages = sequence.messages + 1 := by
  unfold ParentSequence.counted at few ⊢
  dsimp only at few ⊢
  omega

theorem invariant_start (logCap : Nat) : (start logCap).Invariant logCap := by
  unfold start
  cases opened : ParentSequence.withLogCap logCap with
  | error error =>
      apply State.Safe.fail
      constructor <;> simp
  | ok sequence =>
      simp only [ParentSequence.withLogCap, Except.bind_eq_ok_iff,
        Except.pure_eq_ok_iff] at opened
      obtain ⟨_, _, rfl⟩ := opened
      apply State.Safe.goOn
      · constructor <;> simp
      · constructor <;> simp

theorem messageId_of_responseFrame {messageId : UInt64}
    {request : EffectRequest} {result : BrokerResult}
    {frame : EffectResponseFrame}
    (built : responseFrame messageId request result = .ok frame) :
    frame.messageId = messageId := by
  simp only [responseFrame, Except.bind_eq_ok_iff,
    Except.pure_eq_ok_iff] at built
  obtain ⟨_, _, rfl⟩ := built
  rfl

/-- A received result belongs to the one outstanding call, which is the last
and the only one without a response. -/
theorem State.Consistent.awaited {dispatch : Dispatch} {result : BrokerResult}
    {rest : List (Dispatch × BrokerResult)} (safe : state.Safe)
    (consistent : state.Consistent logCap)
    (arrived : state.results = (dispatch, result) :: rest) :
    state.inFlight = [] ∧ rest = [] ∧ ∃ front,
      state.dispatched = front ++ [dispatch] ∧
        state.responses.length = front.length := by
  have few := safe.oneOutstanding
  rw [arrived, List.length_cons] at few
  obtain ⟨busy, last⟩ := consistent.outstanding dispatch (by simp [arrived])
  obtain ⟨front, split⟩ := List.getLast?_eq_some_iff.mp last
  refine ⟨?_, ?_, front, split, ?_⟩
  · apply List.eq_nil_of_length_eq_zero
    omega
  · apply List.eq_nil_of_length_eq_zero
    omega
  · have progress := consistent.progress
    rw [split, busy] at progress
    simpa using progress.symm

/-- The response to the outstanding call completes the answers. -/
theorem State.Safe.responded {dispatch : Dispatch} {front : List Dispatch}
    {frame : EffectResponseFrame} (safe : state.Safe)
    (split : state.dispatched = front ++ [dispatch])
    (counts : state.responses.length = front.length)
    (own : frame.messageId = dispatch.messageId) :
    (state.responses ++ [frame]).map EffectResponseFrame.messageId =
      (state.dispatched.map Dispatch.messageId).take
        (state.responses ++ [frame]).length := by
  have complete : state.dispatched.length =
      (state.responses ++ [frame]).length := by
    rw [split, List.length_append, List.length_append, counts]
    rfl
  rw [← complete, List.take_of_length_le (by simp), List.map_append,
    safe.answered, split, counts, List.map_append]
  simp [own]

/-- The response to the received result is written, or the run fails. -/
theorem invariant_answer {dispatch : Dispatch} {result : BrokerResult}
    {rest : List (Dispatch × BrokerResult)} (safe : state.Safe)
    (consistent : state.Consistent logCap)
    (arrived : state.results = (dispatch, result) :: rest)
    (written : Except SupervisorError Unit) :
    (({ state with results := rest } : State).answer dispatch result
      written).Invariant logCap := by
  obtain ⟨idle, rfl, front, split, counts⟩ := consistent.awaited safe arrived
  have taken : ({ state with results := [], dispatchPending := false } :
      State).Safe :=
    ⟨by simp [idle], safe.numbered, safe.answered⟩
  unfold State.answer
  dsimp only
  cases built : responseFrame dispatch.messageId dispatch.request result with
  | error error => exact taken.fail error
  | ok frame =>
      dsimp only
      cases answered : state.sequence.respond frame with
      | error error => exact taken.fail _
      | ok sequence =>
          simp only [ParentSequence.respond, Except.bind_eq_ok_iff,
            Except.pure_eq_ok_iff] at answered
          obtain ⟨_, _, _, _, rfl⟩ := answered
          have own := messageId_of_responseFrame built
          have responded : ({ state with
              results := []
              dispatchPending := false
              sequence := { state.sequence with pending := none }
              responses := state.responses ++ [frame] } : State).Safe :=
            ⟨by simp [idle], safe.numbered, safe.responded split counts own⟩
          dsimp only
          cases written with
          | error error => exact responded.fail error
          | ok done =>
              refine State.Safe.goOn ⟨responded.1, responded.2, responded.3⟩ ?_
              exact {
                pending := rfl
                progress := by simp [split, counts]
                outstanding := by simp [idle]
                nextId := consistent.nextId
                messages := consistent.messages
                bounded := consistent.bounded
                logs := consistent.logs
                logBytes := consistent.logBytes
                cap := consistent.cap
                withinCap := consistent.withinCap }

/-- Moving to the other half of an iteration changes nothing else. -/
theorem State.Safe.move (safe : state.Safe)
    (consistent : state.Consistent logCap) (phase : Phase) :
    ({ state with phase := phase } : State).goOn.Invariant logCap :=
  State.Safe.goOn ⟨safe.1, safe.2, safe.3⟩
    { pending := consistent.pending
      progress := consistent.progress
      outstanding := consistent.outstanding
      nextId := consistent.nextId
      messages := consistent.messages
      bounded := consistent.bounded
      logs := consistent.logs
      logBytes := consistent.logBytes
      cap := consistent.cap
      withinCap := consistent.withinCap }

theorem invariant_poll (safe : state.Safe)
    (consistent : state.Consistent logCap) (lease : LeaseState)
    (expired : Bool) (written : Except SupervisorError Unit) :
    (state.poll lease expired written).Invariant logCap := by
  unfold State.poll
  cases lease with
  | cancelled => exact safe.fail _
  | lost => exact safe.fail _
  | current =>
      dsimp only
      split
      · exact safe.fail _
      · split
        · split
          · exact safe.move consistent .receiving
          next dispatch result rest arrived =>
            exact invariant_answer safe consistent arrived written
        · exact safe.move consistent .receiving

/-- What observing a request tells: nothing was outstanding, and the identity is
the next one. -/
theorem observe_effectRequest {sequence next : ParentSequence}
    {version : UInt8} {messageId : UInt64} {request : EffectRequest}
    (seen : sequence.observe (.effectRequest version messageId request) =
      .ok next) :
    sequence.pending = none ∧ messageId = sequence.nextId ∧
      next.pending = some messageId ∧
      next.nextId.toNat = sequence.nextId.toNat + 1 ∧
      next.messages = sequence.messages + 1 ∧ next.messages ≤ 128 ∧
      next.logBytes = sequence.logBytes ∧ next.logCap = sequence.logCap := by
  simp only [ParentSequence.observe, Except.bind_eq_ok_iff,
    Except.require_eq_ok_iff, Except.pure_eq_ok_iff] at seen
  obtain ⟨_, ⟨_, few⟩, _, ⟨idle, rfl⟩, _, room, rfl⟩ := seen
  refine ⟨idle, rfl, rfl, ?_, counted_messages few, few, rfl, rfl⟩
  change (sequence.nextId + 1).toNat = sequence.nextId.toNat + 1
  rw [UInt64.toNat_add]
  exact Nat.mod_eq_of_lt room

theorem observe_log {sequence next : ParentSequence} {version : UInt8}
    {message : String}
    (seen : sequence.observe (.log version message) = .ok next) :
    next.pending = sequence.pending ∧ next.nextId = sequence.nextId ∧
      next.messages = sequence.messages + 1 ∧ next.messages ≤ 128 ∧
      next.logBytes = sequence.logBytes + (utf8 message).length ∧
      (utf8 message).length ≤ sequence.logCap - sequence.logBytes ∧
      next.logCap = sequence.logCap := by
  simp only [ParentSequence.observe, Except.bind_eq_ok_iff,
    Except.require_eq_ok_iff, Except.pure_eq_ok_iff] at seen
  obtain ⟨_, ⟨_, few⟩, _, ⟨_, fits⟩, rfl⟩ := seen
  exact ⟨rfl, rfl, counted_messages few, few, rfl, fits, rfl⟩

theorem observe_finish {sequence next : ParentSequence} {version : UInt8}
    {outputB64 errorCode : Option String}
    (seen : sequence.observe (.finish version outputB64 errorCode) =
      .ok next) :
    sequence.pending = none ∧ next.messages = sequence.messages + 1 ∧
      next.messages ≤ 128 := by
  simp only [ParentSequence.observe, Except.bind_eq_ok_iff,
    Except.require_eq_ok_iff, Except.pure_eq_ok_iff] at seen
  obtain ⟨_, ⟨_, few⟩, _, idle, rfl⟩ := seen
  exact ⟨idle, counted_messages few, few⟩

/-- The flag of the loop and the pending identity agree. -/
theorem State.Consistent.flag_iff (consistent : state.Consistent logCap) :
    state.dispatchPending = true ↔ state.sequence.pending.isSome = true := by
  rw [consistent.pending]
  cases flag : state.dispatchPending with
  | false => simp
  | true =>
      have progress := consistent.progress
      rw [flag, if_pos rfl] at progress
      have nonempty : state.dispatched ≠ [] := by
        rw [← List.length_pos_iff]
        omega
      simp [List.getLast?_eq_some_getLast nonempty]

/-- Without a pending identity no call is outstanding and all are answered. -/
theorem State.Consistent.idle (consistent : state.Consistent logCap)
    (clear : state.sequence.pending = none) :
    state.dispatchPending = false ∧ state.inFlight = [] ∧
      state.results = [] ∧
      state.dispatched.length = state.responses.length := by
  have flag : state.dispatchPending = false := by
    rw [← Bool.not_eq_true, consistent.flag_iff, clear]
    simp
  have noneLeft : state.inFlight ++ state.results.map Prod.fst = [] := by
    rw [List.eq_nil_iff_forall_not_mem]
    intro dispatch member
    have busy := (consistent.outstanding dispatch member).1
    rw [flag] at busy
    exact absurd busy (by decide)
  rw [List.append_eq_nil_iff, List.map_eq_nil_iff] at noneLeft
  have progress := consistent.progress
  rw [flag] at progress
  exact ⟨flag, noneLeft.1, noneLeft.2, by simpa using progress⟩

/-- A request that was observed is dispatched under the next identity. -/
theorem invariant_dispatch {version : UInt8} {messageId : UInt64}
    {request : EffectRequest} {sequence : ParentSequence} (safe : state.Safe)
    (consistent : state.Consistent logCap)
    (seen : state.sequence.observe (.effectRequest version messageId request) =
      .ok sequence) (surroundings : Surroundings) :
    (({ state with
      sequence := sequence
      observed := state.observed ++
        [.effectRequest version messageId request] } : State).dispatch messageId
        request surroundings).Invariant logCap := by
  obtain ⟨clear, rfl, pending, nextId, messages, few, logBytes, cap⟩ :=
    observe_effectRequest seen
  obtain ⟨flag, noCall, noResult, complete⟩ := consistent.idle clear
  unfold State.dispatch
  rw [if_neg (by simp [flag])]
  split
  · apply State.Safe.fail
    exact ⟨safe.1, safe.2, safe.3⟩
  · refine State.Safe.goOn ⟨?_, ?_, ?_⟩ ?_
    · simp [noCall, noResult]
    · dsimp only
      rw [List.map_append, safe.numbered, List.length_append,
        List.length_singleton, List.range'_1_concat]
      simp [consistent.nextId, Nat.add_comm]
    · dsimp only
      rw [safe.answered, List.map_append, List.take_append_of_le_length]
      simp [complete]
    · exact {
        pending := by simp [pending]
        progress := by simp [complete]
        outstanding := by simp [noCall, noResult]
        nextId := by simp [nextId, consistent.nextId]
        messages := by simp [messages, consistent.messages]
        bounded := by simpa [messages, consistent.messages] using few
        logs := by simp [consistent.logs, logMessage]
        logBytes := logBytes.trans consistent.logBytes
        cap := cap.trans consistent.cap
        withinCap := logBytes.trans_le consistent.withinCap }

theorem invariant_log {version : UInt8} {message : String}
    {sequence : ParentSequence} (safe : state.Safe)
    (consistent : state.Consistent logCap)
    (seen : state.sequence.observe (.log version message) = .ok sequence) :
    ({ state with
      sequence := sequence
      observed := state.observed ++ [.log version message]
      phase := .head
      logs := state.logs ++ [message] } : State).goOn.Invariant logCap := by
  obtain ⟨pending, nextId, messages, few, logBytes, fits, cap⟩ :=
    observe_log seen
  refine State.Safe.goOn ⟨safe.1, safe.2, safe.3⟩ ?_
  exact {
    pending := pending.trans consistent.pending
    progress := consistent.progress
    outstanding := consistent.outstanding
    nextId := by simpa [nextId] using consistent.nextId
    messages := by simp [messages, consistent.messages]
    bounded := by simpa [messages, consistent.messages] using few
    logs := by simp [consistent.logs, logMessage]
    logBytes := by simp [logBytes, consistent.logBytes]
    cap := cap.trans consistent.cap
    withinCap := by
      have within := consistent.withinCap
      rw [consistent.cap] at fits
      dsimp only
      rw [logBytes]
      omega }

/-- A run returns an outcome only after a finish frame with nothing
outstanding. -/
theorem invariant_conclude {version : UInt8}
    {outputB64 errorCode : Option String} {sequence : ParentSequence}
    (decode : String → Option (List UInt8)) (safe : state.Safe)
    (consistent : state.Consistent logCap)
    (seen : state.sequence.observe (.finish version outputB64 errorCode) =
      .ok sequence) (surroundings : Surroundings) :
    (({ state with
      sequence := sequence
      observed := state.observed ++
        [.finish version outputB64 errorCode] } : State).conclude decode
        outputB64 errorCode surroundings).Invariant logCap := by
  obtain ⟨clear, messages, few⟩ := observe_finish seen
  obtain ⟨flag, _, _, complete⟩ := consistent.idle clear
  have finished : ({ state with
      sequence := sequence
      observed := state.observed ++
        [.finish version outputB64 errorCode] } : State).Safe :=
    ⟨safe.1, safe.2, safe.3⟩
  unfold State.conclude
  rw [if_neg (by simp [flag])]
  split
  · exact finished.fail _
  · split
    · exact finished.fail _
    · split
      · exact finished.fail _
      · split
        · exact finished.fail _
        · split
          · exact finished.fail _
          · refine ⟨finished, by simp, ?_⟩
            intro outcome returned
            simp only [Option.some.injEq, Except.ok.injEq] at returned
            subst returned
            exact {
              lastFrame := ⟨_, _, _, List.getLast?_concat⟩
              answered := by
                dsimp only
                rw [safe.answered, List.take_of_length_le]
                simp [complete]
              bounded := by simpa [messages, consistent.messages] using few
              logs := by simp [consistent.logs, logMessage]
              withinCap := by
                dsimp only
                rw [← consistent.logBytes]
                exact consistent.withinCap }

theorem invariant_receive (decode : String → Option (List UInt8))
    (safe : state.Safe) (consistent : state.Consistent logCap)
    (arrival : Arrival) (surroundings : Surroundings) :
    (state.receive decode arrival surroundings).Invariant logCap := by
  unfold State.receive
  cases arrival with
  | failed error => exact safe.fail _
  | timeout => exact safe.move consistent .head
  | disconnected =>
      dsimp only
      split <;> exact safe.fail _
  | frame frame =>
      dsimp only
      cases seen : state.sequence.observe frame with
      | error error => exact safe.fail _
      | ok sequence =>
          cases frame with
          | effectRequest version messageId request =>
              exact invariant_dispatch safe consistent seen surroundings
          | log version message => exact invariant_log safe consistent seen
          | finish version outputB64 errorCode =>
              exact invariant_conclude decode safe consistent seen surroundings

/-- Broker calls may come back or die without the loop noticing. -/
theorem Run.Invariant.calls {run : Run} (invariant : run.Invariant logCap)
    {inFlight : List Dispatch} {results : List (Dispatch × BrokerResult)}
    (fewer : inFlight.length + results.length ≤
      run.state.inFlight.length + run.state.results.length)
    (known : ∀ dispatch ∈ inFlight ++ results.map Prod.fst,
      dispatch ∈ run.state.inFlight ++ run.state.results.map Prod.fst) :
    ({ run with state := { run.state with
      inFlight := inFlight
      results := results } } : Run).Invariant logCap where
  safe := ⟨fewer.trans invariant.safe.1, invariant.safe.2, invariant.safe.3⟩
  running going :=
    let consistent := invariant.running going
    { pending := consistent.pending
      progress := consistent.progress
      outstanding := fun dispatch member =>
        consistent.outstanding dispatch (known dispatch member)
      nextId := consistent.nextId
      messages := consistent.messages
      bounded := consistent.bounded
      logs := consistent.logs
      logBytes := consistent.logBytes
      cap := consistent.cap
      withinCap := consistent.withinCap }
  concluded outcome returned :=
    let concluded := invariant.concluded outcome returned
    ⟨concluded.1, concluded.2, concluded.3, concluded.4, concluded.5⟩

/-- Every occurrence keeps the invariant. -/
theorem Run.Invariant.step {run : Run} (invariant : run.Invariant logCap)
    (decode : String → Option (List UInt8)) (occurrence : Occurrence) :
    (run.step decode occurrence).Invariant logCap := by
  unfold Run.step
  cases occurrence with
  | returned position result =>
      dsimp only
      cases found : run.state.inFlight[position]? with
      | none => exact invariant
      | some dispatch =>
          obtain ⟨inside, rfl⟩ := List.getElem?_eq_some_iff.mp found
          apply invariant.calls
          · rw [List.length_eraseIdx_of_lt inside, List.length_append,
              List.length_singleton]
            omega
          · intro other member
            simp only [List.map_append, List.map_cons, List.map_nil,
              List.mem_append, List.mem_singleton] at member ⊢
            rcases member with left | queued | rfl
            · exact Or.inl (List.mem_of_mem_eraseIdx left)
            · exact Or.inr queued
            · exact Or.inl (List.getElem_mem inside)
  | vanished position =>
      apply invariant.calls
      · have shorter := List.length_eraseIdx_le run.state.inFlight position
        omega
      · intro other member
        rw [List.mem_append] at member ⊢
        exact member.imp_left List.mem_of_mem_eraseIdx
  | polled lease expired written =>
      dsimp only
      split
      next ready =>
        rw [Bool.and_eq_true, Option.isNone_iff_eq_none] at ready
        exact invariant_poll invariant.safe (invariant.running ready.1) lease
          expired written
      · exact invariant
  | received arrival surroundings =>
      dsimp only
      split
      next ready =>
        rw [Bool.and_eq_true, Option.isNone_iff_eq_none] at ready
        exact invariant_receive decode invariant.safe
          (invariant.running ready.1) arrival surroundings
      · exact invariant

theorem invariant_supervise (decode : String → Option (List UInt8))
    (logCap : Nat) (occurrences : List Occurrence) :
    (supervise decode logCap occurrences).Invariant logCap := by
  unfold supervise
  generalize begun : start logCap = run
  have invariant : run.Invariant logCap := begun ▸ invariant_start logCap
  clear begun
  induction occurrences generalizing run with
  | nil => exact invariant
  | cons occurrence rest ih =>
      exact ih _ (invariant.step decode occurrence)

/-- Whatever the child sends and whenever the broker answers: one broker call
is outstanding at most, the flag of the loop and the pending identity agree
when an iteration begins, dispatched identities count up from one, each gets at
most one response with its own identity, and an outcome is returned only after
a finish frame with every call answered. -/
theorem supervisor_protocol_safe (decode : String → Option (List UInt8))
    (logCap : Nat) (occurrences : List Occurrence) :
    let run := supervise decode logCap occurrences
    run.state.inFlight.length ≤ 1 ∧
    (run.result = none → run.state.phase = .head →
      (run.state.dispatchPending = true ↔
        run.state.sequence.pending.isSome = true)) ∧
    run.state.dispatched.map (fun dispatch => dispatch.messageId.toNat) =
      List.range' 1 run.state.dispatched.length ∧
    (run.state.responses.map EffectResponseFrame.messageId <+:
      run.state.dispatched.map Dispatch.messageId) ∧
    ∀ outcome, run.result = some (.ok outcome) →
      (∃ version outputB64 errorCode,
        run.state.observed.getLast? =
          some (.finish version outputB64 errorCode)) ∧
      run.state.responses.map EffectResponseFrame.messageId =
        run.state.dispatched.map Dispatch.messageId ∧
      run.state.observed.length ≤ 128 ∧
      outcome.logs = run.state.observed.filterMap logMessage ∧
      (outcome.logs.map fun message => (utf8 message).length).sum ≤
        logCap := by
  intro run
  have invariant : run.Invariant logCap :=
    invariant_supervise decode logCap occurrences
  refine ⟨?_, ?_, invariant.safe.numbered, ?_, ?_⟩
  · have few := invariant.safe.oneOutstanding
    omega
  · intro going _
    exact (invariant.running going).flag_iff
  · rw [invariant.safe.answered]
    exact List.take_prefix _ _
  · intro outcome returned
    have concluded := invariant.concluded outcome returned
    exact ⟨concluded.lastFrame, concluded.answered, concluded.bounded,
      concluded.logs, concluded.withinCap⟩

/-- A request that is refused, a log and a finish frame. -/
example :
    (supervise (fun _ => none) 16
      [.polled .current false (.ok ()),
        .received (.frame (.effectRequest 1 1
          ⟨0, "ticket.create", "d", ⟨"p", "t", "b"⟩⟩)) ⟨true, none, true⟩,
        .returned 0 (.error (.effect .policy)),
        .polled .current false (.ok ()),
        .received (.frame (.log 1 "hi")) ⟨true, none, true⟩,
        .polled .current false (.ok ()),
        .received (.frame (.finish 1 none none))
          ⟨true, some ⟨true, some 0⟩, true⟩]).result.bind
      (fun result => result.toOption.map SupervisedOutcome.logs) =
        some ["hi"] := by
  decide +kernel

end Supervision

end EffectLatch
