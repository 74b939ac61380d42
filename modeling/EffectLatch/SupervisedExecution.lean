import EffectLatch.FrameRoundTrips
import EffectLatch.RunnerSequencing

/-!
# A supervised run reports what its execution gave

The parent learns of an execution what the runner tells it, frame by frame,
while broker calls come back and the lease and the clock move on.  It follows
the runner's script to the end and returns the result of the execution, or it
stops at an error that the broker or a disturbance accounts for.
-/

namespace EffectLatch

namespace Runner

open Ipc Supervision

/-- What the parent returns when it is told the result of an execution. -/
def verdict : Except Abi.AbiError Abi.AbiOutcome →
    Except SupervisorError SupervisedOutcome
  | .ok outcome => .ok ⟨outcome.output, outcome.logs⟩
  | .error failure => .error (.runnerFailure (abiErrorCode failure))

/-- What a runner says: its requests, its logs and its finish frame. -/
structure Script where
  asked : List EffectRequest
  logs : List String
  outputB64 : Option String
  errorCode : Option String

/-- The script of an execution. -/
def Script.ofExecution (writers : Writers)
    (executed : List Abi.Event × Except Abi.AbiError Abi.AbiOutcome) :
    Script where
  asked := requests executed.1
  logs := match executed.2 with
    | .ok outcome => outcome.logs
    | .error _ => []
  outputB64 := match executed.2 with
    | .ok outcome => outcome.output.map writers.base64
    | .error _ => none
  errorCode := match executed.2 with
    | .ok _ => none
    | .error failure => some (abiErrorCode failure)

/-- The frames after the requests, when some logs are left. -/
def Script.last (script : Script) (logs : List String) : List ChildFrame :=
  logs.map (ChildFrame.log 1) ++ [.finish 1 script.outputB64 script.errorCode]

/-- What is left to say after the requests `earlier`. -/
def Script.dialogue (script : Script) (broker : Broker)
    (earlier : List EffectRequest) : List EffectRequest → List Message
  | [] => (script.last script.logs).map Message.sent
  | request :: rest =>
      .sent (.effectRequest 1 (messageId earlier) request) ::
        match responseFrame (messageId earlier) request
          (broker earlier request) with
        | .error _ => []
        | .ok frame =>
            .answered frame ::
              script.dialogue broker (earlier ++ [request]) rest

/-- The error the parent answers a broker result with, if there is one. -/
def refusal (broker : Broker) (earlier : List EffectRequest) :
    List EffectRequest → Option SupervisorError
  | [] => none
  | request :: rest =>
      match responseFrame (messageId earlier) request
        (broker earlier request) with
      | .error failure => some failure
      | .ok _ => refusal broker (earlier ++ [request]) rest

/-- What the parent returns when a script was told to its end. -/
def Script.Tells (script : Script) (decode : String → Option (List UInt8))
    (told : Except SupervisorError SupervisedOutcome) : Prop :=
  match script.errorCode with
  | some code => told = .error (.runnerFailure code)
  | none => ∃ output, script.outputB64.mapM decode = some output ∧
      told = .ok ⟨output, script.logs⟩

theorem tells_ofExecution {decode : String → Option (List UInt8)}
    {writers : Writers}
    (decodes : ∀ bytes, decode (writers.base64 bytes) = some bytes)
    (executed : List Abi.Event × Except Abi.AbiError Abi.AbiOutcome) :
    (Script.ofExecution writers executed).Tells decode
      (verdict executed.2) := by
  unfold Script.Tells Script.ofExecution
  cases executed.2 with
  | error failure => rfl
  | ok outcome =>
      obtain ⟨_, output, _, _⟩ := outcome
      refine ⟨output, ?_, rfl⟩
      cases output with
      | none => rfl
      | some bytes => exact congrArg (Option.map some) (decodes bytes)

theorem closing_eq (writers : Writers)
    (executed : List Abi.Event × Except Abi.AbiError Abi.AbiOutcome) :
    let script := Script.ofExecution writers executed
    closing writers executed.2 = script.last script.logs := by
  intro script
  unfold script Script.ofExecution
  cases executed.2 <;> rfl

theorem dialogue_eq (script : Script) (broker : Broker)
    (earlier rest : List EffectRequest) :
    script.dialogue broker earlier rest =
      (exchange broker earlier rest).1 ++
        if (exchange broker earlier rest).2 then
          (script.last script.logs).map Message.sent
        else [] := by
  induction rest generalizing earlier with
  | nil => rfl
  | cons request rest ih =>
      cases built : responseFrame (messageId earlier) request
          (broker earlier request) with
      | error failure => simp [Script.dialogue, exchange, built]
      | ok frame => simp [Script.dialogue, exchange, built, ih]

/-- A conversation goes by the script of its execution. -/
theorem conversation_eq (readers : Abi.Readers) (writers : Writers)
    (broker : Broker) (caps : Abi.AbiCaps) (job : Job) :
    let script := Script.ofExecution writers
      (execute readers writers broker caps job)
    conversation readers writers broker caps job =
      script.dialogue broker [] script.asked := by
  intro script
  have asked : script.asked =
    requests (execute readers writers broker caps job).1 := rfl
  rw [dialogue_eq, conversation, ← closing_eq, asked]
  split
  · rfl
  · rw [List.append_nil]

/-! ## Occurrences that keep to a script -/

/-- The broker answers as it does, and the frames that arrive are the next ones
of the conversation.  Nothing is asked of anything else. -/
def Faithful (broker : Broker) (messages : List Message) (run : Run) :
    Occurrence → Prop
  | .returned position result =>
      ∀ dispatch, run.state.inFlight[position]? = some dispatch →
        result = broker (run.state.dispatched.dropLast.map Dispatch.request)
          dispatch.request
  | .received (.frame frame) _ =>
      run.result = none → run.state.phase = .receiving →
        (messages.drop (run.state.observed.length +
          run.state.responses.length)).head? = some (.sent frame)
  | _ => True

/-- Every occurrence of a run keeps to the conversation. -/
def Faithfully (decode : String → Option (List UInt8)) (broker : Broker)
    (messages : List Message) : Run → List Occurrence → Prop
  | _, [] => True
  | run, occurrence :: rest =>
      Faithful broker messages run occurrence ∧
        Faithfully decode broker messages (run.step decode occurrence) rest

/-- A disturbance and the error the parent reports for it. -/
inductive Disturbs : Occurrence → SupervisorError → Prop
  | cancelled {expired : Bool} {written : Except SupervisorError Unit} :
      Disturbs (.polled .cancelled expired written) .cancelled
  | lost {expired : Bool} {written : Except SupervisorError Unit} :
      Disturbs (.polled .lost expired written) .leaseLost
  | deadline {lease : LeaseState} {written : Except SupervisorError Unit} :
      Disturbs (.polled lease true written) .deadline
  | unwritten {lease : LeaseState} {expired : Bool}
      {failure : SupervisorError} :
      Disturbs (.polled lease expired (.error failure)) failure
  | unread {failure : ProtocolError} {surroundings : Surroundings} :
      Disturbs (.received (.failed failure) surroundings) (.protocol failure)
  | spawn {arrival : Arrival} {surroundings : Surroundings}
      (refused : surroundings.spawned = false) :
      Disturbs (.received arrival surroundings) .io
  | wait {arrival : Arrival} {surroundings : Surroundings}
      (failed : surroundings.status = none) :
      Disturbs (.received arrival surroundings) .io
  | exit {arrival : Arrival} {surroundings : Surroundings}
      {status : ExitStatus} (exited : surroundings.status = some status)
      (failed : status.success = false) :
      Disturbs (.received arrival surroundings) (.childExit status.code)
  | gone {surroundings : Surroundings} {status : ExitStatus}
      (exited : surroundings.status = some status) :
      Disturbs (.received .disconnected surroundings) (.childExit status.code)
  | kill {arrival : Arrival} {surroundings : Surroundings}
      (failed : surroundings.disarmed = false) :
      Disturbs (.received arrival surroundings) .io

/-! ## Where the parent stands -/

/-- Nothing is outstanding, and so much of the conversation is left. -/
structure Idle (messages left : List Message) (state : State) : Prop where
  left : messages.drop (state.observed.length + state.responses.length) = left
  flag : state.dispatchPending = false
  calls : state.inFlight = []
  results : state.results = []

/-- Where the parent stands in a conversation. -/
inductive Standing (broker : Broker) (script : Script) (cap : Nat)
    (messages : List Message) (state : State) : Prop
  | asking {earlier : List EffectRequest} {request : EffectRequest}
      {later : List EffectRequest}
      (all : earlier ++ request :: later = script.asked)
      (granted : refusal broker [] script.asked =
        refusal broker earlier (request :: later))
      (idle : Idle messages
        (script.dialogue broker earlier (request :: later)) state)
      (sequence : state.sequence = ready earlier.length earlier.length 0 cap)
      (dispatched : state.dispatched.map Dispatch.request = earlier)
      (logs : state.logs = [])
  | awaiting {earlier : List EffectRequest} {request : EffectRequest}
      {later : List EffectRequest} {front : List Dispatch}
      (all : earlier ++ request :: later = script.asked)
      (granted : refusal broker [] script.asked =
        refusal broker earlier (request :: later))
      (left : messages.drop
        (state.observed.length + state.responses.length) =
          (script.dialogue broker earlier (request :: later)).tail)
      (sequence : state.sequence =
        { ready (earlier.length + 1) (earlier.length + 1) 0 cap with
          pending := some (messageId earlier) })
      (dispatched : state.dispatched = front ++ [⟨messageId earlier, request⟩])
      (before : front.map Dispatch.request = earlier)
      (flag : state.dispatchPending = true)
      (calls : ∀ dispatch ∈ state.inFlight,
        dispatch = ⟨messageId earlier, request⟩)
      (results : ∀ arrived ∈ state.results,
        arrived = (⟨messageId earlier, request⟩, broker earlier request))
      (logs : state.logs = [])
  | reporting {told untold : List String}
      (all : told ++ untold = script.logs)
      (granted : refusal broker [] script.asked = none)
      (idle : Idle messages ((script.last untold).map Message.sent) state)
      (sequence : state.sequence = ready script.asked.length
        (script.asked.length + told.length)
        (told.map fun message => (utf8 message).length).sum cap)
      (dispatched : state.dispatched.map Dispatch.request = script.asked)
      (logs : state.logs = told)

/-- What the parent knows of a conversation so far, or how it ended. -/
structure Follows (broker : Broker) (script : Script) (cap : Nat)
    (messages : List Message)
    (told : Except SupervisorError SupervisedOutcome)
    (excused : SupervisorError → Prop) (run : Run) : Prop where
  standing : run.result = none →
    Standing broker script cap messages run.state
  asked : run.state.dispatched.map Dispatch.request <+: script.asked
  settled : ∀ result, run.result = some result →
    (result = told ∧ refusal broker [] script.asked = none ∧
      run.state.dispatched.map Dispatch.request = script.asked) ∨
    ∃ failure, result = .error failure ∧
      (refusal broker [] script.asked = some failure ∨ excused failure)

variable {broker : Broker} {script : Script} {cap : Nat}
  {messages : List Message}
  {told : Except SupervisorError SupervisedOutcome}
  {excused : SupervisorError → Prop} {state : State}
  {decode : String → Option (List UInt8)}

theorem Standing.asked_prefix
    (standing : Standing broker script cap messages state) :
    state.dispatched.map Dispatch.request <+: script.asked := by
  cases standing with
  | asking all _ _ _ dispatched =>
      rw [dispatched, ← all]
      exact List.prefix_append _ _
  | @awaiting earlier request later front all _ _ _ dispatched before =>
      rw [dispatched, List.map_append, before, ← all]
      exact ⟨later, by simp⟩
  | reporting _ _ _ _ dispatched => exact dispatched ▸ List.prefix_refl _

/-- A run that goes on stands in the conversation. -/
theorem Standing.goOn (standing : Standing broker script cap messages state) :
    Follows broker script cap messages told excused state.goOn where
  standing _ := standing
  asked := standing.asked_prefix
  settled := by simp [State.goOn]

/-- A run that fails has an excuse. -/
theorem Follows.fail {failure : SupervisorError}
    (asked : state.dispatched.map Dispatch.request <+: script.asked)
    (excuse : refusal broker [] script.asked = some failure ∨
      excused failure) :
    Follows broker script cap messages told excused (state.fail failure) where
  standing := by simp [State.fail]
  asked := asked
  settled := by
    intro result returned
    simp only [State.fail, Option.some.injEq] at returned
    exact .inr ⟨failure, returned.symm, excuse⟩

/-- The phase of the loop has no part in where it stands. -/
theorem Standing.move (standing : Standing broker script cap messages state)
    (phase : Phase) :
    Standing broker script cap messages { state with phase := phase } := by
  cases standing with
  | asking all granted idle sequence dispatched logs =>
      exact .asking all granted ⟨idle.1, idle.2, idle.3, idle.4⟩ sequence
        dispatched logs
  | awaiting all granted left sequence dispatched before flag calls results
      logs =>
      exact .awaiting all granted left sequence dispatched before flag calls
        results logs
  | reporting all granted idle sequence dispatched logs =>
      exact .reporting all granted ⟨idle.1, idle.2, idle.3, idle.4⟩ sequence
        dispatched logs

/-- With nothing outstanding the next request is asked, or the report begins. -/
theorem standing_dialogue (earlier later : List EffectRequest)
    (all : earlier ++ later = script.asked)
    (granted : refusal broker [] script.asked = refusal broker earlier later)
    (idle : Idle messages (script.dialogue broker earlier later) state)
    (sequence : state.sequence = ready earlier.length earlier.length 0 cap)
    (dispatched : state.dispatched.map Dispatch.request = earlier)
    (logs : state.logs = []) :
    Standing broker script cap messages state := by
  cases later with
  | cons request later =>
      exact .asking all granted idle sequence dispatched logs
  | nil =>
      rw [List.append_nil] at all
      subst all
      exact .reporting (List.nil_append _) granted idle (by simpa using sequence)
        dispatched logs

/-- One message more was said. -/
theorem drop_succ_eq_tail {count : Nat} {left : List Message}
    (before : messages.drop count = left) :
    messages.drop (count + 1) = left.tail := by
  rw [← before, List.tail_drop]

/-! ## Steps -/

/-- The broker's answer is passed on, or the parent gives up with it. -/
theorem Standing.answer
    (standing : Standing broker script cap messages state)
    {dispatch : Dispatch} {result : BrokerResult}
    {rest : List (Dispatch × BrokerResult)}
    (single : state.inFlight.length + state.results.length ≤ 1)
    (arrived : state.results = (dispatch, result) :: rest)
    (written : Except SupervisorError Unit)
    (excuse : ∀ failure, written = .error failure → excused failure) :
    Follows broker script cap messages told excused
      (({ state with results := rest } : State).answer dispatch result
        written) := by
  have prior := standing.asked_prefix
  cases standing with
  | asking _ _ idle => simp [idle.results] at arrived
  | reporting _ _ idle => simp [idle.results] at arrived
  | @awaiting earlier request later front all granted left sequence dispatched
      before flag calls results logs =>
      have same := results (dispatch, result) (by simp [arrived])
      simp only [Prod.mk.injEq] at same
      obtain ⟨rfl, rfl⟩ := same
      rw [arrived, List.length_cons] at single
      have noCall : state.inFlight = [] :=
        List.eq_nil_of_length_eq_zero (by omega)
      have noRest : rest = [] := List.eq_nil_of_length_eq_zero (by omega)
      unfold State.answer
      dsimp only
      cases built : responseFrame (messageId earlier) request
          (broker earlier request) with
      | error failure =>
          refine Follows.fail prior (.inl ?_)
          simp [granted, refusal, built]
      | ok frame =>
          have accepted := respond_ready (earlier.length + 1)
            (earlier.length + 1) 0 cap built
          dsimp only
          rw [sequence, accepted]
          dsimp only
          cases written with
          | error failure =>
              exact Follows.fail prior (.inr (excuse failure rfl))
          | ok done =>
              refine Standing.goOn (standing_dialogue (earlier ++ [request])
                later ?_ ?_ ?_ ?_ ?_ logs)
              · simpa using all
              · rw [granted]
                simp [refusal, built]
              · refine ⟨?_, rfl, noCall, noRest⟩
                dsimp only
                rw [List.length_append, List.length_singleton, ← Nat.add_assoc,
                  drop_succ_eq_tail left]
                simp [Script.dialogue, built]
              · simp
              · simp [dispatched, before]

/-- The first half of an iteration. -/
theorem Standing.poll
    (standing : Standing broker script cap messages state)
    (single : state.inFlight.length + state.results.length ≤ 1)
    {lease : LeaseState} {expired : Bool}
    {written : Except SupervisorError Unit}
    (excuse : ∀ failure, Disturbs (.polled lease expired written) failure →
      excused failure) :
    Follows broker script cap messages told excused
      (state.poll lease expired written) := by
  have prior := standing.asked_prefix
  unfold State.poll
  cases lease with
  | cancelled => exact Follows.fail prior (.inr (excuse _ .cancelled))
  | lost => exact Follows.fail prior (.inr (excuse _ .lost))
  | current =>
      dsimp only
      split
      next late =>
        subst late
        exact Follows.fail prior (.inr (excuse _ .deadline))
      split
      · split
        · exact (standing.move .receiving).goOn
        next dispatch result rest arrived =>
          refine standing.answer single arrived written ?_
          rintro failure rfl
          exact excuse failure .unwritten
      · exact (standing.move .receiving).goOn

/-- A request that arrives is handed to the broker. -/
theorem follows_dispatch {earlier later : List EffectRequest}
    {request : EffectRequest} {surroundings : Surroundings}
    (all : earlier ++ request :: later = script.asked)
    (granted : refusal broker [] script.asked =
      refusal broker earlier (request :: later))
    (idle : Idle messages
      (script.dialogue broker earlier (request :: later)) state)
    (dispatched : state.dispatched.map Dispatch.request = earlier)
    (logs : state.logs = [])
    (excuse : surroundings.spawned = false → excused .io) :
    Follows broker script cap messages told excused
      (({ state with
        sequence := { ready (earlier.length + 1) (earlier.length + 1) 0 cap with
          pending := some (messageId earlier) }
        observed := state.observed ++
          [.effectRequest 1 (messageId earlier) request] } : State).dispatch
        (messageId earlier) request surroundings) := by
  unfold State.dispatch
  rw [if_neg (by simp [idle.flag])]
  split
  next refused =>
    refine Follows.fail ?_ (.inr (excuse refused))
    change state.dispatched.map Dispatch.request <+: script.asked
    rw [dispatched, ← all]
    exact List.prefix_append _ _
  · refine Standing.goOn (.awaiting all granted ?_ rfl rfl dispatched rfl ?_ ?_
      logs)
    · dsimp only
      rw [List.length_append, List.length_singleton, Nat.add_right_comm,
        drop_succ_eq_tail idle.left]
    · simp [idle.calls]
    · simp [idle.results]

/-- The finish frame ends the run with what the script tells. -/
theorem follows_conclude {surroundings : Surroundings}
    {sequence : ParentSequence} {observed : List ChildFrame}
    (granted : refusal broker [] script.asked = none)
    (flag : state.dispatchPending = false)
    (dispatched : state.dispatched.map Dispatch.request = script.asked)
    (logs : state.logs = script.logs)
    (tells : script.Tells decode told)
    (excuse : ∀ failure, Disturbs
      (.received (.frame (.finish 1 script.outputB64 script.errorCode))
        surroundings) failure → excused failure) :
    Follows broker script cap messages told excused
      (({ state with sequence := sequence, observed := observed } :
        State).conclude decode script.outputB64 script.errorCode
        surroundings) := by
  have prior : state.dispatched.map Dispatch.request <+: script.asked :=
    dispatched ▸ List.prefix_refl _
  unfold State.conclude
  rw [if_neg (by simp [flag])]
  cases exited : surroundings.status with
  | none => exact Follows.fail prior (.inr (excuse _ (.wait exited)))
  | some status =>
      dsimp only
      split
      next failed =>
        exact Follows.fail prior (.inr (excuse _ (.exit exited failed)))
      unfold Script.Tells at tells
      cases code : script.errorCode with
      | some code =>
          rw [code] at tells
          exact {
            standing := by simp [State.fail]
            asked := prior
            settled := fun result returned =>
              .inl ⟨(Option.some.inj returned).symm.trans tells.symm, granted,
                dispatched⟩ }
      | none =>
          rw [code] at tells
          obtain ⟨output, decoded, rfl⟩ := tells
          dsimp only
          rw [decoded]
          dsimp only
          split
          next failed =>
            exact Follows.fail prior (.inr (excuse _ (.kill failed)))
          · exact {
              standing := by simp
              asked := prior
              settled := fun result returned =>
                .inl ⟨by rw [← Option.some.inj returned, logs], granted,
                  dispatched⟩ }

/-- The second half of an iteration. -/
theorem Standing.receive
    (standing : Standing broker script cap messages state)
    (few : script.asked.length + script.logs.length < 128)
    (fits : (script.logs.map fun message => (utf8 message).length).sum ≤ cap)
    (tells : script.Tells decode told) {arrival : Arrival}
    {surroundings : Surroundings}
    (next : ∀ frame, arrival = .frame frame →
      (messages.drop (state.observed.length +
        state.responses.length)).head? = some (.sent frame))
    (excuse : ∀ failure, Disturbs (.received arrival surroundings) failure →
      excused failure) :
    Follows broker script cap messages told excused
      (state.receive decode arrival surroundings) := by
  have prior := standing.asked_prefix
  unfold State.receive
  cases arrival with
  | failed failure => exact Follows.fail prior (.inr (excuse _ .unread))
  | timeout => exact (standing.move .head).goOn
  | disconnected =>
      cases exited : surroundings.status with
      | none => exact Follows.fail prior (.inr (excuse _ (.wait exited)))
      | some status => exact Follows.fail prior (.inr (excuse _ (.gone exited)))
  | frame frame =>
      have first := next frame rfl
      dsimp only
      cases standing with
      | @asking earlier request later all granted idle sequence dispatched logs =>
          rw [idle.left] at first
          obtain rfl : frame = .effectRequest 1 (messageId earlier) request := by
            simpa [Script.dialogue] using first.symm
          have shorter : earlier.length < script.asked.length := by
            simp [← all]
          have observed := observe_request_ready earlier.length earlier.length 0
            cap (by omega) (by omega) request
          rw [sequence, messageId, observed]
          exact follows_dispatch all granted idle dispatched logs fun refused =>
            excuse _ (.spawn refused)
      | @awaiting earlier request later front all granted left =>
          rw [left] at first
          exfalso
          cases built : responseFrame (messageId earlier) request
              (broker earlier request) with
          | error failure => simp [Script.dialogue, built] at first
          | ok answer => simp [Script.dialogue, built] at first
      | @reporting past untold all granted idle sequence dispatched logs =>
          have counted : past.length + untold.length = script.logs.length := by
            rw [← all, List.length_append]
          rw [idle.left] at first
          cases untold with
          | nil =>
              rw [List.append_nil] at all
              obtain rfl : frame =
                  .finish 1 script.outputB64 script.errorCode := by
                simpa [Script.last] using first.symm
              have observed := observe_finish_ready script.asked.length
                (script.asked.length + past.length)
                (past.map fun message => (utf8 message).length).sum cap
                (by omega) 1 script.outputB64 script.errorCode
              rw [sequence, observed]
              exact follows_conclude granted idle.flag dispatched
                (logs.trans all) tells excuse
          | cons message untold =>
              obtain rfl : frame = .log 1 message := by
                simpa [Script.last] using first.symm
              have bytes := fits
              rw [← all, List.map_append, List.sum_append, List.map_cons,
                List.sum_cons] at bytes
              rw [List.length_cons] at counted
              have observed := observe_log_ready script.asked.length
                (script.asked.length + past.length)
                (past.map fun message => (utf8 message).length).sum cap
                (by omega) (show (utf8 message).length ≤ cap - _ by omega)
              rw [sequence, observed]
              have told : (past ++ [message]) ++ untold = script.logs := by
                simpa using all
              refine Standing.goOn
                (.reporting told granted ?_ ?_ dispatched (by simp [logs]))
              · refine ⟨?_, idle.flag, idle.calls, idle.results⟩
                dsimp only
                rw [List.length_append, List.length_singleton,
                  Nat.add_right_comm, drop_succ_eq_tail idle.left]
                simp [Script.last]
              · simp [Nat.add_assoc]

/-- Broker calls come back or die without the loop noticing. -/
theorem Standing.calls
    (standing : Standing broker script cap messages state)
    {inFlight : List Dispatch} {results : List (Dispatch × BrokerResult)}
    (fewer : ∀ dispatch ∈ inFlight, dispatch ∈ state.inFlight)
    (known : ∀ arrived ∈ results, arrived ∈ state.results ∨
      (arrived.1 ∈ state.inFlight ∧
        arrived.2 = broker (state.dispatched.dropLast.map Dispatch.request)
          arrived.1.request)) :
    Standing broker script cap messages
      { state with inFlight := inFlight, results := results } := by
  have none : state.inFlight = [] → state.results = [] →
      inFlight = [] ∧ results = [] := by
    intro noCall noResult
    constructor
    · apply List.eq_nil_iff_forall_not_mem.mpr
      intro dispatch member
      simpa [noCall] using fewer dispatch member
    · apply List.eq_nil_iff_forall_not_mem.mpr
      intro arrived member
      simpa [noCall, noResult] using known arrived member
  cases standing with
  | asking all granted idle sequence dispatched logs =>
      obtain ⟨noCall, noResult⟩ := none idle.calls idle.results
      exact .asking all granted ⟨idle.left, idle.flag, noCall, noResult⟩
        sequence dispatched logs
  | @awaiting earlier request later front all granted left sequence dispatched
      before flag calls answers logs =>
      refine .awaiting all granted left sequence dispatched before flag
        (fun dispatch member => calls dispatch (fewer dispatch member)) ?_ logs
      intro arrived member
      rcases known arrived member with old | ⟨called, answer⟩
      · exact answers arrived old
      · have same := calls _ called
        rw [dispatched, List.dropLast_concat, before, same] at answer
        exact Prod.ext same answer
  | reporting all granted idle sequence dispatched logs =>
      obtain ⟨noCall, noResult⟩ := none idle.calls idle.results
      exact .reporting all granted ⟨idle.left, idle.flag, noCall, noResult⟩
        sequence dispatched logs

theorem Follows.excuse {run : Run} {more : SupervisorError → Prop}
    (follows : Follows broker script cap messages told excused run)
    (weaker : ∀ failure, excused failure → more failure) :
    Follows broker script cap messages told more run where
  standing := follows.standing
  asked := follows.asked
  settled result returned :=
    (follows.settled result returned).imp_right fun ⟨failure, same, excuse⟩ =>
      ⟨failure, same, excuse.imp_right (weaker failure)⟩

/-- A faithful occurrence keeps the parent in the conversation. -/
theorem Follows.step {run : Run} {occurrence : Occurrence}
    (follows : Follows broker script cap messages told excused run)
    (invariant : run.Invariant cap)
    (few : script.asked.length + script.logs.length < 128)
    (fits : (script.logs.map fun message => (utf8 message).length).sum ≤ cap)
    (tells : script.Tells decode told)
    (faithful : Faithful broker messages run occurrence) :
    Follows broker script cap messages told
      (fun failure => excused failure ∨ Disturbs occurrence failure)
      (run.step decode occurrence) := by
  have kept : Follows broker script cap messages told
      (fun failure => excused failure ∨ Disturbs occurrence failure) run :=
    follows.excuse fun _ => .inl
  unfold Run.step
  cases occurrence with
  | returned position result =>
      dsimp only
      cases found : run.state.inFlight[position]? with
      | none => exact kept
      | some dispatch =>
          have member := List.mem_of_getElem? found
          refine ⟨fun going => (kept.standing going).calls
            (fun other => List.mem_of_mem_eraseIdx) ?_, kept.asked, kept.settled⟩
          intro arrived arrival
          rcases List.mem_append.mp arrival with old | new
          · exact .inl old
          · rw [List.mem_singleton] at new
            subst new
            exact .inr ⟨member, faithful dispatch found⟩
  | vanished position =>
      exact ⟨fun going => (kept.standing going).calls
        (fun other => List.mem_of_mem_eraseIdx) (fun _ => .inl), kept.asked,
        kept.settled⟩
  | polled lease expired written =>
      dsimp only
      split
      next ready =>
        rw [Bool.and_eq_true, Option.isNone_iff_eq_none] at ready
        exact (follows.standing ready.1).poll invariant.safe.oneOutstanding
          fun _ => .inr
      · exact kept
  | received arrival surroundings =>
      dsimp only
      split
      next ready =>
        rw [Bool.and_eq_true, Option.isNone_iff_eq_none, beq_iff_eq] at ready
        refine (follows.standing ready.1).receive few fits tells ?_
          fun _ => .inr
        rintro frame rfl
        exact faithful ready.1 ready.2
      · exact kept

/-- So does every faithful run. -/
theorem Follows.run {occurrences : List Occurrence} :
    ∀ {run : Run} {excused : SupervisorError → Prop},
      Follows broker script cap messages told excused run →
      run.Invariant cap →
      script.asked.length + script.logs.length < 128 →
      (script.logs.map fun message => (utf8 message).length).sum ≤ cap →
      script.Tells decode told →
      Faithfully decode broker messages run occurrences →
      Follows broker script cap messages told
        (fun failure => excused failure ∨
          ∃ occurrence ∈ occurrences, Disturbs occurrence failure)
        (occurrences.foldl (Run.step decode) run) := by
  induction occurrences with
  | nil =>
      intro run excused follows _ _ _ _ _
      exact follows.excuse fun _ => .inl
  | cons occurrence rest ih =>
      intro run excused follows invariant few fits tells ⟨faithful, later⟩
      refine (ih (follows.step invariant few fits tells faithful)
        (invariant.step decode occurrence) few fits tells later).excuse ?_
      rintro failure ((excuse | disturbed) | ⟨other, member, disturbed⟩)
      · exact .inl excuse
      · exact .inr ⟨occurrence, List.mem_cons_self, disturbed⟩
      · exact .inr ⟨other, List.mem_cons_of_mem _ member, disturbed⟩

/-- The loop is entered at the start of a conversation. -/
theorem follows_start (broker : Broker) (script : Script)
    (told : Except SupervisorError SupervisedOutcome)
    (small : cap ≠ 0 ∧ cap ≤ 16 * 1024) :
    Follows broker script cap (script.dialogue broker [] script.asked) told
      (fun _ => False) (start cap) := by
  have opened : ParentSequence.withLogCap cap = .ok (ready 0 0 0 cap) := by
    rw [ParentSequence.withLogCap, Except.require_of small]
    rfl
  unfold start
  rw [opened]
  exact (standing_dialogue [] _ rfl rfl ⟨rfl, rfl, rfl, rfl⟩ rfl rfl rfl).goOn

section Execution

variable {readers : Abi.Readers} {writers : Writers} {caps : Abi.AbiCaps}
  {job : Job} {occurrences : List Occurrence}

/-- The script of an execution within its caps fits the parent's limits. -/
theorem bounded_ofExecution (readers : Abi.Readers) (writers : Writers)
    (broker : Broker) (job : Job) (valid : caps.validate = .ok caps) :
    let script := Script.ofExecution writers
      (execute readers writers broker caps job)
    script.asked.length + script.logs.length < 128 ∧
      (script.logs.map fun message => (utf8 message).length).sum ≤
        caps.logBytes := by
  have calls : caps.hostCalls ≤ 64 := (valid_caps valid).1
  obtain ⟨few, bounded⟩ := execute_bounded readers writers broker job valid
  unfold Script.ofExecution
  cases returned : (execute readers writers broker caps job).2 with
  | error failure =>
      refine ⟨?_, Nat.zero_le _⟩
      dsimp only [List.length_nil]
      omega
  | ok outcome =>
      obtain ⟨shared, bytes⟩ := bounded outcome returned
      refine ⟨?_, bytes⟩
      dsimp only
      omega

/-- A faithful run of the loop follows the script of the execution. -/
theorem follows_supervise (valid : caps.validate = .ok caps)
    (decodes : ∀ bytes, decode (writers.base64 bytes) = some bytes)
    (faithful : Faithfully decode broker
      (conversation readers writers broker caps job) (start caps.logBytes)
      occurrences) :
    let executed := execute readers writers broker caps job
    Follows broker (Script.ofExecution writers executed) caps.logBytes
      (conversation readers writers broker caps job) (verdict executed.2)
      (fun failure => ∃ occurrence ∈ occurrences, Disturbs occurrence failure)
      (supervise decode caps.logBytes occurrences) := by
  obtain ⟨few, fits⟩ := bounded_ofExecution readers writers broker job valid
  have begun := follows_start broker
    (Script.ofExecution writers (execute readers writers broker caps job))
    (verdict (execute readers writers broker caps job).2) (valid_caps valid).2
  rw [← conversation_eq] at begun
  exact (begun.run (invariant_start caps.logBytes) few fits
    (tells_ofExecution decodes _) faithful).excuse fun _ excuse =>
      excuse.resolve_left id

end Execution

end Runner

open Ipc Supervision Runner

/-- However the frames of an honest runner, the broker's answers, the lease and
the clock interleave: the broker is asked for the effects of the execution only,
in its order; and a run that ends returns what the execution gave, with every
effect asked and answered, or the error of a refused answer or of a
disturbance. -/
theorem supervised_as_executed {decode : String → Option (List UInt8)}
    {readers : Abi.Readers} {writers : Writers} {broker : Broker}
    {caps : Abi.AbiCaps} {job : Job} {occurrences : List Occurrence}
    (valid : caps.validate = .ok caps)
    (decodes : ∀ bytes, decode (writers.base64 bytes) = some bytes)
    (faithful : Faithfully decode broker
      (conversation readers writers broker caps job) (start caps.logBytes)
      occurrences) :
    let executed := execute readers writers broker caps job
    let run := supervise decode caps.logBytes occurrences
    run.state.dispatched.map Dispatch.request <+: requests executed.1 ∧
    ∀ result, run.result = some result →
      (result = verdict executed.2 ∧
        refusal broker [] (requests executed.1) = none ∧
        run.state.dispatched.map Dispatch.request = requests executed.1) ∨
      ∃ failure, result = .error failure ∧
        (refusal broker [] (requests executed.1) = some failure ∨
          ∃ occurrence ∈ occurrences, Disturbs occurrence failure) := by
  have follows := follows_supervise valid decodes faithful
  exact ⟨follows.asked, follows.settled⟩

namespace Sample

def decodeText (text : String) : Option (List UInt8) :=
  Base64.decode text.toList

/-- The child asks, logs and finishes; the broker call comes back after an
iteration in vain. -/
def occurrences : List Occurrence :=
  [.polled .current false (.ok ()),
    .received (.frame (.effectRequest 1 1 effectRequest)) ⟨true, none, true⟩,
    .polled .current false (.ok ()),
    .received .timeout ⟨true, none, true⟩,
    .returned 0 (.ok effectReply),
    .polled .current false (.ok ()),
    .received (.frame (.log 1 "hi")) ⟨true, none, true⟩,
    .polled .current false (.ok ()),
    .received (.frame (.finish 1 (some "aGk=") none))
      ⟨true, some ⟨true, some 0⟩, true⟩]

theorem faithfully_occurrences :
    Faithfully decodeText broker (conversation readers wireCodec.writers broker
      ⟨4, 16⟩ job) (start 16) occurrences := by
  rw [conversation_sample]
  refine ⟨trivial, fun _ _ => ?_, trivial, trivial, fun dispatch taken => ?_,
    trivial, fun _ _ => ?_, trivial, fun _ _ => ?_, trivial⟩
  · decide +kernel
  · rfl
  · decide +kernel
  · decide +kernel

end Sample

theorem supervised_as_executed_answered :
    (supervise Sample.decodeText 16 Sample.occurrences).result =
        some (.ok ⟨some [104, 105], ["hi"]⟩) ∧
      (supervise Sample.decodeText 16
          Sample.occurrences).state.dispatched.map Dispatch.request =
        [Sample.effectRequest] := by
  obtain ⟨asked, returned⟩ := execute_sample
  have ended : (supervise Sample.decodeText 16
      Sample.occurrences).result.any Except.isOk = true := by
    decide +kernel
  obtain ⟨result, reported, succeeded⟩ := (Option.any_eq_true _ _).mp ended
  have executed := (supervised_as_executed
    (Except.eq_ok_of_toOption (by decide)) decode_base64Text
    Sample.faithfully_occurrences).2 _ reported
  rw [asked, returned] at executed
  rcases executed with ⟨rfl, _, all⟩ | ⟨failure, rfl, _⟩
  · exact ⟨reported, all⟩
  · cases succeeded

end EffectLatch
