import EffectLatch.LeaseLogs

/-!
# Lease fencing

The lease log and the columns of every run stay in agreement along any history
with a fixed policy.  A call that used a lease therefore used the one the last
claim gave out.
-/

namespace EffectLatch

/-- Every run agrees with its lease log, and only stored runs have one. -/
structure Fenced (maxAttempts : Nat) (history : List Event) (db : Database) :
    Prop where
  agrees : ∀ row ∈ db.runs.rows,
    row.AgreesWith maxAttempts (leaseLog row.id history)
  silent : ∀ run, (∀ row ∈ db.runs.rows, row.id ≠ run) →
    leaseLog run history = []

namespace Event.Records

variable {event : Event} {command : Command} {response : Response}

theorem leaseEvent_none (recorded : event.Records command response)
    (quiet : command.leaseEvent response = none) (run : Uuid) :
    event.leaseEvent run = none := by
  simp [Event.leaseEvent, recorded.outcome, recorded.command, quiet]

theorem leaseEvent_some {id : Uuid} {entry : LeaseEvent}
    (recorded : event.Records command response)
    (noted : command.leaseEvent response = some (id, entry)) (run : Uuid) :
    event.leaseEvent run = if id = run then some entry else none := by
  simp [Event.leaseEvent, recorded.outcome, recorded.command, noted]

end Event.Records

theorem leaseLog_append (run : Uuid) (history : List Event) (event : Event) :
    leaseLog run (history ++ [event]) =
      leaseLog run history ++ (event.leaseEvent run).toList := by
  simp only [leaseLog, List.filterMap_append]
  cases found : event.leaseEvent run with
  | none => simp [found]
  | some entry => simp [found]

theorem leaseLog_append_of_none {run : Uuid} {history : List Event}
    {event : Event} (quiet : event.leaseEvent run = none) :
    leaseLog run (history ++ [event]) = leaseLog run history := by
  simp [leaseLog_append, quiet]

namespace Fenced

variable {maxAttempts : Nat} {history : List Event} {db next : Database}
  {event : Event} (fenced : Fenced maxAttempts history db)

include fenced

theorem same (quiet : ∀ run, event.leaseEvent run = none)
    (runs : next.runs = db.runs) :
    Fenced maxAttempts (history ++ [event]) next where
  agrees row member := by
    rw [leaseLog_append_of_none (quiet row.id)]
    exact fenced.agrees row (runs ▸ member)
  silent run absent := by
    rw [leaseLog_append_of_none (quiet run)]
    exact fenced.silent run (runs ▸ absent)

/-- A run admitted now has an empty log, since its identity is new. -/
theorem admitted {row : RunRow} (quiet : ∀ run, event.leaseEvent run = none)
    (inserted : Table.Inserted db.runs next.runs row)
    (agrees : row.AgreesWith maxAttempts []) :
    Fenced maxAttempts (history ++ [event]) next where
  agrees stored member := by
    rw [leaseLog_append_of_none (quiet stored.id)]
    rcases inserted.mem_iff.mp member with old | rfl
    · exact fenced.agrees stored old
    · have unused : ∀ old ∈ db.runs.rows, old.id ≠ stored.id := by
        intro old oldMember equal
        have apart := inserted.fresh old oldMember
        simp [RunRow.schema, equal] at apart
      rw [fenced.silent stored.id unused]
      exact agrees
  silent run absent := by
    rw [leaseLog_append_of_none (quiet run)]
    exact fenced.silent run fun row member =>
      absent row (inserted.old_mem member)

/-- One run was rewritten and only its log may have grown. -/
theorem rewrite {old new : RunRow}
    (replaced : Table.Replaced db.runs next.runs old new)
    (others : ∀ run, run ≠ old.id → event.leaseEvent run = none)
    (agrees : old.AgreesWith maxAttempts (leaseLog old.id history) →
      new.AgreesWith maxAttempts
        (leaseLog old.id history ++ (event.leaseEvent old.id).toList)) :
    Fenced maxAttempts (history ++ [event]) next where
  agrees row member := by
    have sameId : new.id = old.id := by
      have sameKey := replaced.sameKey
      simp only [RunRow.schema, Prod.mk.injEq] at sameKey
      exact sameKey.2.1
    rcases replaced.mem_iff.mp member with rfl | ⟨stored, different⟩
    · rw [sameId, leaseLog_append]
      exact agrees (fenced.agrees old replaced.member)
    · have apart : row.id ≠ old.id := fun equal =>
        different (Database.run_eq_of_id stored replaced.member equal)
      rw [leaseLog_append_of_none (others row.id apart)]
      exact fenced.agrees row stored
  silent run absent := by
    have before : ∀ row ∈ db.runs.rows, row.id ≠ run := by
      intro row stored equal
      obtain ⟨later, laterMember, sameId⟩ := replaced.exists_successor
        (fun first second => second.id = first.id) (fun _ => rfl)
        (by
          have sameKey := replaced.sameKey
          simp only [RunRow.schema, Prod.mk.injEq] at sameKey
          exact sameKey.2.1) stored
      exact absent later laterMember (sameId.trans equal)
    rw [leaseLog_append_of_none
      (others run fun equal => before old replaced.member equal.symm)]
    exact fenced.silent run before

theorem rewrite_quiet {old new : RunRow}
    (replaced : Table.Replaced db.runs next.runs old new)
    (quiet : ∀ run, event.leaseEvent run = none)
    (agrees : ∀ log, old.AgreesWith maxAttempts log →
      new.AgreesWith maxAttempts log) :
    Fenced maxAttempts (history ++ [event]) next := by
  refine fenced.rewrite replaced (fun run _ => quiet run) ?_
  intro before
  rw [quiet]
  simpa using agrees _ before

theorem rewrite_noted {old new : RunRow} {command : Command}
    {response : Response} {entry : LeaseEvent}
    (replaced : Table.Replaced db.runs next.runs old new)
    (recorded : event.Records command response)
    (noted : command.leaseEvent response = some (old.id, entry))
    (agrees : ∀ log, old.AgreesWith maxAttempts log →
      new.AgreesWith maxAttempts (log ++ [entry])) :
    Fenced maxAttempts (history ++ [event]) next := by
  refine fenced.rewrite replaced ?_ ?_
  · intro run different
    rw [recorded.leaseEvent_some noted, if_neg different.symm]
  · intro before
    rw [recorded.leaseEvent_some noted, if_pos rfl]
    exact agrees _ before

end Fenced

namespace Database

variable {sha256 : Sha256} {db next : Database} {clock : Clock}
  {command : Command} {response : Response}

theorem Observation.leaseEvent_none
    (observed : Observation sha256 db clock command response) :
    command.leaseEvent response = none := by
  cases observed <;> rfl

theorem promotionVerdict_waits {policy : ReapPolicy} {row : RunRow}
    (waiting : (db.promotionVerdict policy row).1 = .queued ∨
      (db.promotionVerdict policy row).1 = .retryWait) :
    row.attempt < policy.maxAttempts := by
  rcases db.promotionVerdict_cases policy row with
    ⟨_, same⟩ | ⟨_, _, same⟩ | ⟨_, same⟩ | ⟨_, left, _⟩
  · rw [same] at waiting
    exact absurd waiting (by decide)
  · rw [same] at waiting
    exact absurd waiting (by decide)
  · rw [same] at waiting
    exact absurd waiting (by decide)
  · exact left

theorem expiryVerdict_waits {policy : ReapPolicy} {queueLimit : Int}
    {row : RunRow}
    (waiting : (db.expiryVerdict policy queueLimit row).1 = .queued ∨
      (db.expiryVerdict policy queueLimit row).1 = .retryWait) :
    row.attempt < policy.maxAttempts := by
  rcases db.expiryVerdict_cases policy queueLimit row with
    ⟨_, same⟩ | ⟨_, _, same⟩ | ⟨_, same⟩ | ⟨_, left, _⟩
  · rw [same] at waiting
    exact absurd waiting (by decide)
  · rw [same] at waiting
    exact absurd waiting (by decide)
  · rw [same] at waiting
    exact absurd waiting (by decide)
  · exact left

theorem admittedRow_agrees {clock : Clock} {runId tenant : Uuid}
    {key : String} {request : NormalizedRun} {maxAttempts : Nat}
    (someAttempt : 1 ≤ maxAttempts) :
    (admittedRow sha256 clock runId tenant key request).AgreesWith maxAttempts
      [] := by
  constructor
  · rfl
  · rfl
  · exact le_refl 0
  · exact Int.natCast_nonneg maxAttempts
  · intro _
    simp only [admittedRow]
    omega
  · intro held
    simp [admittedRow] at held
  · simp
  · simp

/-- A successful call keeps every run in agreement with its log. -/
theorem Transition.fenced {claim : ClaimPolicy} {reap : ReapPolicy}
    {history : List Event} {event : Event}
    (moved : Transition sha256 db clock command response next)
    (sameAttempts : reap.maxAttempts = claim.maxAttempts)
    (someAttempt : 1 ≤ claim.maxAttempts)
    (follows : event.call.usesPolicy claim reap = true)
    (recorded : event.Records command response)
    (fenced : Fenced claim.maxAttempts history db) :
    Fenced claim.maxAttempts (history ++ [event]) next := by
  have asked := recorded.command
  cases moved with
  | unchanged observed =>
      exact fenced.same (recorded.leaseEvent_none observed.leaseEvent_none) rfl
  | admitted _ _ _ _ _ _ _ inserted _ _ =>
      exact fenced.admitted (recorded.leaseEvent_none rfl) inserted
        ((admittedRow_agrees someAttempt).advance sha256 _)
  | leased selected _ _ _ _ _ moved _ =>
      simp only [Call.usesPolicy, asked, decide_eq_true_eq] at follows
      refine fenced.rewrite_noted moved.replaced recorded rfl fun log agrees => ?_
      exact (agrees.claim (follows ▸ selected.attemptLeft)
        selected.queued).advance sha256 _
  | denied selected _ moved =>
      refine fenced.rewrite_quiet moved.replaced
        (recorded.leaseEvent_none rfl) fun log agrees => .advance ?_ sha256 _
      refine agrees.keep rfl rfl (fun held => ⟨held, rfl⟩) ?_ fun _ => rfl
      simp [RunRow.deniedAt]
  | renewed _ active _ _ _ _ _ _ replaced =>
      refine fenced.rewrite_quiet replaced (recorded.leaseEvent_none rfl)
        fun log agrees => ?_
      exact agrees.keep rfl rfl (fun held => ⟨held, rfl⟩) agrees.strict id
  | started _ waiting moved =>
      refine fenced.rewrite_quiet moved.replaced
        (recorded.leaseEvent_none rfl) fun log agrees => .advance ?_ sha256 _
      refine agrees.keep rfl rfl (fun held => ⟨held, rfl⟩) ?_ ?_
      · simp [RunRow.startedAt]
      · simp [waiting, RunState.terminal]
  | promoted _ _ _ _ _ waiting free moved =>
      simp only [Call.usesPolicy, asked, decide_eq_true_eq] at follows
      refine fenced.rewrite_noted moved.replaced recorded rfl
        fun log agrees => .advance ?_ sha256 _
      refine agrees.reap rfl rfl free ?_ (by simp [waiting, RunState.terminal])
      intro waits
      rw [← sameAttempts, ← follows]
      exact promotionVerdict_waits waits
  | expired _ _ _ _ _ _ active _ _ moved =>
      simp only [Call.usesPolicy, asked, decide_eq_true_eq] at follows
      refine fenced.rewrite_noted moved.replaced recorded rfl
        fun log agrees => .advance ?_ sha256 _
      refine agrees.reap rfl rfl rfl ?_ ?_
      · intro waits
        rw [← sameAttempts, ← follows]
        exact expiryVerdict_waits waits
      · rcases active with state | state <;> simp [state, RunState.terminal]
  | finished lease running _ _ _ _ moved =>
      refine fenced.rewrite_noted moved.replaced recorded
        (by rw [lease.identity]; rfl) fun log agrees => .advance ?_ sha256 _
      exact agrees.finish running (RunRow.finalVerdict_cases _ _)
  | cancelRequested _ replaced =>
      refine fenced.rewrite_quiet replaced (recorded.leaseEvent_none rfl)
        fun log agrees => ?_
      exact agrees.keep rfl rfl (fun held => ⟨held, rfl⟩) agrees.strict id
  | _ => exact fenced.same (recorded.leaseEvent_none rfl) rfl

end Database

variable {sha256 : Sha256} {claim : ClaimPolicy} {reap : ReapPolicy}
  {history : List Event} {db : Database}

theorem fenced_of_execution
    (sameAttempts : reap.maxAttempts = claim.maxAttempts)
    (someAttempt : 1 ≤ claim.maxAttempts)
    (execution : StoreExecution sha256
      (fun _ call => call.usesPolicy claim reap = true) history db) :
    Fenced claim.maxAttempts history db := by
  refine execution.historyInvariant (Fenced claim.maxAttempts) ?_ ?_
  · constructor
    · simp [Database.migrated, Table.empty]
    · simp [leaseLog]
  · intro history state call _ fenced follows
    rcases state.perform_cases sha256 call with
      ⟨failure, _, performed⟩ | ⟨response, next, moved, performed⟩
    · rw [performed]
      exact fenced.same (fun run => rfl) rfl
    · rw [performed]
      exact moved.fenced sameAttempts someAttempt follows ⟨rfl, rfl⟩ fenced

/-- A successful call that presented the worker and the epoch of a lease. -/
inductive UsesLease : Command → Response → Uuid → String → Int → Prop
  | renewed {run : Uuid} {worker : String} {allowedTenants : List Uuid}
      {epoch : Int} {leaseMs : Nat} {result : Heartbeat} :
      UsesLease (.heartbeatRun run worker allowedTenants epoch leaseMs)
        (.heartbeat result) run worker epoch
  | started {run : Uuid} {worker : String} {allowedTenants : List Uuid}
      {epoch : Int} :
      UsesLease (.markRunStarted run worker allowedTenants epoch) .started run
        worker epoch
  | finished {run : Uuid} {worker : String} {allowedTenants : List Uuid}
      {epoch : Int} {output : Option (List UInt8)} {errorCode : Option String}
      {record : RunRecord} :
      UsesLease (.finishRun run worker allowedTenants epoch output errorCode)
        (.finished record) run worker epoch

/-- A lease that was used was the live lease of the run. -/
theorem Database.Transition.leasedTo {db next : Database} {clock : Clock}
    {command : Command} {response : Response} {run : Uuid} {worker : String}
    {epoch : Int}
    (moved : Transition sha256 db clock command response next)
    (used : UsesLease command response run worker epoch) :
    ∃ (row : RunRow) (allowedTenants : List Uuid),
      row.LeasedTo db run worker allowedTenants epoch (clock 0) := by
  cases used with
  | renewed =>
      cases moved with
      | unchanged observed => cases observed
      | renewed lease _ _ _ _ _ _ _ _ => exact ⟨_, _, lease⟩
  | started =>
      cases moved with
      | unchanged observed =>
          cases observed with
          | startedBefore lease _ => exact ⟨_, _, lease⟩
      | started lease _ _ => exact ⟨_, _, lease⟩
  | finished =>
      cases moved with
      | unchanged observed => cases observed
      | finished lease _ _ _ _ _ _ => exact ⟨_, _, lease⟩

namespace RunRow.AgreesWith

variable {row : RunRow} {maxAttempts : Nat}

/-- The lease a run is held under was given out by one claim, and nothing
happened to the run since. -/
theorem exists_claim {worker : String}
    (agrees : row.AgreesWith maxAttempts (leaseLog row.id history))
    (held : row.activeSlotHeld = true)
    (owner : row.leaseOwner = some worker) :
    ∃ before claimed between, history = before ++ claimed :: between ∧
      claimed.leaseEvent row.id = some (.claimed worker row.leaseEpoch) ∧
      (∀ other ∈ before,
        other.leaseEvent row.id ≠ some (.claimed worker row.leaseEpoch)) ∧
      ∀ other ∈ between, other.leaseEvent row.id = none := by
  obtain ⟨current, currentOwner, last⟩ := agrees.current held
  obtain rfl := Option.some.inj (owner.symm.trans currentOwner)
  obtain ⟨before, claimed, between, rfl, given, quiet⟩ :=
    List.exists_of_getLast?_filterMap last
  refine ⟨before, claimed, between, rfl, given, ?_, quiet⟩
  intro other member repeated
  have distinct : ((leaseLog row.id (before ++ claimed :: between)).filterMap
      LeaseEvent.epoch).Nodup := by
    rw [agrees.epochs]
    exact List.nodup_range.map fun first second equal => by simpa using equal
  have earlier : row.leaseEpoch ∈
      (leaseLog row.id before).filterMap LeaseEvent.epoch :=
    List.mem_filterMap.mpr ⟨_, List.mem_filterMap.mpr ⟨other, member, repeated⟩,
      rfl⟩
  have here : row.leaseEpoch ∈
      (leaseLog row.id (claimed :: between)).filterMap LeaseEvent.epoch :=
    List.mem_filterMap.mpr ⟨_, List.mem_filterMap.mpr
      ⟨claimed, List.mem_cons_self, given⟩, rfl⟩
  rw [leaseLog, List.filterMap_append, List.filterMap_append,
    List.nodup_append] at distinct
  exact distinct.2.2 _ earlier _ here rfl

/-- The attempts of a run are the claims that returned a lease for it. -/
theorem attempt_eq
    (agrees : row.AgreesWith maxAttempts (leaseLog row.id history)) :
    row.attempt = (history.countP fun event =>
      ((event.leaseEvent row.id).bind LeaseEvent.epoch).isSome : Nat) := by
  have counted := congrArg List.length agrees.epochs
  rw [leaseLog, List.filterMap_filterMap, List.length_filterMap_eq_countP,
    List.length_map, List.length_range] at counted
  rw [counted]
  exact (Int.toNat_of_nonneg agrees.nonneg).symm

end RunRow.AgreesWith

/-- Under a fixed policy the epoch of a run counts its claims and stays within
the attempt limit; a heartbeat, a start or a finish succeeds only under the
lease that exactly one earlier claim gave out, unexpired and with no claim, reap
or finish of the run in between; and a run is finished at most once. -/
theorem leases_fenced (sameAttempts : reap.maxAttempts = claim.maxAttempts)
    (someAttempt : 1 ≤ claim.maxAttempts)
    (execution : StoreExecution sha256
      (fun _ call => call.usesPolicy claim reap = true) history db) :
    (∀ row ∈ db.runs.rows, row.leaseEpoch = row.attempt ∧
      row.attempt = (history.countP fun event =>
        ((event.leaseEvent row.id).bind LeaseEvent.epoch).isSome : Nat) ∧
      row.attempt ≤ claim.maxAttempts ∧
      (row.state = .queued ∨ row.state = .retryWait →
        row.attempt < claim.maxAttempts)) ∧
    (∀ earlier event later run worker epoch response,
      history = earlier ++ event :: later → event.outcome = .ok response →
      UsesLease event.call.command response run worker epoch →
      (∃ before claimed between, earlier = before ++ claimed :: between ∧
        claimed.leaseEvent run = some (.claimed worker epoch) ∧
        (∀ other ∈ before,
          other.leaseEvent run ≠ some (.claimed worker epoch)) ∧
        ∀ other ∈ between, other.leaseEvent run = none) ∧
      ∃ row ∈ event.before.runs.rows, row.id = run ∧
        row.leaseOwner = some worker ∧ row.leaseEpoch = epoch ∧
        row.live (event.call.clock 0) = true) ∧
    ∀ run, (history.countP fun event =>
      decide (event.leaseEvent run = some .finished)) ≤ 1 := by
  have fenced := fenced_of_execution sameAttempts someAttempt execution
  refine ⟨?_, ?_, ?_⟩
  · intro row member
    have agrees := fenced.agrees row member
    exact ⟨agrees.epochEq, agrees.attempt_eq, agrees.bounded, agrees.strict⟩
  · intro earlier event later run worker epoch response position outcome used
    obtain ⟨reached, _, done, _⟩ := execution.split position
    have fencedBefore :=
      fenced_of_execution sameAttempts someAttempt reached
    rw [outcome] at done
    have moved := Database.transition_of_perform done
    obtain ⟨row, allowedTenants, lease⟩ := moved.leasedTo used
    obtain ⟨member, rfl, _, owner, rfl, live, held⟩ := lease
    exact ⟨(fencedBefore.agrees row member).exists_claim held owner, row,
      member, rfl, owner, rfl, live⟩
  · intro run
    have counted : (history.countP fun event =>
        decide (event.leaseEvent run = some .finished)) =
          (leaseLog run history).count .finished := by
      rw [leaseLog, List.count_filterMap]
      simp [beq_eq_decide]
    rw [counted]
    by_cases stored : ∃ row ∈ db.runs.rows, row.id = run
    · obtain ⟨row, member, rfl⟩ := stored
      exact (fenced.agrees row member).once
    · have silent := fenced.silent run fun row member equal =>
        stored ⟨row, member, equal⟩
      rw [silent]
      simp

theorem leases_fenced_completed :
    ∃ row ∈ (Sample.after Sample.completed).runs.rows,
      row.state = .succeeded ∧ row.leaseEpoch = row.attempt ∧
        row.attempt ≤ 3 := by
  have execution : StoreExecution Sample.sha256
      (fun _ call =>
        call.usesPolicy Sample.claimPolicy Sample.reapPolicy = true) _
      (Sample.after Sample.completed) :=
    Sample.execution_after fun _ => by decide
  have ended : ((Sample.after Sample.completed).findRun 1 20).map
      RunRow.state = some .succeeded := by decide +kernel
  obtain ⟨row, found, state⟩ := Option.map_eq_some_iff.mp ended
  have member := (Database.findRun_eq_some_iff.mp found).1
  obtain ⟨epoch, _, bounded, _⟩ :=
    (leases_fenced rfl (by decide) execution).1 row member
  exact ⟨row, member, state, epoch, bounded⟩

end EffectLatch
