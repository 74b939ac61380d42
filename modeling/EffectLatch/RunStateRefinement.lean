import EffectLatch.StoreReferences

/-!
# The store refines the run state machine

The store writes state columns in separate statements and never consults
`RunState.transition`.  That every write is a step of the specification rests on
one invariant: only a run that is leased, running or set aside for
reconciliation has an effect of uncertain outcome.
-/

namespace EffectLatch

/-- One of the operations of the store, not a call of its surroundings. -/
def Command.isOperation (command : Command) : Bool :=
  match command with
  | .provisionTenant _ _ _ => false
  | .requestCancel _ _ => false
  | .prepareEffect _ => false
  | .moveEffect _ _ _ _ => false
  | _ => true

namespace RunRow

/-- Leased or running with the slot held. -/
def Active (row : RunRow) : Prop :=
  (row.state = .leased ∨ row.state = .running) ∧ row.activeSlotHeld = true

/-- The states in which an effect may be of uncertain outcome. -/
def MayBeUncertain (row : RunRow) : Prop :=
  row.state = .leased ∨ row.state = .running ∨
    row.state = .needsReconciliation

end RunRow

namespace Database

/-- What the broker is assumed to do: effects move as their state machine
allows, and are dispatched only for a run that holds its slot. -/
def BrokerConduct (db : Database) (call : Call) : Prop :=
  match call.command with
  | .moveEffect tenant run ordinal target =>
      ∀ effect, db.findEffect tenant run ordinal = some effect →
        (∃ evidencedResolution eligibleRetry,
          effect.state.transition target evidencedResolution eligibleRetry =
            .ok target) ∧
        (target = .dispatching →
          ∃ row, db.findRun tenant run = some row ∧ row.Active)
  | _ => True

/-- The events of a run, in the order they were appended. -/
def eventsOf (db : Database) (run : Uuid) : List RunEventRow :=
  db.runEvents.rows.filter fun event => decide (event.runId = run)

/-- Uncertain effects belong to runs in a state that allows them. -/
def UncertaintyContained (db : Database) : Prop :=
  ∀ row ∈ db.runs.rows, db.uncertain row.tenantId row.id = true →
    row.MayBeUncertain

variable {sha256 : Sha256} {db next : Database} {clock : Clock}
  {command : Command} {response : Response}

theorem uncertain_eq_true_iff {tenant run : Uuid} :
    db.uncertain tenant run = true ↔
      ∃ effect ∈ db.effects.rows, effect.tenantId = tenant ∧
        effect.runId = run ∧ effect.state.unresolved = true := by
  simp only [uncertain, List.any_eq_true, decide_eq_true_eq]
  refine exists_congr fun effect => and_congr_right fun _ =>
    and_congr_right fun _ => and_congr_right fun _ => ?_
  cases effect.state <;> simp [EffectState.unresolved]

/-- A run with no unfinished effect has no uncertain one. -/
theorem uncertain_eq_false_of_finished {tenant run : Uuid}
    (resolved : db.unfinished tenant run = false) :
    db.uncertain tenant run = false := by
  rw [← Bool.not_eq_true] at resolved ⊢
  intro unsure
  apply resolved
  simp only [uncertain, unfinished, List.any_eq_true, decide_eq_true_eq]
    at unsure ⊢
  obtain ⟨effect, stored, tenantEq, runEq, state⟩ := unsure
  exact ⟨effect, stored, tenantEq, runEq, .inr state⟩

section Steps

variable {old new : RunRow} {entries : List (String × List UInt8)}

/-- Every state change a call makes is a step of the specification. -/
theorem RunStep.transition_ok
    (step : db.RunStep clock command old new entries)
    (contained : db.uncertain old.tenantId old.id = true → old.MayBeUncertain)
    (changed : new.state ≠ old.state) :
    old.state.transition new.state (db.uncertain old.tenantId old.id) false =
      .ok new.state := by
  cases step with
  | leased selected _ _ =>
      rw [selected.queued]
      cases db.uncertain old.tenantId old.id <;> rfl
  | denied selected _ =>
      have sure : db.uncertain old.tenantId old.id = false := by
        rw [← Bool.not_eq_true]
        intro unsure
        have state := contained unsure
        simp [RunRow.MayBeUncertain, selected.queued] at state
      rw [selected.queued, sure]
      rfl
  | renewed _ _ => exact absurd rfl changed
  | started _ waiting =>
      rw [waiting]
      cases db.uncertain old.tenantId old.id <;> rfl
  | @promoted policy _ waiting _ =>
      simp only [RunRow.movedTo, waiting]
      rcases db.promotionVerdict_cases policy old with
        ⟨unsure, same⟩ | ⟨sure, _, same⟩ | ⟨sure, same⟩ | ⟨sure, _, same⟩
      · rw [same, unsure]
        rfl
      · rw [same, sure]
        rfl
      · rw [same, sure]
        rfl
      · rw [same, sure]
        rfl
  | @expired policy _ queueLimit _ active _ =>
      simp only [RunRow.releasedTo]
      rcases db.expiryVerdict_cases policy queueLimit old with
        ⟨unsure, same⟩ | ⟨sure, _, same⟩ | ⟨sure, same⟩ |
        ⟨sure, _, same | same⟩
      · rw [same, unsure]
        rcases active with state | state <;> rw [state] <;> rfl
      · rw [same, sure]
        rcases active with state | state <;> rw [state] <;> rfl
      · rw [same, sure]
        rcases active with state | state <;> rw [state] <;> rfl
      · rw [same, sure]
        rcases active with state | state <;> rw [state] <;> rfl
      · rw [same, sure]
        rcases active with state | state <;> rw [state] <;> rfl
  | @finished _ _ _ _ _ errorCode _ lease running resolved =>
      have sure := uncertain_eq_false_of_finished resolved
      rw [← lease.identity] at sure
      simp only [RunRow.finishedAs, running, sure]
      rcases old.finalVerdict_cases errorCode with same | same | same <;>
      · rw [same]
        rfl
  | cancelRequested => exact absurd rfl changed

/-- A rewritten run is in a state its uncertain effects allow. -/
theorem RunStep.mayBeUncertain
    (step : db.RunStep clock command old new entries)
    (contained : db.uncertain old.tenantId old.id = true → old.MayBeUncertain)
    (unsure : db.uncertain old.tenantId old.id = true) :
    new.MayBeUncertain := by
  by_cases changed : new.state = old.state
  · simpa only [RunRow.MayBeUncertain, changed] using contained unsure
  · have allowed := step.transition_ok contained changed
    rw [unsure] at allowed
    exact RunState.of_transition_unresolved allowed

/-- Only a request for cancellation rewrites a run in a final state. -/
theorem RunStep.not_terminal
    (step : db.RunStep clock command old new entries)
    (operation : command.isOperation = true) : old.state.terminal = false := by
  cases step with
  | leased selected _ _ => rw [selected.queued]; rfl
  | denied selected _ => rw [selected.queued]; rfl
  | renewed _ active => rcases active with state | state <;> rw [state] <;> rfl
  | started _ waiting => rw [waiting]; rfl
  | promoted waiting _ => rw [waiting]; rfl
  | expired _ active _ =>
      rcases active with state | state <;> rw [state] <;> rfl
  | finished _ running _ => rw [running]; rfl
  | cancelRequested => simp [Command.isOperation] at operation

end Steps

/-- An effect of uncertain outcome was uncertain before the call or was
dispatched by it. -/
theorem Transition.uncertain_origin {tenant run : Uuid} {call : Call}
    (asked : call.command = command) (conduct : db.BrokerConduct call)
    (moved : Transition sha256 db clock command response next)
    (unsure : next.uncertain tenant run = true) :
    db.uncertain tenant run = true ∨
      next.runs = db.runs ∧
        ∃ row, db.findRun tenant run = some row ∧ row.Active := by
  obtain ⟨effect, member, rfl, rfl, unsettled⟩ := uncertain_eq_true_iff.mp unsure
  have same : effect ∈ db.effects.rows →
      db.uncertain effect.tenantId effect.runId = true := fun stored =>
    uncertain_eq_true_iff.mpr ⟨effect, stored, rfl, rfl, unsettled⟩
  cases moved with
  | reserved _ _ _ _ _ _ _ _ _ marked =>
      rcases marked.mem_iff.mp member with rfl | ⟨stored, _⟩
      · exact .inl (uncertain_eq_true_iff.mpr
          ⟨_, marked.member, rfl, rfl, unsettled⟩)
      · exact .inl (same stored)
  | effectPrepared _ inserted =>
      rcases inserted.mem_iff.mp member with stored | rfl
      · exact .inl (same stored)
      · simp [EffectIntent.row, EffectState.unresolved] at unsettled
  | @effectMoved tenant run ordinal target row _ found replaced =>
      rcases replaced.mem_iff.mp member with rfl | ⟨stored, _⟩
      · simp only [BrokerConduct, asked] at conduct
        obtain ⟨⟨evidenced, retry, allowed⟩, dispatch⟩ := conduct row found
        obtain ⟨stored, tenantEq, runEq, _⟩ := findEffect_eq_some_iff.mp found
        rcases EffectState.of_transition_unresolved allowed unsettled with
          dispatched | before
        · rw [← tenantEq, ← runEq] at dispatch
          exact .inr ⟨rfl, dispatch dispatched⟩
        · exact .inl (uncertain_eq_true_iff.mpr
            ⟨row, stored, rfl, rfl, before⟩)
      · exact .inl (same stored)
  | _ => exact .inl (same member)

/-- A run admitted now has no effect. -/
theorem uncertain_eq_false_of_inserted {row : RunRow} (refers : db.References)
    (inserted : Table.Inserted db.runs next.runs
      (row.advance sha256 [("run.admitted", statePayload .queued)])) :
    db.uncertain row.tenantId row.id = false := by
  rw [← Bool.not_eq_true, uncertain_eq_true_iff]
  rintro ⟨effect, stored, tenantEq, runEq, _⟩
  obtain ⟨run, found⟩ :=
    Option.ne_none_iff_exists'.mp (refers.effects effect stored)
  obtain ⟨runStored, _, idEq⟩ := findRun_eq_some_iff.mp found
  have apart := inserted.fresh run runStored
  simp [RunRow.schema, RunRow.advance, idEq, runEq] at apart

theorem Transition.uncertaintyContained {call : Call}
    (asked : call.command = command) (conduct : db.BrokerConduct call)
    (moved : Transition sha256 db clock command response next)
    (refers : db.References) (contained : db.UncertaintyContained) :
    next.UncertaintyContained := by
  intro row member unsure
  rcases moved.uncertain_origin asked conduct unsure with before |
    ⟨runs, active, found, state, _⟩
  · rcases moved.runs_cases with ⟨same, _⟩ |
      ⟨admitted, _, inserted, _⟩ | ⟨old, new, entries, step, recorded⟩
    · exact contained row (same ▸ member) before
    · rcases inserted.mem_iff.mp member with stored | rfl
      · exact contained row stored before
      · have certain := uncertain_eq_false_of_inserted refers inserted
        rw [RunRow.advance] at before
        simp [certain] at before
    · rcases recorded.replaced.mem_iff.mp member with rfl | ⟨stored, _⟩
      · have same := RunRow.SameRequest.of_step step sha256
        rw [same.tenantId, same.id] at before
        exact step.mayBeUncertain
          (contained old recorded.replaced.member) before
      · exact contained row stored before
  · rw [runs] at member
    obtain rfl : row = active := run_eq_of_id member
      (findRun_eq_some_iff.mp found).1 (findRun_eq_some_iff.mp found).2.2.symm
    rcases state with leased | running
    · exact .inl leased
    · exact .inr (.inl running)

/-- Events recorded for another run leave the events of a run as they were. -/
theorem eventsOf_eq_of_append {row : RunRow} {run : Uuid}
    {entries : List (String × List UInt8)} (different : row.id ≠ run)
    (logged : next.runEvents.rows = db.runEvents.rows ++
      row.emitted sha256 entries) : next.eventsOf run = db.eventsOf run := by
  rw [eventsOf, logged, List.filter_append]
  have none : (row.emitted sha256 entries).filter
      (fun event => decide (event.runId = run)) = [] := by
    rw [List.filter_eq_nil_iff]
    intro event member chosen
    exact different
      ((RunRow.mem_emitted member).2.1.symm.trans (of_decide_eq_true chosen))
  rw [none, List.append_nil]
  rfl

/-- No operation touches a run in a final state. -/
theorem Transition.terminal_kept {row : RunRow}
    (moved : Transition sha256 db clock command response next)
    (operation : command.isOperation = true) (member : row ∈ db.runs.rows)
    (final : row.state.terminal = true) :
    row ∈ next.runs.rows ∧ next.eventsOf row.id = db.eventsOf row.id := by
  rcases moved.runs_cases with ⟨runs, events⟩ |
    ⟨admitted, _, inserted, logged⟩ | ⟨old, new, entries, step, recorded⟩
  · exact ⟨runs ▸ member, by rw [eventsOf, events, eventsOf]⟩
  · have different : admitted.id ≠ row.id := by
      intro equal
      have apart := inserted.fresh row member
      simp [RunRow.schema, RunRow.advance, equal] at apart
    exact ⟨inserted.old_mem member, eventsOf_eq_of_append different logged⟩
  · have apart : row ≠ old := by
      rintro rfl
      simp [step.not_terminal operation] at final
    have sameId : new.id = old.id := (RunRow.SameRequest.of_step step sha256).id
    have different : new.id ≠ row.id := fun equal =>
      apart (run_eq_of_id member recorded.replaced.member
        (equal.symm.trans sameId))
    exact ⟨recorded.replaced.mem_iff.mpr (.inr ⟨member, apart⟩),
      eventsOf_eq_of_append different recorded.logged⟩

/-- A changed state is a step of the specification. -/
theorem Transition.state_transition {before after : RunRow}
    (moved : Transition sha256 db clock command response next)
    (contained : db.UncertaintyContained) (stored : before ∈ db.runs.rows)
    (member : after ∈ next.runs.rows) (sameId : after.id = before.id)
    (changed : after.state ≠ before.state) :
    before.state.transition after.state
      (db.uncertain before.tenantId before.id) false = .ok after.state := by
  rcases moved.run_origin member with old | ⟨admitted, admission, rfl⟩ |
    ⟨old, new, entries, oldStored, step, rfl⟩
  · rw [run_eq_of_id old stored sameId] at changed
    exact absurd rfl changed
  · rcases moved.runs_cases with ⟨same, _⟩ |
      ⟨_, _, inserted, _⟩ | ⟨_, _, _, step, _⟩
    · rw [run_eq_of_id (same ▸ member) stored sameId] at changed
      exact absurd rfl changed
    · rcases inserted.mem_iff.mp member with old | equal
      · rw [run_eq_of_id old stored sameId] at changed
        exact absurd rfl changed
      · have apart := inserted.fresh before stored
        rw [← equal] at apart
        simp [RunRow.schema, sameId] at apart
    · cases admission
      cases step
  · have same := RunRow.SameRequest.of_step step sha256
    obtain rfl : old = before :=
      run_eq_of_id oldStored stored (same.id.symm.trans sameId)
    exact step.transition_ok (contained old stored) changed

end Database

variable {sha256 : Sha256} {db : Database}
  {history : List Event}

theorem Reachable.uncertaintyContained
    (reached : Reachable sha256 Database.BrokerConduct db) :
    db.UncertaintyContained := by
  have together := reached.invariant
    (fun db => db.References ∧ db.UncertaintyContained)
    ⟨Database.references_migrated,
      by simp [Database.UncertaintyContained, Database.migrated, Table.empty]⟩
    fun _ _ _ _ holds conduct moved => ⟨moved.references holds.1,
      moved.uncertaintyContained rfl conduct holds.1 holds.2⟩
  exact together.2

/-- With a broker that keeps to its state machine, every state change of a run
is a step of the specification; a run with an unresolved effect is leased,
running or set aside for reconciliation; and no operation changes a run in a
final state or its events. -/
theorem store_refines_runStates
    (execution : StoreExecution sha256 Database.BrokerConduct history db) :
    (∀ event ∈ history, ∀ before ∈ event.before.runs.rows,
      ∀ after ∈ event.after.runs.rows, after.id = before.id →
      after.state ≠ before.state →
      before.state.transition after.state
        (event.before.uncertain before.tenantId before.id) false =
          .ok after.state) ∧
    (∀ row ∈ db.runs.rows, db.uncertain row.tenantId row.id = true →
      row.state = .leased ∨ row.state = .running ∨
        row.state = .needsReconciliation) ∧
    ∀ event ∈ history, event.call.command.isOperation = true →
      ∀ row ∈ event.before.runs.rows, row.state.terminal = true →
        row ∈ event.after.runs.rows ∧
          event.after.eventsOf row.id = event.before.eventsOf row.id := by
  refine ⟨?_, Reachable.uncertaintyContained ⟨history, execution⟩, ?_⟩
  · intro event member before stored after afterStored sameId changed
    obtain ⟨_, _, reached, _, done, _⟩ := execution.split_mem member
    rcases Database.moved_of_perform done with
      ⟨_, _, same⟩ | ⟨response, _, moved⟩
    · rw [same] at afterStored
      rw [Database.run_eq_of_id afterStored stored sameId] at changed
      exact absurd rfl changed
    · exact moved.state_transition
        (Reachable.uncertaintyContained ⟨_, reached⟩) stored afterStored
        sameId changed
  · intro event member operation row stored final
    obtain ⟨_, _, _, _, done, _⟩ := execution.split_mem member
    rcases Database.moved_of_perform done with
      ⟨_, _, same⟩ | ⟨response, _, moved⟩
    · rw [same]
      exact ⟨stored, rfl⟩
    · exact moved.terminal_kept operation stored final

namespace Sample

/-- An effect prepared under the lease of the run. -/
def prepared : List Command :=
  lease ++ [.prepareEffect ⟨1, 20, 0, Digest.zero, "ticket.create",
    "tickets-idem", "DEMO", "provider"⟩]

def dispatch : Call := ⟨.moveEffect 1 20 0 .dispatching, fun _ => 5⟩

/-- The broker may dispatch the effect of the leased run. -/
theorem brokerConduct_dispatch :
    (after prepared).BrokerConduct dispatch := by
  have state : ((after prepared).findEffect 1 20 0).map EffectRow.state =
      some .prepared := by decide +kernel
  have active : ((after prepared).findRun 1 20).map
      (fun row => (row.state, row.activeSlotHeld)) = some (.leased, true) := by
    decide +kernel
  obtain ⟨row, found, columns⟩ := Option.map_eq_some_iff.mp active
  intro effect effectFound
  simp only [effectFound, Option.map_some, Option.some.injEq] at state
  simp only [Prod.mk.injEq] at columns
  refine ⟨⟨false, false, by rw [state]; rfl⟩, fun _ => ?_⟩
  exact ⟨row, found, .inl columns.1, columns.2⟩

end Sample

theorem store_refines_runStates_dispatch :
    ∃ row ∈ (((Sample.after Sample.prepared).perform Sample.sha256
        Sample.dispatch).2).runs.rows,
      ((((Sample.after Sample.prepared).perform Sample.sha256
        Sample.dispatch).2).uncertain row.tenantId row.id = true) ∧
      (row.state = .leased ∨ row.state = .running ∨
        row.state = .needsReconciliation) := by
  have permitted : ∀ db : Database, ∀ call ∈ Sample.calls Sample.prepared,
      db.BrokerConduct call := by
    intro db call member
    simp only [Sample.calls, Sample.prepared, Sample.lease, Sample.admission,
      Sample.delegation, List.map_cons, List.map_nil,
      List.cons_append, List.nil_append, List.mem_cons, List.not_mem_nil,
      or_false] at member
    rcases member with rfl | rfl | rfl | rfl | rfl | rfl | rfl <;> trivial
  have prepared : StoreExecution Sample.sha256 Database.BrokerConduct _
      (Sample.after Sample.prepared) := Sample.execution_after permitted
  have execution := prepared.next Sample.dispatch Sample.brokerConduct_dispatch
  have unsure : (((Sample.after Sample.prepared).perform Sample.sha256
      Sample.dispatch).2).uncertain 1 20 = true := by decide +kernel
  have known : ((((Sample.after Sample.prepared).perform Sample.sha256
      Sample.dispatch).2).findRun 1 20).isSome = true := by decide +kernel
  obtain ⟨row, found⟩ := Option.isSome_iff_exists.mp known
  obtain ⟨member, tenantEq, idEq⟩ := Database.findRun_eq_some_iff.mp found
  have here : (((Sample.after Sample.prepared).perform Sample.sha256
      Sample.dispatch).2).uncertain row.tenantId row.id = true := by
    rw [tenantEq, idEq]
    exact unsure
  exact ⟨row, member, here,
    (store_refines_runStates execution).2.1 row member here⟩

end EffectLatch
