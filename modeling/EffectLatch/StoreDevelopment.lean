import EffectLatch.StoreGrowth

/-!
# How stored runs develop

A run's row is rewritten by many calls, but not in every way: its lease epoch
and its attempts only grow, a request to cancel it stays, and once it rests only
such a request touches it.  `Develops` collects this for one call and, being
transitive, for any continuation.
-/

namespace EffectLatch

/-- No call moves a run out of this state. -/
def RunState.rests (state : RunState) : Bool :=
  state.terminal || state == .needsReconciliation

/-- A row of a run and a later version of it. -/
structure RunRow.Evolves (first second : RunRow) : Prop where
  request : first.SameRequest second
  epoch : first.leaseEpoch ≤ second.leaseEpoch
  attempt : first.attempt ≤ second.attempt
  cancelled : first.cancelRequested = true → second.cancelRequested = true
  rested : first.state.rests = true →
    second = { first with cancelRequested := second.cancelRequested }

namespace RunRow.Evolves

theorem refl (row : RunRow) : row.Evolves row :=
  ⟨.refl row, le_refl _, le_refl _, fun flag => flag, fun _ => rfl⟩

theorem trans {first second third : RunRow} (left : first.Evolves second)
    (right : second.Evolves third) : first.Evolves third where
  request := left.request.trans right.request
  epoch := left.epoch.trans right.epoch
  attempt := left.attempt.trans right.attempt
  cancelled := right.cancelled ∘ left.cancelled
  rested resting := by
    obtain ⟨flag, rfl⟩ : ∃ flag,
        second = { first with cancelRequested := flag } :=
      ⟨_, left.rested resting⟩
    exact right.rested resting

theorem state_eq {first second : RunRow} (evolves : first.Evolves second)
    (resting : first.state.rests = true) : second.state = first.state := by
  rw [evolves.rested resting]

/-- A rewrite of a run that does not rest. -/
theorem of_moving {first second : RunRow} (request : first.SameRequest second)
    (moving : first.state.rests = false)
    (epoch : first.leaseEpoch ≤ second.leaseEpoch)
    (attempt : first.attempt ≤ second.attempt)
    (cancel : second.cancelRequested = first.cancelRequested) :
    first.Evolves second :=
  ⟨request, epoch, attempt, cancel.trans,
    fun resting => by simp [moving] at resting⟩

theorem of_step {db : Database} {clock : Clock} {command : Command}
    {old new : RunRow} {entries : List (String × List UInt8)}
    (step : db.RunStep clock command old new entries) (sha256 : Sha256) :
    old.Evolves (new.advance sha256 entries) := by
  have request := RunRow.SameRequest.of_step step sha256
  have moves {state : RunState} (active : state = .leased ∨ state = .running) :
      state.rests = false := by
    rcases active with rfl | rfl <;> rfl
  cases step with
  | leased selected _ _ =>
      refine of_moving request ?_ (Int.le_add_one (le_refl _))
        (Int.le_add_one (le_refl _)) rfl
      rw [selected.queued]
      rfl
  | denied selected _ =>
      refine of_moving request ?_ (le_refl _) (le_refl _) rfl
      rw [selected.queued]
      rfl
  | renewed _ active =>
      exact of_moving request (moves active) (le_refl _) (le_refl _) rfl
  | started _ waiting =>
      exact of_moving request (moves (.inl waiting)) (le_refl _) (le_refl _) rfl
  | promoted waiting _ =>
      refine of_moving request ?_ (le_refl _) (le_refl _) rfl
      rw [waiting]
      rfl
  | expired _ active _ =>
      exact of_moving request (moves active) (le_refl _) (le_refl _) rfl
  | finished _ running _ =>
      exact of_moving request (moves (.inr running)) (le_refl _) (le_refl _) rfl
  | cancelRequested =>
      rw [RunRow.advance_nil] at request ⊢
      exact ⟨request, le_refl _, le_refl _, fun _ => rfl, fun _ => rfl⟩

end RunRow.Evolves

/-- The columns of an effect that its preparation fixes for good. -/
structure EffectRow.SameIntent (first second : EffectRow) : Prop where
  tenantId : second.tenantId = first.tenantId
  runId : second.runId = first.runId
  ordinal : second.ordinal = first.ordinal
  requestHash : second.requestHash = first.requestHash
  providerKey : second.providerKey = first.providerKey

theorem EffectRow.SameIntent.refl (row : EffectRow) : row.SameIntent row :=
  ⟨rfl, rfl, rfl, rfl, rfl⟩

theorem EffectRow.SameIntent.trans {first second third : EffectRow}
    (left : first.SameIntent second) (right : second.SameIntent third) :
    first.SameIntent third :=
  ⟨right.tenantId.trans left.tenantId, right.runId.trans left.runId,
    right.ordinal.trans left.ordinal,
    right.requestHash.trans left.requestHash,
    right.providerKey.trans left.providerKey⟩

namespace Database

/-- The runs and effects of `next` are later versions of those of `db`. -/
structure Develops (db next : Database) : Prop where
  extended : db.Extends next
  runs : ∀ row ∈ db.runs.rows, ∃ new ∈ next.runs.rows, row.Evolves new
  effects : ∀ row ∈ db.effects.rows, ∃ new ∈ next.effects.rows,
    row.SameIntent new

namespace Develops

theorem refl (db : Database) : db.Develops db :=
  ⟨.refl db, fun row member => ⟨row, member, .refl row⟩,
    fun row member => ⟨row, member, .refl row⟩⟩

theorem trans {first second third : Database} (left : first.Develops second)
    (right : second.Develops third) : first.Develops third where
  extended := left.extended.trans right.extended
  runs row member := by
    obtain ⟨middle, middleMember, toMiddle⟩ := left.runs row member
    obtain ⟨last, lastMember, toLast⟩ := right.runs middle middleMember
    exact ⟨last, lastMember, toMiddle.trans toLast⟩
  effects row member := by
    obtain ⟨middle, middleMember, toMiddle⟩ := left.effects row member
    obtain ⟨last, lastMember, toLast⟩ := right.effects middle middleMember
    exact ⟨last, lastMember, toMiddle.trans toLast⟩

/-- The later version of a run, found by its identity. -/
theorem evolves {db next : Database} (developed : db.Develops next)
    {row new : RunRow} (member : row ∈ db.runs.rows)
    (newMember : new ∈ next.runs.rows) (sameId : new.id = row.id) :
    row.Evolves new := by
  obtain ⟨found, foundMember, evolved⟩ := developed.runs row member
  have same : found = new := run_eq_of_id foundMember newMember
    (evolved.request.id.trans sameId.symm)
  exact same ▸ evolved

end Develops

variable {sha256 : Sha256} {db next : Database} {clock : Clock}
  {command : Command} {response : Response}

/-- Every call that goes through develops the store. -/
theorem Transition.develops
    (moved : Transition sha256 db clock command response next) :
    db.Develops next where
  extended := moved.extends
  runs := by
    intro row member
    rcases moved.runs_cases with ⟨same, _⟩ | ⟨_, _, inserted, _⟩ |
      ⟨old, new, entries, step, recorded⟩
    · exact ⟨row, same ▸ member, .refl row⟩
    · exact ⟨row, inserted.old_mem member, .refl row⟩
    · exact recorded.replaced.exists_successor _ RunRow.Evolves.refl
        (.of_step step sha256) member
  effects := by
    intro row member
    cases moved with
    | reserved _ _ _ _ _ _ _ _ _ marked =>
        exact marked.exists_successor _ EffectRow.SameIntent.refl
          ⟨rfl, rfl, rfl, rfl, rfl⟩ member
    | effectPrepared _ inserted =>
        exact ⟨row, inserted.old_mem member, .refl row⟩
    | effectMoved _ replaced =>
        exact replaced.exists_successor _ EffectRow.SameIntent.refl
          ⟨rfl, rfl, rfl, rfl, rfl⟩ member
    | _ => exact ⟨row, member, .refl row⟩

/-- The store develops along any continuation. -/
theorem develops_of_execution {allowed : Database → Call → Prop}
    {origin : Database} {history : List Event}
    (execution : Execution (perform sha256) allowed origin history db) :
    origin.Develops db := by
  refine execution.invariant origin.Develops (.refl origin) ?_
  intro state call developed _
  rcases state.perform_cases sha256 call with
    ⟨_, _, performed⟩ | ⟨response, next, moved, performed⟩
  · rw [performed]
    exact developed
  · rw [performed]
    exact developed.trans moved.develops

end Database

end EffectLatch
