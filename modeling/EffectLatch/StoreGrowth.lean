import EffectLatch.RunRowSteps

/-!
# What no call takes back

Rows are never deleted, and some columns never change: the request of a run,
the authority of a grant, a revocation, a charged reservation.  `Extends`
collects this for one call and, being transitive, for any continuation.
-/

namespace EffectLatch

/-- A grant row and a later version of it: identity, ancestry and authority are
the same, a revocation stays, and the charge does not fall. -/
structure GrantRow.Evolves (first second : GrantRow) : Prop where
  tenantId : second.tenantId = first.tenantId
  id : second.id = first.id
  parentId : second.parentId = first.parentId
  depth : second.depth = first.depth
  actions : second.actions = first.actions
  destinations : second.destinations = first.destinations
  projects : second.projects = first.projects
  maxEffects : second.maxEffects = first.maxEffects
  expiresAt : second.expiresAt = first.expiresAt
  revoked : ∀ revokedAt, first.revokedAt = some revokedAt →
    second.revokedAt = some revokedAt
  usedEffects : first.usedEffects ≤ second.usedEffects

namespace GrantRow

theorem Evolves.refl (row : GrantRow) : row.Evolves row :=
  ⟨rfl, rfl, rfl, rfl, rfl, rfl, rfl, rfl, rfl, fun _ revoked => revoked,
    le_refl _⟩

theorem Evolves.trans {first second third : GrantRow}
    (left : first.Evolves second) (right : second.Evolves third) :
    first.Evolves third :=
  ⟨right.tenantId.trans left.tenantId, right.id.trans left.id,
    right.parentId.trans left.parentId, right.depth.trans left.depth,
    right.actions.trans left.actions,
    right.destinations.trans left.destinations,
    right.projects.trans left.projects, right.maxEffects.trans left.maxEffects,
    right.expiresAt.trans left.expiresAt,
    fun revokedAt revoked => right.revoked revokedAt (left.revoked _ revoked),
    left.usedEffects.trans right.usedEffects⟩

theorem evolves_revokedFrom {row : GrantRow} (now : Timestamp)
    (unrevoked : row.revokedAt = none) : row.Evolves (row.revokedFrom now) :=
  ⟨rfl, rfl, rfl, rfl, rfl, rfl, rfl, rfl, rfl,
    fun _ revoked => by simp [unrevoked] at revoked, le_refl _⟩

theorem evolves_charged (row : GrantRow) (request : GrantReservation)
    (ids : List Uuid) : row.Evolves (row.charged request ids) := by
  unfold charged
  split
  · exact ⟨rfl, rfl, rfl, rfl, rfl, rfl, rfl, rfl, rfl,
      fun _ revoked => revoked, Int.le_add_one (le_refl _)⟩
  · exact Evolves.refl row

end GrantRow

/-- The columns of an effect that its preparation fixes; a charge stays. -/
structure EffectRow.Evolves (first second : EffectRow) : Prop where
  tenantId : second.tenantId = first.tenantId
  runId : second.runId = first.runId
  ordinal : second.ordinal = first.ordinal
  charged : first.reservationCharged = true → second.reservationCharged = true

theorem EffectRow.Evolves.refl (row : EffectRow) : row.Evolves row :=
  ⟨rfl, rfl, rfl, id⟩

theorem EffectRow.Evolves.trans {first second third : EffectRow}
    (left : first.Evolves second) (right : second.Evolves third) :
    first.Evolves third :=
  ⟨right.tenantId.trans left.tenantId, right.runId.trans left.runId,
    right.ordinal.trans left.ordinal, right.charged ∘ left.charged⟩

namespace Database

/-- Everything in `db` is still there in `next`. -/
structure Extends (db next : Database) : Prop where
  scheduler : db.schedulerState ≠ none → next.schedulerState ≠ none
  tenants : ∀ row ∈ db.tenants.rows, ∃ new ∈ next.tenants.rows,
    new.id = row.id
  modules : ∀ row ∈ db.modules.rows, row ∈ next.modules.rows
  grants : ∀ row ∈ db.grants.rows, ∃ new ∈ next.grants.rows, row.Evolves new
  runs : ∀ row ∈ db.runs.rows, ∃ new ∈ next.runs.rows, row.SameRequest new
  effects : ∀ row ∈ db.effects.rows, ∃ new ∈ next.effects.rows,
    row.Evolves new
  reservations : ∀ row ∈ db.effectReservations.rows,
    row ∈ next.effectReservations.rows

namespace Extends

theorem refl (db : Database) : db.Extends db :=
  ⟨id, fun row member => ⟨row, member, rfl⟩, fun _ member => member,
    fun row member => ⟨row, member, .refl row⟩,
    fun row member => ⟨row, member, .refl row⟩,
    fun row member => ⟨row, member, .refl row⟩, fun _ member => member⟩

theorem trans {first second third : Database} (left : first.Extends second)
    (right : second.Extends third) : first.Extends third where
  scheduler := right.scheduler ∘ left.scheduler
  tenants row member := by
    obtain ⟨middle, middleMember, middleId⟩ := left.tenants row member
    obtain ⟨last, lastMember, lastId⟩ := right.tenants middle middleMember
    exact ⟨last, lastMember, lastId.trans middleId⟩
  modules row member := right.modules row (left.modules row member)
  grants row member := by
    obtain ⟨middle, middleMember, toMiddle⟩ := left.grants row member
    obtain ⟨last, lastMember, toLast⟩ := right.grants middle middleMember
    exact ⟨last, lastMember, toMiddle.trans toLast⟩
  runs row member := by
    obtain ⟨middle, middleMember, toMiddle⟩ := left.runs row member
    obtain ⟨last, lastMember, toLast⟩ := right.runs middle middleMember
    exact ⟨last, lastMember, toMiddle.trans toLast⟩
  effects row member := by
    obtain ⟨middle, middleMember, toMiddle⟩ := left.effects row member
    obtain ⟨last, lastMember, toLast⟩ := right.effects middle middleMember
    exact ⟨last, lastMember, toMiddle.trans toLast⟩
  reservations row member :=
    right.reservations row (left.reservations row member)

variable {db next : Database}

theorem findTenant_ne_none {id : Uuid} (extended : db.Extends next)
    (known : db.findTenant id ≠ none) : next.findTenant id ≠ none := by
  obtain ⟨row, found⟩ := Option.ne_none_iff_exists'.mp known
  obtain ⟨member, idEq⟩ := findTenant_eq_some_iff.mp found
  obtain ⟨new, newMember, newId⟩ := extended.tenants row member
  have newFound : next.findTenant id = some new :=
    findTenant_eq_some_iff.mpr ⟨newMember, newId.trans idEq⟩
  simp [newFound]

theorem findModule_eq_some {tenant : Uuid} {digest : Digest}
    {row : ModuleRow} (extended : db.Extends next)
    (found : db.findModule tenant digest = some row) :
    next.findModule tenant digest = some row := by
  obtain ⟨member, columns⟩ := findModule_eq_some_iff.mp found
  exact findModule_eq_some_iff.mpr ⟨extended.modules row member, columns⟩

theorem findGrant_eq_some {tenant id : Uuid} {row : GrantRow}
    (extended : db.Extends next) (found : db.findGrant tenant id = some row) :
    ∃ new, next.findGrant tenant id = some new ∧ row.Evolves new := by
  obtain ⟨member, tenantEq, idEq⟩ := findGrant_eq_some_iff.mp found
  obtain ⟨new, newMember, evolved⟩ := extended.grants row member
  exact ⟨new, findGrant_eq_some_iff.mpr ⟨newMember,
    evolved.tenantId.trans tenantEq, evolved.id.trans idEq⟩, evolved⟩

theorem findRun_eq_some {tenant id : Uuid} {row : RunRow}
    (extended : db.Extends next) (found : db.findRun tenant id = some row) :
    ∃ new, next.findRun tenant id = some new ∧ row.SameRequest new := by
  obtain ⟨member, tenantEq, idEq⟩ := findRun_eq_some_iff.mp found
  obtain ⟨new, newMember, same⟩ := extended.runs row member
  exact ⟨new, findRun_eq_some_iff.mpr ⟨newMember,
    same.tenantId.trans tenantEq, same.id.trans idEq⟩, same⟩

theorem findEffect_eq_some {tenant run : Uuid} {ordinal : Int}
    {row : EffectRow} (extended : db.Extends next)
    (found : db.findEffect tenant run ordinal = some row) :
    ∃ new, next.findEffect tenant run ordinal = some new ∧
      row.Evolves new := by
  obtain ⟨member, tenantEq, runEq, ordinalEq⟩ :=
    findEffect_eq_some_iff.mp found
  obtain ⟨new, newMember, evolved⟩ := extended.effects row member
  exact ⟨new, findEffect_eq_some_iff.mpr ⟨newMember,
    evolved.tenantId.trans tenantEq, evolved.runId.trans runEq,
    evolved.ordinal.trans ordinalEq⟩, evolved⟩

end Extends

variable {sha256 : Sha256} {db next : Database} {clock : Clock}
  {command : Command} {response : Response}

theorem Transition.runs_extend
    (moved : Transition sha256 db clock command response next) :
    ∀ row ∈ db.runs.rows, ∃ new ∈ next.runs.rows, row.SameRequest new := by
  intro row member
  rcases moved.runs_cases with ⟨same, _⟩ | ⟨_, _, inserted, _⟩ |
    ⟨old, new, entries, step, recorded⟩
  · exact ⟨row, same ▸ member, .refl row⟩
  · exact ⟨row, inserted.old_mem member, .refl row⟩
  · exact recorded.replaced.exists_successor _ RunRow.SameRequest.refl
      (.of_step step sha256) member

/-- No call takes anything back. -/
theorem Transition.extends
    (moved : Transition sha256 db clock command response next) :
    db.Extends next := by
  have runs := moved.runs_extend
  have same := Extends.refl db
  cases moved with
  | unchanged _ => exact same
  | moduleCreated _ inserted =>
      exact { same with modules := fun _ member => inserted.old_mem member }
  | admitted _ _ _ _ _ _ _ _ _ _ => exact { same with runs := runs }
  | grantCreated _ _ _ _ inserted =>
      exact { same with
        grants := fun row member =>
          ⟨row, inserted.old_mem member, .refl row⟩ }
  | grantRevoked _ unrevoked replaced =>
      exact { same with
        grants := fun _ member =>
          replaced.exists_successor _ GrantRow.Evolves.refl
            (GrantRow.evolves_revokedFrom _ unrevoked) member }
  | @reserved request _ _ _ _ plan _ _ _ _ _ _ _ _ _ _ charged recorded
      marked =>
      exact { same with
        grants := fun row member =>
          ⟨_, charged ▸ List.mem_map_of_mem member,
            row.evolves_charged request (plan.map Prod.fst)⟩
        effects := fun _ member =>
          marked.exists_successor _ EffectRow.Evolves.refl
            ⟨rfl, rfl, rfl, fun _ => rfl⟩ member
        reservations := fun _ member =>
          recorded ▸ List.mem_append_left _ member }
  | leased _ _ _ _ _ served _ _ =>
      exact { same with
        scheduler := fun _ => by simp
        tenants := fun _ member =>
          served.exists_successor
            (fun first second => second.id = first.id)
            (fun _ => rfl) rfl member
        runs := runs }
  | denied _ _ _ => exact { same with runs := runs }
  | renewed _ _ _ _ _ _ _ _ _ => exact { same with runs := runs }
  | started _ _ _ => exact { same with runs := runs }
  | promoted _ _ _ _ _ _ _ _ => exact { same with runs := runs }
  | expired _ _ _ _ _ _ _ _ released _ =>
      exact { same with
        tenants := fun _ member =>
          released.exists_successor
            (fun first second => second.id = first.id)
            (fun _ => rfl) rfl member
        runs := runs }
  | finished _ _ _ _ _ released _ =>
      exact { same with
        tenants := fun _ member =>
          released.exists_successor
            (fun first second => second.id = first.id)
            (fun _ => rfl) rfl member
        runs := runs }
  | tenantProvisioned inserted =>
      exact { same with
        tenants := fun row member => ⟨row, inserted.old_mem member, rfl⟩ }
  | cancelRequested _ _ => exact { same with runs := runs }
  | cancelMissed => exact same
  | effectPrepared _ inserted =>
      exact { same with
        effects := fun row member =>
          ⟨row, inserted.old_mem member, .refl row⟩ }
  | effectMoved _ replaced =>
      exact { same with
        effects := fun _ member =>
          replaced.exists_successor _ EffectRow.Evolves.refl
            ⟨rfl, rfl, rfl, id⟩ member }
  | moveMissed => exact same

/-- Nothing is taken back along any continuation. -/
theorem extends_of_execution {allowed : Database → Call → Prop}
    {origin : Database}
    {history : List Event}
    (execution : Execution (perform sha256) allowed origin history db) : origin.Extends db := by
  refine execution.invariant origin.Extends (Extends.refl origin) ?_
  intro state call extended _
  rcases state.perform_cases sha256 call with
    ⟨_, _, performed⟩ | ⟨response, next, moved, performed⟩
  · rw [performed]
    exact extended
  · rw [performed]
    exact extended.trans moved.extends

end Database

end EffectLatch
