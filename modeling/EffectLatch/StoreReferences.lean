import EffectLatch.StoreGrowth

/-!
# Foreign keys

Where the rows of each table come from, and the references the schema declares
as an invariant of every reachable state.
-/

namespace EffectLatch

namespace Database

/-- The row a successful grant creation stores. -/
inductive GrantCreation (db : Database) (clock : Clock) :
    Command → GrantRow → Prop
  | created {id tenant : Uuid} {parent : Option Uuid} {actorId : String}
      {authority : Authority} {ancestry : List Grant} {nowMs : Int64}
      (loaded : db.creationAncestry tenant parent = .ok ancestry)
      (tenantKnown : db.findTenant tenant ≠ none)
      (now : epochMs (clock 0) = .ok nowMs)
      (validated : (if ancestry = [] then authority.validate nowMs
        else validateChild authority ancestry tenant nowMs) = .ok ())
      (fresh : db.findGrant tenant id = none) :
      GrantCreation db clock (.createGrant id tenant parent actorId authority)
        (createdGrantRow id tenant parent ancestry.length authority)

variable {sha256 : Sha256} {db next : Database} {clock : Clock}
  {command : Command} {response : Response}

/-- A row that could be inserted had an unused identity. -/
theorem findGrant_eq_none_of_inserted {grants : Table GrantRow.schema}
    {row : GrantRow} (inserted : Table.Inserted db.grants grants row) :
    db.findGrant row.tenantId row.id = none := by
  rw [findGrant, List.find?_eq_none]
  intro old member chosen
  have apart := inserted.fresh old member
  simp only [decide_eq_true_eq] at chosen
  simp [GrantRow.schema, chosen] at apart

/-- Every grant after the call was there before it or was created by it. -/
theorem Transition.grant_origin {row : GrantRow}
    (moved : Transition sha256 db clock command response next)
    (member : row ∈ next.grants.rows) :
    (∃ old ∈ db.grants.rows, old.Evolves row) ∨
      GrantCreation db clock command row := by
  cases moved with
  | grantCreated loaded tenantKnown now validated inserted =>
      rcases inserted.mem_iff.mp member with stored | rfl
      · exact .inl ⟨row, stored, .refl row⟩
      · exact .inr (.created loaded tenantKnown now validated
          (findGrant_eq_none_of_inserted inserted))
  | grantRevoked _ unrevoked replaced =>
      exact .inl (replaced.exists_origin _ GrantRow.Evolves.refl
        (GrantRow.evolves_revokedFrom _ unrevoked) member)
  | @reserved request _ _ _ _ plan _ _ _ _ _ _ _ _ _ _ charged _ _ =>
      rw [charged, List.mem_map] at member
      obtain ⟨old, oldMember, rfl⟩ := member
      exact .inl ⟨old, oldMember, old.evolves_charged request _⟩
  | _ => exact .inl ⟨row, member, .refl row⟩

/-- Every effect after the call was there before it or was prepared by it. -/
theorem Transition.effect_origin {row : EffectRow}
    (moved : Transition sha256 db clock command response next)
    (member : row ∈ next.effects.rows) :
    (∃ old ∈ db.effects.rows, old.Evolves row) ∨
      ∃ intent, command = .prepareEffect intent ∧ row = intent.row ∧
        db.findRun intent.tenantId intent.runId ≠ none := by
  cases moved with
  | reserved _ _ _ _ _ _ _ _ _ marked =>
      exact .inl (marked.exists_origin _ EffectRow.Evolves.refl
        ⟨rfl, rfl, rfl, fun _ => rfl⟩ member)
  | @effectPrepared intent _ runKnown inserted =>
      rcases inserted.mem_iff.mp member with stored | rfl
      · exact .inl ⟨row, stored, .refl row⟩
      · exact .inr ⟨intent, rfl, rfl, runKnown⟩
  | effectMoved _ replaced =>
      exact .inl (replaced.exists_origin _ EffectRow.Evolves.refl
        ⟨rfl, rfl, rfl, id⟩ member)
  | _ => exact .inl ⟨row, member, .refl row⟩

/-- The tenant, module and grant a run refers to. -/
structure RunReferences (db : Database) (row : RunRow) : Prop where
  tenant : db.findTenant row.tenantId ≠ none
  module : db.findModule row.tenantId row.moduleDigest ≠ none
  grant : db.findGrant row.tenantId row.grantId ≠ none

theorem RunReferences.extend {row new : RunRow} (refers : db.RunReferences row)
    (extended : db.Extends next) (same : row.SameRequest new) :
    next.RunReferences new := by
  constructor
  · rw [same.tenantId]
    exact extended.findTenant_ne_none refers.tenant
  · rw [same.tenantId, same.moduleDigest]
    obtain ⟨stored, found⟩ := Option.ne_none_iff_exists'.mp refers.module
    simp [extended.findModule_eq_some found]
  · rw [same.tenantId, same.grantId]
    obtain ⟨stored, found⟩ := Option.ne_none_iff_exists'.mp refers.grant
    obtain ⟨_, newFound, _⟩ := extended.findGrant_eq_some found
    simp [newFound]

/-- The references of the schema hold, and the scheduler row is there. -/
structure References (db : Database) : Prop where
  scheduler : db.schedulerState ≠ none
  grants : ∀ row ∈ db.grants.rows, db.findTenant row.tenantId ≠ none
  runs : ∀ row ∈ db.runs.rows, db.RunReferences row
  effects : ∀ row ∈ db.effects.rows, db.findRun row.tenantId row.runId ≠ none

theorem references_migrated : migrated.References := by
  constructor <;> simp [migrated, Table.empty]

theorem RunAdmission.references {row : RunRow}
    (admission : RunAdmission sha256 db clock command row) :
    db.RunReferences row := by
  cases admission with
  | admitted tenantFound _ moduleFound grantFound _ =>
      exact ⟨by simp [admittedRow, tenantFound], moduleFound, grantFound⟩

theorem Transition.references
    (moved : Transition sha256 db clock command response next)
    (refers : db.References) : next.References where
  scheduler := moved.extends.scheduler refers.scheduler
  grants row member := by
    apply moved.extends.findTenant_ne_none
    rcases moved.grant_origin member with ⟨old, oldMember, evolved⟩ | creation
    · rw [evolved.tenantId]
      exact refers.grants old oldMember
    · cases creation with
      | created _ tenantKnown _ _ _ => exact tenantKnown
  runs row member := by
    rcases moved.run_origin member with stored | ⟨admitted, admission, rfl⟩ |
      ⟨old, new, entries, oldMember, step, rfl⟩
    · exact (refers.runs row stored).extend moved.extends (.refl row)
    · exact admission.references.extend moved.extends
        ⟨rfl, rfl, rfl, rfl, rfl, rfl, rfl, rfl, rfl⟩
    · exact (refers.runs old oldMember).extend moved.extends
        (.of_step step sha256)
  effects row member := by
    have known : db.findRun row.tenantId row.runId ≠ none := by
      rcases moved.effect_origin member with ⟨old, oldMember, evolved⟩ |
        ⟨intent, _, rfl, runKnown⟩
      · rw [evolved.tenantId, evolved.runId]
        exact refers.effects old oldMember
      · exact runKnown
    obtain ⟨run, found⟩ := Option.ne_none_iff_exists'.mp known
    obtain ⟨_, newFound, _⟩ := moved.extends.findRun_eq_some found
    simp [newFound]

end Database

theorem Reachable.references {sha256 : Sha256}
    {allowed : Database → Call → Prop} {db : Database}
    (reached : Reachable sha256 allowed db) : db.References :=
  reached.invariant Database.References Database.references_migrated
    fun _ _ _ _ refers _ moved => moved.references refers

end EffectLatch
