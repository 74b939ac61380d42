import EffectLatch.GrantChainLoading
import EffectLatch.StoreCalls
import EffectLatch.TableSlices

/-!
# The rows of one tenant

Two databases with the same rows of a tenant answer every statement scoped to
the tenant alike, and such statements keep them alike.
-/

namespace EffectLatch

namespace Database

/-- Every table has the same rows of the tenant.  Operator events have no
unique columns, so they are compared in their order. -/
structure SameRows (tenant : Uuid) (db other : Database) : Prop where
  tenants : Table.SameOn (fun row => row.id = tenant) db.tenants other.tenants
  modules : Table.SameOn (fun row => row.tenantId = tenant) db.modules
    other.modules
  grants : Table.SameOn (fun row => row.tenantId = tenant) db.grants
    other.grants
  runs : Table.SameOn (fun row => row.tenantId = tenant) db.runs other.runs
  effects : Table.SameOn (fun row => row.tenantId = tenant) db.effects
    other.effects
  effectReservations : Table.SameOn (fun row => row.tenantId = tenant)
    db.effectReservations other.effectReservations
  runEvents : Table.SameOn (fun row => row.tenantId = tenant) db.runEvents
    other.runEvents
  operatorEvents :
    db.operatorEvents.filter (fun row => decide (row.tenantId = tenant)) =
      other.operatorEvents.filter fun row => decide (row.tenantId = tenant)

theorem SameRows.refl (tenant : Uuid) (db : Database) :
    SameRows tenant db db where
  tenants := .refl _
  modules := .refl _
  grants := .refl _
  runs := .refl _
  effects := .refl _
  effectReservations := .refl _
  runEvents := .refl _
  operatorEvents := rfl

namespace SameRows

variable {tenant : Uuid} {db other : Database}
  (same : SameRows tenant db other)

include same

theorem findTenant_eq : db.findTenant tenant = other.findTenant tenant := by
  apply same.tenants.find?_eq _ (db.tenants_alone tenant)
    (other.tenants_alone tenant)
  intro row chosen
  exact of_decide_eq_true chosen

theorem findModule_eq (digest : Digest) :
    db.findModule tenant digest = other.findModule tenant digest := by
  apply same.modules.find?_eq _ (db.modules_alone tenant digest)
    (other.modules_alone tenant digest)
  intro row chosen
  exact (of_decide_eq_true chosen).1

theorem findGrant_eq (id : Uuid) :
    db.findGrant tenant id = other.findGrant tenant id := by
  apply same.grants.find?_eq _ (db.grants_alone tenant id)
    (other.grants_alone tenant id)
  intro row chosen
  exact (of_decide_eq_true chosen).1

theorem findRun_eq (id : Uuid) :
    db.findRun tenant id = other.findRun tenant id := by
  ext row
  rw [findRun_eq_some_iff, findRun_eq_some_iff]
  constructor
  · rintro ⟨member, owned, identity⟩
    exact ⟨(same.runs row owned).mp member, owned, identity⟩
  · rintro ⟨member, owned, identity⟩
    exact ⟨(same.runs row owned).mpr member, owned, identity⟩

theorem findRunByKey_eq (key : String) :
    db.findRunByKey tenant key = other.findRunByKey tenant key := by
  apply same.runs.find?_eq _ (db.runs_alone_key tenant key)
    (other.runs_alone_key tenant key)
  intro row chosen
  exact (of_decide_eq_true chosen).1

theorem grantLive_eq (grant : Uuid) (now : Timestamp) :
    db.grantLive tenant grant now = other.grantLive tenant grant now := by
  apply same.grants.any_eq
  intro row chosen
  exact (of_decide_eq_true chosen).1

theorem pendingCount_eq :
    db.pendingCount (fun row => decide (row.tenantId = tenant)) =
      other.pendingCount fun row => decide (row.tenantId = tenant) := by
  apply same.runs.countP_eq
  intro row chosen
  simp only [Bool.and_eq_true, decide_eq_true_eq] at chosen
  exact chosen.1

theorem effectRecords_eq (run : Uuid) :
    db.effectRecords tenant run = other.effectRecords tenant run := by
  unfold effectRecords
  rw [same.effects.sort_eq _ EffectRow.ordinal]
  · intro one another chosen otherChosen sameOrdinal
    simp only [decide_eq_true_eq] at chosen otherChosen
    simp [EffectRow.schema, chosen, otherChosen, sameOrdinal]
  · intro row chosen
    exact (of_decide_eq_true chosen).1

theorem fetchRunByKey_eq (key : String) :
    db.fetchRunByKey tenant key = other.fetchRunByKey tenant key := by
  simp only [fetchRunByKey, same.findRunByKey_eq, same.effectRecords_eq]

theorem fetchGrantRecord_eq (id : Uuid) (ancestry : List Uuid) :
    db.fetchGrantRecord tenant id ancestry =
      other.fetchGrantRecord tenant id ancestry := by
  simp only [fetchGrantRecord, same.findGrant_eq]

/-- The locked load of an ancestry stays within the tenant. -/
theorem loadGrantChainLocked_eq (forest : db.GrantForest)
    (otherForest : other.GrantForest) (id : Uuid) :
    db.loadGrantChainLocked tenant id =
      other.loadGrantChainLocked tenant id := by
  have lookups : db.findGrant tenant = other.findGrant tenant :=
    funext same.findGrant_eq
  by_cases known : db.findGrant tenant id = none
  · have unknown : other.findGrant tenant id = none := by
      rw [← lookups]
      exact known
    simp only [loadGrantChainLocked, chainIds, known, unknown]
    rfl
  · obtain ⟨path, lineage⟩ := forest.exists_ancestry known
    have otherLineage : other.Ancestry tenant id path := by
      apply lineage.mono
      · intro node isRoot
        rw [IsRoot, lookups] at isRoot
        exact isRoot
      · intro above node delegates
        rw [Delegates, lookups] at delegates
        exact delegates
    rw [forest.loadGrantChainLocked_eq lineage,
      otherForest.loadGrantChainLocked_eq otherLineage, chainRows, chainRows,
      lookups]

theorem insertModule_agree {row : ModuleRow} (owned : row.tenantId = tenant) :
    Except.Agree (SameRows tenant) (db.insertModule row)
      (other.insertModule row) := by
  unfold insertModule
  rw [owned, same.findTenant_eq]
  apply Except.Agree.bind_same
  intro _ _
  apply Except.Agree.bind
    (Except.Agree.fetch (same.modules.insert_agree_of_clash _))
  · intro modules otherModules agree
    exact .pure { same with modules := agree }
  · intro old clashes
    simp only [ModuleRow.schema, decide_eq_true_eq, Prod.mk.injEq] at clashes
    exact clashes.1.trans owned

theorem insertGrant_agree {row : GrantRow} (owned : row.tenantId = tenant) :
    Except.Agree (SameRows tenant) (db.insertGrant row)
      (other.insertGrant row) := by
  unfold insertGrant
  simp only [owned, same.findTenant_eq, same.findGrant_eq]
  apply Except.Agree.bind_same
  intro _ _
  apply Except.Agree.bind_same
  intro _ _
  apply Except.Agree.bind
    (Except.Agree.fetch (same.grants.insert_agree_of_clash _))
  · intro grants otherGrants agree
    exact .pure { same with grants := agree }
  · intro old clashes
    simp only [GrantRow.schema, decide_eq_true_eq, Prod.mk.injEq] at clashes
    exact clashes.1.trans owned

/-- Run identities are unique over all tenants, so the new one must not be in
use elsewhere. -/
theorem insertRun_agree {row : RunRow} (owned : row.tenantId = tenant)
    (fresh : ∀ old ∈ db.runs.rows, old.id = row.id → old.tenantId = tenant)
    (otherFresh : ∀ old ∈ other.runs.rows, old.id = row.id →
      old.tenantId = tenant) :
    Except.Agree (SameRows tenant) (db.insertRun row)
      (other.insertRun row) := by
  unfold insertRun
  simp only [owned, same.findTenant_eq, same.findModule_eq, same.findGrant_eq]
  apply Except.Agree.bind_same
  intro _ _
  apply Except.Agree.bind_same
  intro _ _
  apply Except.Agree.bind_same
  intro _ _
  apply Except.Agree.bind (Except.Agree.fetch (same.runs.insert_agree _ _))
  · intro runs otherRuns agree
    exact .pure { same with runs := agree }
  · intro old member clashes
    simp only [RunRow.schema, decide_eq_true_eq] at clashes
    rcases clashes with sameId | ⟨sameTenant, _⟩
    · exact fresh old member sameId
    · exact sameTenant.trans owned
  · intro old member clashes
    simp only [RunRow.schema, decide_eq_true_eq] at clashes
    rcases clashes with sameId | ⟨sameTenant, _⟩
    · exact otherFresh old member sameId
    · exact sameTenant.trans owned

theorem insertRunEvent_agree {row : RunEventRow}
    (owned : row.tenantId = tenant) :
    Except.Agree (SameRows tenant) (db.insertRunEvent row)
      (other.insertRunEvent row) := by
  unfold insertRunEvent
  simp only [owned, same.findRun_eq]
  apply Except.Agree.bind_same
  intro _ _
  apply Except.Agree.bind
    (Except.Agree.fetch (same.runEvents.insert_agree_of_clash _))
  · intro events otherEvents agree
    exact .pure { same with runEvents := agree }
  · intro old clashes
    simp only [RunEventRow.schema, decide_eq_true_eq, Prod.mk.injEq] at clashes
    exact clashes.1.trans owned

theorem insertOperatorEvent_agree {row : OperatorEventRow}
    (owned : row.tenantId = tenant) :
    Except.Agree (SameRows tenant) (db.insertOperatorEvent row)
      (other.insertOperatorEvent row) := by
  unfold insertOperatorEvent
  rw [owned, same.findTenant_eq]
  apply Except.Agree.bind_same
  intro _ _
  apply Except.Agree.pure
  refine { same with operatorEvents := ?_ }
  rw [List.filter_append, List.filter_append, same.operatorEvents]

theorem updateGrants_agree {selected : GrantRow → Bool}
    (within : ∀ row, selected row = true → row.tenantId = tenant)
    (change : GrantRow → GrantRow)
    (keepsKey : ∀ row,
      GrantRow.schema.key (change row) = GrantRow.schema.key row) :
    Except.Agree (SameRows tenant) (db.updateGrants selected change keepsKey)
      (other.updateGrants selected change keepsKey) := by
  unfold updateGrants
  apply Except.Agree.bind (Except.Agree.fetch
    (same.grants.update_agree within change keepsKey))
  intro grants otherGrants agree
  exact .pure { same with grants := agree }

theorem updateRun_agree (id : Uuid) (change : RunRow → RunRow)
    (keepsKey : ∀ row, RunRow.schema.key (change row) = RunRow.schema.key row) :
    Except.Agree (SameRows tenant) (db.updateRun tenant id change keepsKey)
      (other.updateRun tenant id change keepsKey) := by
  unfold updateRun updateRuns
  apply Except.Agree.bind (Except.Agree.fetch
    (same.runs.update_agree _ change keepsKey))
  · intro runs otherRuns agree
    exact .pure { same with runs := agree }
  · intro row chosen
    exact (of_decide_eq_true chosen).1

theorem appendEvent_agree (sha256 : Sha256) (run : Uuid) (kind : String)
    (payload : List UInt8) :
    Except.Agree (SameRows tenant)
      (db.appendEvent sha256 tenant run kind payload)
      (other.appendEvent sha256 tenant run kind payload) := by
  unfold appendEvent
  rw [same.findRun_eq]
  apply Except.Agree.bind_same
  intro _ _
  apply Except.Agree.bind_same
  intro head _
  apply Except.Agree.bind_same
  intro _ _
  apply Except.Agree.bind (same.insertRunEvent_agree rfl)
  intro logged otherLogged agree
  exact agree.updateRun_agree run _ _

end SameRows

end Database

end EffectLatch
