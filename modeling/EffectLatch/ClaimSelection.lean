import EffectLatch.AncestryLiveness
import EffectLatch.EventHeads
import EffectLatch.SlotAccounting
import Mathlib.Algebra.Order.BigOperators.Group.List

/-!
# What follows a claim's selection

In a reachable state the checks a claim makes on the tenant and the run it
selected always pass, and a denial always goes through.  A claim that selected
a run thus leases it or fails it, by the liveness of its ancestry alone.
-/

namespace EffectLatch

/-- The arguments a claim is made with are within their limits. -/
def ClaimAccepted (worker : String) (allowedTenants : List Uuid)
    (availableSlots : Nat) (policy : ClaimPolicy) : Prop :=
  workerIdentifier worker = true ∧ allowedTenants ≠ [] ∧
    allowedTenants.length ≤ 1024 ∧
    (1 ≤ availableSlots ∧ availableSlots ≤ 2) ∧
    (1 ≤ policy.maxActiveGlobal ∧ policy.maxActiveGlobal ≤ 4) ∧
    policy.maxActivePerTenant = 1 ∧
    (1 ≤ policy.maxAttempts ∧ policy.maxAttempts ≤ 3) ∧
    (1 ≤ policy.leaseMs ∧ policy.leaseMs ≤ 6000)

namespace Database

/-- The invariants of every reachable state. -/
structure Sound (db : Database) : Prop where
  references : db.References
  forest : db.GrantForest
  slots : SlotsAccounted 4 db
  heads : db.EventHeads

variable {sha256 : Sha256} {db next : Database} {clock : Clock}
  {worker : String} {policy : ClaimPolicy} {allowedTenants : List Uuid}

theorem activeTotal_nonneg (db : Database) : 0 ≤ db.activeTotal := by
  apply List.sum_nonneg
  intro count member
  obtain ⟨tenant, stored, rfl⟩ := List.mem_map.mp member
  have checked := db.tenants.checked tenant stored
  simp only [TenantRow.schema, decide_eq_true_eq] at checked
  exact checked.2.2.2.2.1

/-- A claim with room left goes on with the run it selects. -/
theorem Sound.claimRun_eq (sound : db.Sound) {availableSlots : Nat}
    {tenant : TenantRow} {row : RunRow}
    (accepted : ClaimAccepted worker allowedTenants availableSlots policy)
    (globalRoom : db.activeTotal < policy.maxActiveGlobal)
    (workerRoom : db.ownedCount worker < 2)
    (candidate : db.claimCandidate allowedTenants policy =
      some (tenant, row)) :
    db.claimRun sha256 clock worker allowedTenants availableSlots policy =
      db.claimSelected sha256 clock worker policy tenant.id row.id := by
  have counted : 0 ≤ (db.tenants.rows.map TenantRow.activeCount).sum ∧
      (db.tenants.rows.map TenantRow.activeCount).sum ≤ 4 :=
    ⟨db.activeTotal_nonneg, sound.slots.total⟩
  have notFull : ¬ (policy.maxActiveGlobal : Int) ≤
      (db.tenants.rows.map TenantRow.activeCount).sum := not_le.mpr globalRoom
  have notBusy : ¬ 2 ≤ db.runs.rows.countP (fun row =>
      decide (row.activeSlotHeld = true ∧ row.leaseOwner = some worker)) :=
    not_le.mpr workerRoom
  rw [ClaimAccepted] at accepted
  simp only [claimRun, beginScheduler, Except.ok_bind_eq,
    Except.require_of accepted, Except.require_of sound.references.scheduler,
    Except.require_of counted, if_neg notFull, if_neg notBusy, candidate]

/-- The candidate passes every check of the claim. -/
theorem Sound.claimCandidate_free (sound : db.Sound) {tenant : TenantRow}
    {row : RunRow}
    (candidate : db.claimCandidate allowedTenants policy =
      some (tenant, row)) :
    db.findTenant tenant.id = some tenant ∧
      (0 ≤ tenant.activeCount ∧ tenant.activeCount < tenant.activeLimit ∧
        tenant.activeCount < policy.maxActivePerTenant) ∧
      db.findRun tenant.id row.id = some row ∧
      (row.state = .queued ∧ row.activeSlotHeld = false ∧
        row.leaseEpoch ≠ i64Max ∧ row.attempt < policy.maxAttempts) ∧
      db.findGrant tenant.id row.grantId ≠ none := by
  obtain ⟨tenantMember, _, free, member, owned, claimable⟩ :=
    claimCandidate_eq_some candidate
  simp only [RunRow.claimable, decide_eq_true_eq] at claimable
  obtain ⟨queued, _, attemptLeft⟩ := claimable
  have tenantChecked := db.tenants.checked tenant tenantMember
  simp only [TenantRow.schema, decide_eq_true_eq] at tenantChecked
  have runChecked := db.runs.checked row member
  simp only [RunRow.schema, decide_eq_true_eq] at runChecked
  have tenantFree : 0 ≤ tenant.activeCount ∧
      tenant.activeCount < tenant.activeLimit ∧
      tenant.activeCount < policy.maxActivePerTenant := by
    omega
  have released : row.activeSlotHeld = false := by
    have consistent := (sound.slots.runs row member).state
    simpa [queued] using consistent
  have epoch : row.leaseEpoch ≠ i64Max := by
    have counted := (sound.heads.heads row member).epoch
    simp only [i64Max]
    omega
  have grantKnown := (sound.references.runs row member).grant
  rw [owned] at grantKnown
  exact ⟨findTenant_eq_some_iff.mpr ⟨tenantMember, rfl⟩, tenantFree,
    findRun_eq_some_iff.mpr ⟨member, owned, rfl⟩,
    ⟨queued, released, epoch, attemptLeft⟩, grantKnown⟩

/-- The chain of a known grant is loaded, and its rows are there to read. -/
theorem Sound.exists_chain (sound : db.Sound) {tenant grant : Uuid}
    (known : db.findGrant tenant grant ≠ none) :
    ∃ chain, db.loadGrantChainLocked tenant grant = .ok chain ∧
      db.grantRows tenant (chain.map Grant.id) ≠ [] := by
  obtain ⟨path, lineage⟩ := sound.forest.exists_ancestry known
  refine ⟨_, sound.forest.loadGrantChainLocked_eq lineage, ?_⟩
  obtain ⟨row, found⟩ := Option.ne_none_iff_exists'.mp known
  obtain ⟨stored, tenantEq, idEq⟩ := findGrant_eq_some_iff.mp found
  apply List.ne_nil_of_mem
  rw [grantRows, List.mem_filter, decide_eq_true_eq, List.map_map]
  refine ⟨stored, tenantEq, ?_⟩
  exact (sound.forest.ids_chainRows lineage).symm ▸ idEq ▸ lineage.self_mem

/-- The checks on a selected run pass, and its ancestry decides. -/
theorem Sound.claimSelected_eq (sound : db.Sound) (sha256 : Sha256)
    (clock : Clock) (worker : String) {tenant : TenantRow} {row : RunRow}
    (candidate : db.claimCandidate allowedTenants policy =
      some (tenant, row)) :
    ∃ chain, db.loadGrantChainLocked tenant.id row.grantId = .ok chain ∧
      ((db.AncestryLive tenant.id row.grantId (clock 0) ∧
        db.claimSelected sha256 clock worker policy tenant.id row.id =
          db.issueLease sha256 clock worker policy tenant.id row.id
            (chain.map Grant.id)) ∨
      (¬ db.AncestryLive tenant.id row.grantId (clock 0) ∧
        db.claimSelected sha256 clock worker policy tenant.id row.id =
          db.denyGrant sha256 clock tenant.id row.id)) := by
  obtain ⟨tenantFound, tenantFree, runFound, runFree, grantKnown⟩ :=
    sound.claimCandidate_free candidate
  obtain ⟨chain, loaded, nonempty⟩ := sound.exists_chain grantKnown
  refine ⟨chain, loaded, ?_⟩
  have unfolded : db.claimSelected sha256 clock worker policy tenant.id
      row.id =
        if (db.grantRows tenant.id (chain.map Grant.id)).all (fun row =>
            decide (row.revokedAt = none ∧ clock 0 < row.expiresAt)) then
          db.issueLease sha256 clock worker policy tenant.id row.id
            (chain.map Grant.id)
        else db.denyGrant sha256 clock tenant.id row.id := by
    simp only [claimSelected, tenantFound, Except.fetch_some,
      Except.ok_bind_eq, Except.require_of tenantFree, runFound,
      Except.require_of runFree, loaded, Except.require_of nonempty]
  have decided : (db.grantRows tenant.id (chain.map Grant.id)).all (fun row =>
        decide (row.revokedAt = none ∧ clock 0 < row.expiresAt)) = true ↔
      db.AncestryLive tenant.id row.grantId (clock 0) := by
    rw [List.all_eq_true, ← sound.forest.chainLive_iff loaded]
    simp only [ChainLive, decide_eq_true_eq]
  by_cases live : db.AncestryLive tenant.id row.grantId (clock 0)
  · exact .inl ⟨live, by rw [unfolded, if_pos (decided.mpr live)]⟩
  · exact .inr ⟨live, by rw [unfolded, if_neg fun all => live (decided.mp all)]⟩

/-- A denial goes through and leaves the run failed. -/
theorem EventHeads.denyGrant_ok (heads : db.EventHeads) {tenant run : Uuid}
    {row : RunRow} (found : db.findRun tenant run = some row) :
    ∃ next, db.denyGrant sha256 clock tenant run = .ok (none, next) ∧
      ∃ new, next.findRun tenant run = some new ∧ new.state = .failed ∧
        new.errorCode = some "GRANT_DENIED" := by
  obtain ⟨runs, updated, failed⟩ := heads.exists_updateRun found
    (fun row => row.deniedAt (clock 1)) (fun _ => rfl)
    (fun row checked => checked) rfl
  obtain ⟨_, _, first, denied⟩ := failed.exists_appendEvent sha256
    "grant.denied" (utf8 "\x7b\"reason\":\"inactive\"\x7d") (by decide)
  obtain ⟨_, _, second, final⟩ := denied.exists_appendEvent sha256
    "run.failed"
    (utf8 "\x7b\"state\":\"failed\",\"error_code\":\"GRANT_DENIED\"\x7d")
    (by decide)
  refine ⟨_, ?_, _, final.found, rfl, rfl⟩
  rw [denyGrant]
  change (db.updateRun tenant run (fun row => row.deniedAt (clock 1))
    (fun _ => rfl) >>= _) = _
  rw [updated, Except.ok_bind_eq, first, Except.ok_bind_eq, second]
  rfl

end Database

theorem Reachable.sound {sha256 : Sha256}
    {allowed : Database → Call → Prop} {db : Database}
    (reached : Reachable sha256 allowed db) : db.Sound :=
  ⟨reached.references, reached.grantForest, reached.slotsAccounted_four,
    reached.eventHeads⟩

end EffectLatch
