import EffectLatch.AncestryLiveness
import EffectLatch.SlotAccounting

/-!
# Leases end with their authority

A claim bounds the lease by every grant of the locked chain, a renewal by the
run's own grant.  Both are bounded by the own grant, and expiry only shrinks on
the way down, so no lease outlives any grant of the ancestry.
-/

namespace EffectLatch

namespace Database

variable {sha256 : Sha256} {db next : Database} {clock : Clock}
  {command : Command} {response : Response}

theorem leaseExpiry_le_limit (limit : Timestamp) (rows : List GrantRow) :
    leaseExpiry limit rows ≤ limit := by
  unfold leaseExpiry
  induction rows generalizing limit with
  | nil => exact le_refl limit
  | cons row rows induction =>
      simp only [List.map_cons, List.foldl_cons]
      exact (induction _).trans (min_le_left _ _)

theorem leaseExpiry_le {limit : Timestamp} {rows : List GrantRow}
    {row : GrantRow} (member : row ∈ rows) :
    leaseExpiry limit rows ≤ row.expiresAt := by
  induction rows generalizing limit with
  | nil => simp at member
  | cons head rows induction =>
      rcases List.mem_cons.mp member with rfl | later
      · apply (leaseExpiry_le_limit (min limit row.expiresAt) rows).trans
        exact min_le_right _ _
      · exact induction later

/-- The lease of the run, if it has one, ends no later than its own grant. -/
def LeaseBounded (db : Database) (row : RunRow) : Prop :=
  ∀ expiry, row.leaseExpiresAt = some expiry →
    ∃ grant, db.findGrant row.tenantId row.grantId = some grant ∧
      expiry ≤ grant.expiresAt

/-- A rewrite that keeps the lease or clears it keeps the bound. -/
theorem LeaseBounded.rewrite {old new : RunRow} (bounded : db.LeaseBounded old)
    (sameTenant : new.tenantId = old.tenantId)
    (sameGrant : new.grantId = old.grantId)
    (lease : new.leaseExpiresAt = old.leaseExpiresAt ∨
      new.leaseExpiresAt = none) : db.LeaseBounded new := by
  intro expiry leased
  rw [sameTenant, sameGrant]
  rcases lease with same | cleared
  · exact bounded expiry (same ▸ leased)
  · simp [cleared] at leased

/-- The own grant is one of those a claim bounds the lease by. -/
theorem GrantForest.leasedBy_bounded (forest : db.GrantForest)
    {worker : String} {allowedTenants : List Uuid} {policy : ClaimPolicy}
    {tenant : TenantRow} {row : RunRow} {chain : List Grant}
    (selected : db.Selected worker allowedTenants policy tenant row chain)
    (limit : Timestamp) :
    ∃ grant, db.findGrant row.tenantId row.grantId = some grant ∧
      leaseExpiry limit (db.grantRows tenant.id (chain.map Grant.id)) ≤
        grant.expiresAt := by
  obtain ⟨path, lineage, rfl⟩ := forest.exists_of_load selected.loaded
  obtain ⟨grant, found⟩ :=
    forest.known_of_ancestry lineage row.grantId lineage.self_mem
  have ids : ((db.chainRows tenant.id path).map GrantRow.decoded).map
      Grant.id = path := by
    rw [List.map_map]
    exact forest.ids_chainRows lineage
  refine ⟨grant, selected.owned ▸ found, ?_⟩
  apply leaseExpiry_le
  obtain ⟨stored, sameTenant, sameId⟩ := findGrant_eq_some_iff.mp found
  rw [ids, grantRows, List.mem_filter]
  simp [stored, sameTenant, sameId, lineage.self_mem]

/-- Every call bounds the leases it writes, before its own changes to the
grants. -/
theorem Transition.leaseBounded
    (moved : Transition sha256 db clock command response next)
    (forest : db.GrantForest)
    (bounded : ∀ row ∈ db.runs.rows, db.LeaseBounded row) :
    ∀ row ∈ next.runs.rows, db.LeaseBounded row := by
  intro row member
  have replaced {old new : RunRow} {runs : Table RunRow.schema}
      (written : Table.Replaced db.runs runs old new)
      (now : db.LeaseBounded old → db.LeaseBounded new)
      (stored : row ∈ runs.rows) : db.LeaseBounded row := by
    rcases written.mem_iff.mp stored with rfl | ⟨before, _⟩
    · exact now (bounded old written.member)
    · exact bounded row before
  cases moved with
  | admitted _ _ _ _ _ _ _ inserted _ _ =>
      rcases inserted.mem_iff.mp member with stored | rfl
      · exact bounded row stored
      · intro expiry leased
        simp [RunRow.advance, admittedRow] at leased
  | leased selected _ _ _ ends _ recorded _ =>
      apply replaced recorded.replaced _ member
      intro _ expiry leased
      obtain rfl := Option.some.inj leased
      have own := forest.leasedBy_bounded selected
      rw [ends]
      exact own _
  | @renewed _ _ _ _ _ _ grant _ _ _ _ grantMember grantTenant grantId _ _
      ends written =>
      apply replaced written _ member
      intro _ expiry leased
      obtain rfl := Option.some.inj leased
      refine ⟨grant, findGrant_eq_some_iff.mpr
        ⟨grantMember, grantTenant, grantId⟩, ?_⟩
      rw [ends]
      exact min_le_right _ _
  | denied _ _ recorded =>
      exact replaced recorded.replaced
        (fun before => before.rewrite rfl rfl (.inl rfl)) member
  | started _ _ recorded =>
      exact replaced recorded.replaced
        (fun before => before.rewrite rfl rfl (.inl rfl)) member
  | promoted _ _ _ _ _ _ _ recorded =>
      exact replaced recorded.replaced
        (fun before => before.rewrite rfl rfl (.inl rfl)) member
  | expired _ _ _ _ _ _ _ _ _ recorded =>
      exact replaced recorded.replaced
        (fun before => before.rewrite rfl rfl (.inr rfl)) member
  | finished _ _ _ _ _ _ recorded =>
      exact replaced recorded.replaced
        (fun before => before.rewrite rfl rfl (.inr rfl)) member
  | cancelRequested _ written =>
      exact replaced written
        (fun before => before.rewrite rfl rfl (.inl rfl)) member
  | _ => exact bounded row member

/-- Grants keep their expiry, so a bound outlasts every call. -/
theorem Extends.leaseBounded {row : RunRow} (extended : db.Extends next)
    (bounded : db.LeaseBounded row) : next.LeaseBounded row := by
  intro expiry leased
  obtain ⟨grant, found, within⟩ := bounded expiry leased
  obtain ⟨new, newFound, evolved⟩ := extended.findGrant_eq_some found
  exact ⟨new, newFound, evolved.expiresAt ▸ within⟩

end Database

variable {sha256 : Sha256} {allowed : Database → Call → Prop} {db : Database}

theorem Reachable.leaseBounded (reached : Reachable sha256 allowed db) :
    ∀ row ∈ db.runs.rows, db.LeaseBounded row := by
  have together := reached.invariant
    (fun db => db.GrantForest ∧ ∀ row ∈ db.runs.rows, db.LeaseBounded row)
    ⟨Database.grantForest_migrated, by simp [Database.migrated, Table.empty]⟩
    fun _ _ _ _ holds _ moved => ⟨moved.grantForest holds.1, fun row member =>
      moved.extends.leaseBounded (moved.leaseBounded holds.1 holds.2 row member)⟩
  exact together.2

/-- In every reachable state the lease of a run that holds a slot ends no later
than any grant from the root down to the run's own. -/
theorem leases_within_ancestry (reached : Reachable sha256 allowed db) :
    ∀ row ∈ db.runs.rows, row.activeSlotHeld = true →
      ∃ expiry path, row.leaseExpiresAt = some expiry ∧
        db.Ancestry row.tenantId row.grantId path ∧
        ∀ ancestor ∈ path, ∃ grant,
          db.findGrant row.tenantId ancestor = some grant ∧
            expiry ≤ grant.expiresAt := by
  intro row member held
  have forest := reached.grantForest
  have consistent := reached.slotsAccounted_four.runs row member
  obtain ⟨expiry, leased⟩ :=
    Option.ne_none_iff_exists'.mp (consistent.expiry.mp held)
  obtain ⟨own, found, within⟩ := reached.leaseBounded row member expiry leased
  obtain ⟨path, lineage⟩ := forest.exists_ancestry
    (Option.ne_none_iff_exists'.mpr ⟨own, found⟩)
  refine ⟨expiry, path, leased, lineage, ?_⟩
  intro ancestor onPath
  obtain ⟨above, aboveFound, narrows⟩ :=
    forest.found_of_mem lineage found onPath
  exact ⟨above, aboveFound, within.trans narrows.expiresAt⟩

theorem leases_within_ancestry_lease :
    ∃ row ∈ (Sample.after Sample.lease).runs.rows,
      row.activeSlotHeld = true ∧ ∃ expiry path,
        row.leaseExpiresAt = some expiry ∧
        (Sample.after Sample.lease).Ancestry row.tenantId row.grantId path ∧
        ∀ ancestor ∈ path, ∃ grant,
          (Sample.after Sample.lease).findGrant row.tenantId ancestor =
              some grant ∧
            expiry ≤ grant.expiresAt := by
  have reached : Reachable Sample.sha256 (fun _ _ => True)
      (Sample.after Sample.lease) :=
    Sample.reachable_after fun _ _ _ => trivial
  have leased : ∃ row ∈ (Sample.after Sample.lease).runs.rows,
      row.activeSlotHeld = true := by decide +kernel
  obtain ⟨row, member, held⟩ := leased
  exact ⟨row, member, held, leases_within_ancestry reached row member held⟩

end EffectLatch
