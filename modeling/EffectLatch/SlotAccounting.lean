import EffectLatch.StoreReferences

/-!
# Slot accounting

A held slot shows five times: in the flag, the state, the owner and the expiry
of the run, and in the counter of its tenant.  Every exit path clears them
together, so the five agree in every reachable state.
-/

namespace EffectLatch

/-- Flag, state, owner and expiry of a run agree on whether it holds a slot. -/
structure RunRow.SlotConsistent (row : RunRow) : Prop where
  state : row.activeSlotHeld = true ↔ row.state = .leased ∨ row.state = .running
  owner : row.activeSlotHeld = true ↔ row.leaseOwner ≠ none
  expiry : row.activeSlotHeld = true ↔ row.leaseExpiresAt ≠ none

namespace RunRow

/-- A run without a slot is consistent when nothing else says otherwise. -/
theorem SlotConsistent.of_released {row : RunRow}
    (free : row.activeSlotHeld = false)
    (idle : ¬ (row.state = .leased ∨ row.state = .running))
    (noOwner : row.leaseOwner = none) (noExpiry : row.leaseExpiresAt = none) :
    row.SlotConsistent := by
  constructor
  · simp [free, idle]
  · simp [free, noOwner]
  · simp [free, noExpiry]

theorem SlotConsistent.released {row : RunRow} (consistent : row.SlotConsistent)
    (free : row.activeSlotHeld = false) :
    row.leaseOwner = none ∧ row.leaseExpiresAt = none := by
  have owner := consistent.owner
  have expiry := consistent.expiry
  simp only [free, Bool.false_eq_true, false_iff, not_not] at owner expiry
  exact ⟨owner, expiry⟩

theorem SlotConsistent.of_held {row : RunRow}
    (held : row.activeSlotHeld = true)
    (active : row.state = .leased ∨ row.state = .running)
    (owner : row.leaseOwner ≠ none) (expiry : row.leaseExpiresAt ≠ none) :
    row.SlotConsistent :=
  ⟨by simp [held, active], by simp [held, owner], by simp [held, expiry]⟩

end RunRow

namespace Database

variable {sha256 : Sha256} {db next : Database} {clock : Clock}
  {command : Command} {response : Response}

theorem RunAdmission.slotConsistent {row : RunRow}
    (admission : RunAdmission sha256 db clock command row)
    (entries : List (String × List UInt8)) :
    (row.advance sha256 entries).SlotConsistent := by
  cases admission with
  | admitted _ _ _ _ _ =>
      exact .of_released rfl
        (by simp [RunRow.advance, admittedRow]) rfl rfl

theorem RunStep.slotConsistent {old new : RunRow}
    {entries : List (String × List UInt8)}
    (step : db.RunStep clock command old new entries)
    (consistent : old.SlotConsistent) :
    (new.advance sha256 entries).SlotConsistent := by
  cases step with
  | leased _ _ _ =>
      exact .of_held rfl (.inl rfl)
        (by simp [RunRow.advance, RunRow.leasedBy])
        (by simp [RunRow.advance, RunRow.leasedBy])
  | denied selected _ =>
      obtain ⟨noOwner, noExpiry⟩ := consistent.released selected.free
      exact .of_released selected.free
        (by simp [RunRow.advance, RunRow.deniedAt]) noOwner noExpiry
  | renewed lease active =>
      exact .of_held lease.held active
        (by simp [RunRow.advance, RunRow.renewedUntil, lease.owner])
        (by simp [RunRow.advance, RunRow.renewedUntil])
  | started lease _ =>
      exact .of_held lease.held (.inr rfl)
        (consistent.owner.mp lease.held) (consistent.expiry.mp lease.held)
  | promoted _ free =>
      obtain ⟨noOwner, noExpiry⟩ := consistent.released free
      exact .of_released free (idle_of_mem_reap (db.promotionVerdict_mem_reap _ _))
        noOwner noExpiry
  | expired _ _ _ =>
      exact .of_released rfl (idle_of_mem_reap (db.expiryVerdict_mem_reap _ _ _))
        rfl rfl
  | @finished _ _ _ _ _ errorCode _ _ _ _ =>
      refine .of_released rfl ?_ rfl rfl
      rcases old.finalVerdict_cases errorCode with same | same | same <;>
      · simp [RunRow.advance, RunRow.finishedAs, same]
  | cancelRequested =>
      exact ⟨consistent.state, consistent.owner, consistent.expiry⟩

/-- The number of runs of the tenant that hold a slot. -/
def heldCount (db : Database) (tenant : Uuid) : Nat :=
  db.runs.rows.countP fun row =>
    decide (row.tenantId = tenant ∧ row.activeSlotHeld = true)

/-- The number of slots the worker owns. -/
def ownedCount (db : Database) (worker : String) : Nat :=
  db.runs.rows.countP fun row =>
    decide (row.activeSlotHeld = true ∧ row.leaseOwner = some worker)

/-- The number of slots taken over all tenants. -/
def activeTotal (db : Database) : Int :=
  (db.tenants.rows.map TenantRow.activeCount).sum

/-- Slots are counted right and stay within their limits. -/
structure SlotsAccounted (limit : Int) (db : Database) : Prop where
  runs : ∀ row ∈ db.runs.rows, row.SlotConsistent
  tenants : ∀ row ∈ db.tenants.rows, row.activeCount = db.heldCount row.id
  single : ∀ row ∈ db.tenants.rows, row.activeCount ≤ 1
  total : db.activeTotal ≤ limit
  workers : ∀ worker, db.ownedCount worker ≤ 2

theorem slotsAccounted_migrated {limit : Int} (positive : 0 ≤ limit) :
    SlotsAccounted limit migrated := by
  constructor
  · simp [migrated, Table.empty]
  · simp [migrated, Table.empty]
  · simp [migrated, Table.empty]
  · simpa [activeTotal, migrated, Table.empty] using positive
  · simp [ownedCount, migrated, Table.empty]

/-- How a call moves the slots. -/
inductive SlotMove (db next : Database) (command : Command) : Prop
  | kept (tenants : next.tenants = db.tenants)
      (held : ∀ tenant, next.heldCount tenant = db.heldCount tenant)
      (owned : ∀ worker, next.ownedCount worker = db.ownedCount worker)
  | provisioned {row : TenantRow} (runs : next.runs = db.runs)
      (inserted : Table.Inserted db.tenants next.tenants row)
      (free : row.activeCount = 0)
  | taken {worker : String} {allowedTenants : List Uuid}
      {availableSlots : Nat} {policy : ClaimPolicy} {tenant : TenantRow}
      {row new : RunRow} {chain : List Grant} {seq : Int}
      (asked : command =
        .claimRun worker allowedTenants availableSlots policy)
      (selected : db.Selected worker allowedTenants policy tenant row chain)
      (served : Table.Replaced db.tenants next.tenants tenant
        (tenant.servedAt seq))
      (replaced : Table.Replaced db.runs next.runs row new)
      (sameTenant : new.tenantId = row.tenantId)
      (held : new.activeSlotHeld = true)
      (owner : new.leaseOwner = some worker)
  | released {tenant : TenantRow} {row new : RunRow}
      (found : db.findTenant row.tenantId = some tenant)
      (slot : Table.Replaced db.tenants next.tenants tenant
        tenant.slotReleased)
      (replaced : Table.Replaced db.runs next.runs row new)
      (sameTenant : new.tenantId = row.tenantId)
      (held : row.activeSlotHeld = true)
      (free : new.activeSlotHeld = false)

theorem heldCount_eq_of_replaced {old new : RunRow}
    (replaced : Table.Replaced db.runs next.runs old new)
    (sameTenant : new.tenantId = old.tenantId)
    (sameSlot : new.activeSlotHeld = old.activeSlotHeld) (tenant : Uuid) :
    next.heldCount tenant = db.heldCount tenant :=
  replaced.countP_eq _ (by simp [sameTenant, sameSlot])

theorem ownedCount_eq_of_replaced {old new : RunRow}
    (replaced : Table.Replaced db.runs next.runs old new)
    (sameSlot : new.activeSlotHeld = old.activeSlotHeld)
    (sameOwner : new.leaseOwner = old.leaseOwner) (worker : String) :
    next.ownedCount worker = db.ownedCount worker :=
  replaced.countP_eq _ (by simp [sameSlot, sameOwner])

/-- A rewrite that leaves tenant, flag and owner alone moves no slot. -/
theorem SlotMove.of_replaced {old new : RunRow}
    (tenants : next.tenants = db.tenants)
    (replaced : Table.Replaced db.runs next.runs old new)
    (sameTenant : new.tenantId = old.tenantId)
    (sameSlot : new.activeSlotHeld = old.activeSlotHeld)
    (sameOwner : new.leaseOwner = old.leaseOwner) :
    SlotMove db next command :=
  .kept tenants (heldCount_eq_of_replaced replaced sameTenant sameSlot)
    (ownedCount_eq_of_replaced replaced sameSlot sameOwner)

theorem SlotMove.of_same (tenants : next.tenants = db.tenants)
    (runs : next.runs = db.runs) : SlotMove db next command :=
  .kept tenants (fun tenant => by rw [heldCount, runs, heldCount])
    fun worker => by rw [ownedCount, runs, ownedCount]

theorem Transition.slotMove
    (moved : Transition sha256 db clock command response next) :
    SlotMove db next command := by
  cases moved with
  | admitted _ _ _ _ _ _ _ inserted _ _ =>
      refine .kept rfl ?_ ?_
      · intro tenant
        simp [heldCount, inserted.rows, RunRow.advance, admittedRow]
      · intro worker
        simp [ownedCount, inserted.rows, RunRow.advance, admittedRow]
  | leased selected _ _ _ _ served recorded _ =>
      exact .taken rfl selected served recorded.replaced rfl rfl rfl
  | denied _ _ recorded => exact .of_replaced rfl recorded.replaced rfl rfl rfl
  | renewed _ _ _ _ _ _ _ _ replaced =>
      exact .of_replaced rfl replaced rfl rfl rfl
  | started _ _ recorded => exact .of_replaced rfl recorded.replaced rfl rfl rfl
  | promoted _ _ _ _ _ _ _ recorded =>
      exact .of_replaced rfl recorded.replaced rfl rfl rfl
  | expired _ _ _ tenantFound _ held _ _ slot recorded =>
      exact .released tenantFound slot recorded.replaced rfl held rfl
  | finished lease _ tenantFound _ _ slot recorded =>
      exact .released tenantFound slot recorded.replaced rfl lease.held rfl
  | tenantProvisioned inserted => exact .provisioned rfl inserted rfl
  | cancelRequested _ replaced => exact .of_replaced rfl replaced rfl rfl rfl
  | _ => exact .of_same rfl rfl

section Moving

variable {limit : Int} (accounted : SlotsAccounted limit db)

include accounted

/-- Tenant counters after the flag of one run of one tenant was flipped and the
counter moved with it. -/
theorem SlotsAccounted.tenants_move {tenant newTenant : TenantRow}
    {row new : RunRow}
    (counter : Table.Replaced db.tenants next.tenants tenant newTenant)
    (replaced : Table.Replaced db.runs next.runs row new)
    (owned : row.tenantId = tenant.id)
    (sameTenant : new.tenantId = row.tenantId)
    (balance : newTenant.activeCount +
        (if row.activeSlotHeld = true then 1 else 0) =
      tenant.activeCount + if new.activeSlotHeld = true then 1 else 0) :
    ∀ other ∈ next.tenants.rows,
      other.activeCount = next.heldCount other.id := by
  intro other member
  have moved := replaced.countP_add fun row =>
    decide (row.tenantId = other.id ∧ row.activeSlotHeld = true)
  simp only [sameTenant, owned, decide_eq_true_eq] at moved
  change next.heldCount other.id + _ = db.heldCount other.id + _ at moved
  rcases counter.mem_iff.mp member with same | ⟨stored, different⟩
  · have sameId : other.id = tenant.id := by
      rw [same]
      exact counter.sameKey
    have before := accounted.tenants tenant counter.member
    rw [same] at sameId ⊢
    rw [same] at moved
    simp only [sameId, true_and] at moved ⊢
    rw [before] at balance
    split_ifs at moved balance <;> omega
  · have apart : tenant.id ≠ other.id := fun equal =>
      different (tenant_eq_of_id stored counter.member equal.symm)
    simp only [apart, false_and, if_false, Nat.add_zero] at moved
    rw [moved]
    exact accounted.tenants other stored

theorem SlotsAccounted.take {worker : String} {allowedTenants : List Uuid}
    {policy : ClaimPolicy} {tenant : TenantRow} {row new : RunRow}
    {chain : List Grant} {seq : Int}
    (consistent : ∀ row ∈ next.runs.rows, row.SlotConsistent)
    (within : (policy.maxActiveGlobal : Int) ≤ limit)
    (selected : db.Selected worker allowedTenants policy tenant row chain)
    (served : Table.Replaced db.tenants next.tenants tenant
      (tenant.servedAt seq))
    (replaced : Table.Replaced db.runs next.runs row new)
    (sameTenant : new.tenantId = row.tenantId)
    (held : new.activeSlotHeld = true)
    (owner : new.leaseOwner = some worker) : SlotsAccounted limit next where
  runs := consistent
  tenants := accounted.tenants_move served replaced selected.owned sameTenant
    (by simp [selected.free, held, TenantRow.servedAt])
  single other member := by
    rcases served.mem_iff.mp member with rfl | ⟨stored, _⟩
    · have free := selected.tenantFree
      simp only [TenantRow.servedAt]
      omega
    · exact accounted.single other stored
  total := by
    have moved := served.sum_add TenantRow.activeCount
    have room := selected.globalRoom
    simp only [TenantRow.servedAt] at moved
    change next.activeTotal + _ = db.activeTotal + _ at moved
    change db.activeTotal < _ at room
    omega
  workers other := by
    have moved := replaced.countP_add fun row =>
      decide (row.activeSlotHeld = true ∧ row.leaseOwner = some other)
    change next.ownedCount other + _ = db.ownedCount other + _ at moved
    simp only [selected.free, held, owner, Bool.false_eq_true, false_and,
      decide_false, if_false, true_and, Option.some.injEq, Nat.add_zero,
      decide_eq_true_eq] at moved
    have before := accounted.workers other
    by_cases same : worker = other
    · subst same
      have room : db.ownedCount worker < 2 := selected.workerRoom
      rw [if_pos rfl] at moved
      omega
    · rw [if_neg same] at moved
      omega

theorem SlotsAccounted.release {tenant : TenantRow} {row new : RunRow}
    (consistent : ∀ row ∈ next.runs.rows, row.SlotConsistent)
    (found : db.findTenant row.tenantId = some tenant)
    (slot : Table.Replaced db.tenants next.tenants tenant tenant.slotReleased)
    (replaced : Table.Replaced db.runs next.runs row new)
    (sameTenant : new.tenantId = row.tenantId)
    (held : row.activeSlotHeld = true)
    (free : new.activeSlotHeld = false) : SlotsAccounted limit next where
  runs := consistent
  tenants := accounted.tenants_move slot replaced
    (findTenant_eq_some_iff.mp found).2.symm sameTenant
    (by simp [held, free, TenantRow.slotReleased])
  single other member := by
    rcases slot.mem_iff.mp member with rfl | ⟨stored, _⟩
    · have before := accounted.single tenant slot.member
      simp only [TenantRow.slotReleased]
      omega
    · exact accounted.single other stored
  total := by
    have moved := slot.sum_add TenantRow.activeCount
    have before := accounted.total
    simp only [TenantRow.slotReleased] at moved
    change next.activeTotal + _ = db.activeTotal + _ at moved
    omega
  workers other := by
    have moved := replaced.countP_add fun row =>
      decide (row.activeSlotHeld = true ∧ row.leaseOwner = some other)
    change next.ownedCount other + _ = db.ownedCount other + _ at moved
    have before := accounted.workers other
    simp only [free, Bool.false_eq_true, false_and, decide_false, if_false,
      Nat.add_zero] at moved
    omega

/-- A tenant that was not there before has no run yet. -/
theorem SlotsAccounted.provision {row : TenantRow} (refers : db.References)
    (runs : next.runs = db.runs)
    (inserted : Table.Inserted db.tenants next.tenants row)
    (free : row.activeCount = 0) : SlotsAccounted limit next where
  runs := runs ▸ accounted.runs
  tenants other member := by
    rw [heldCount, runs]
    rcases inserted.mem_iff.mp member with stored | rfl
    · exact accounted.tenants other stored
    · rw [free, eq_comm, Int.natCast_eq_zero, List.countP_eq_zero]
      intro run runStored owned
      simp only [decide_eq_true_eq] at owned
      obtain ⟨tenant, found⟩ := Option.ne_none_iff_exists'.mp
        (refers.runs run runStored).tenant
      obtain ⟨stored, idEq⟩ := findTenant_eq_some_iff.mp found
      have apart := inserted.fresh tenant stored
      simp [TenantRow.schema, idEq, owned.1] at apart
  single other member := by
    rcases inserted.mem_iff.mp member with stored | rfl
    · exact accounted.single other stored
    · omega
  total := by
    have before := accounted.total
    rw [activeTotal] at before ⊢
    rw [inserted.rows]
    simpa [free] using before
  workers worker := by
    rw [ownedCount, runs]
    exact accounted.workers worker

end Moving

/-- Every call keeps the slots accounted for, when a claim allows at most
`limit` slots in all. -/
theorem Transition.slotsAccounted {limit : Int}
    (moved : Transition sha256 db clock command response next)
    (within : ∀ worker allowedTenants availableSlots policy,
      command = .claimRun worker allowedTenants availableSlots policy →
      policy.Valid → (policy.maxActiveGlobal : Int) ≤ limit)
    (refers : db.References) (accounted : SlotsAccounted limit db) :
    SlotsAccounted limit next := by
  have consistent : ∀ row ∈ next.runs.rows, row.SlotConsistent :=
    moved.runs_keep (fun _ admission => admission.slotConsistent _)
      (fun _ _ _ step before => step.slotConsistent before) accounted.runs
  cases moved.slotMove with
  | kept tenants held owned =>
      constructor
      · exact consistent
      · intro row member
        rw [held]
        exact accounted.tenants row (tenants ▸ member)
      · exact tenants ▸ accounted.single
      · rw [activeTotal, tenants]
        exact accounted.total
      · intro worker
        rw [owned]
        exact accounted.workers worker
  | provisioned runs inserted free =>
      exact accounted.provision refers runs inserted free
  | taken asked selected served replaced sameTenant held owner =>
      exact accounted.take consistent (within _ _ _ _ asked selected.valid)
        selected served replaced sameTenant held owner
  | released found slot replaced sameTenant held free =>
      exact accounted.release consistent found slot replaced sameTenant held
        free

end Database

variable {sha256 : Sha256} {allowed : Database → Call → Prop} {db : Database}

theorem Reachable.slotsAccounted {limit : Int} (positive : 0 ≤ limit)
    (within : ∀ db call worker allowedTenants availableSlots policy,
      allowed db call →
      call.command = .claimRun worker allowedTenants availableSlots policy →
      policy.Valid → (policy.maxActiveGlobal : Int) ≤ limit)
    (reached : Reachable sha256 allowed db) :
    Database.SlotsAccounted limit db := by
  have together := reached.invariant
    (fun db => db.References ∧ Database.SlotsAccounted limit db)
    ⟨Database.references_migrated, Database.slotsAccounted_migrated positive⟩
    fun db _ call _ holds permitted moved =>
      ⟨moved.references holds.1, moved.slotsAccounted
        (fun worker allowedTenants availableSlots policy asked valid =>
          within db call worker allowedTenants availableSlots policy permitted
            asked valid) holds.1 holds.2⟩
  exact together.2

/-- Whatever policies the claims use, no more than four slots are taken. -/
theorem Reachable.slotsAccounted_four (reached : Reachable sha256 allowed db) :
    Database.SlotsAccounted 4 db :=
  reached.slotsAccounted (by decide) fun _ _ _ _ _ _ _ _ valid =>
    Int.ofNat_le.mpr valid.global.2

/-- Under a fixed policy flag, state, owner and expiry of every run agree, the
counter of every tenant is the number of its held slots and at most one, the
slots over all tenants stay within the global limit, and no worker owns more
than two. -/
theorem slots_accounted {claim : ClaimPolicy} {reap : ReapPolicy}
    (reached : Reachable sha256
      (fun _ call => call.usesPolicy claim reap = true) db) :
    (∀ row ∈ db.runs.rows,
      (row.activeSlotHeld = true ↔
        row.state = .leased ∨ row.state = .running) ∧
      (row.activeSlotHeld = true ↔ row.leaseOwner ≠ none) ∧
      (row.activeSlotHeld = true ↔ row.leaseExpiresAt ≠ none)) ∧
    (∀ row ∈ db.tenants.rows, row.activeCount = db.heldCount row.id ∧
      row.activeCount ≤ 1) ∧
    db.activeTotal ≤ claim.maxActiveGlobal ∧
    ∀ worker, db.ownedCount worker ≤ 2 := by
  have accounted := reached.slotsAccounted
    (Int.natCast_nonneg claim.maxActiveGlobal)
    (fun _ _ _ _ _ _ permitted asked _ => by
      simp only [Call.usesPolicy, asked, decide_eq_true_eq] at permitted
      rw [permitted])
  refine ⟨?_, ?_, accounted.total, accounted.workers⟩
  · intro row member
    have consistent := accounted.runs row member
    exact ⟨consistent.state, consistent.owner, consistent.expiry⟩
  · intro row member
    exact ⟨accounted.tenants row member, accounted.single row member⟩

theorem slots_accounted_lease :
    (Sample.after Sample.lease).heldCount 1 = 1 ∧
      (Sample.after Sample.lease).activeTotal ≤ 4 := by
  have reached : Reachable Sample.sha256
      (fun _ call =>
        call.usesPolicy Sample.claimPolicy Sample.reapPolicy = true)
      (Sample.after Sample.lease) :=
    Sample.reachable_after fun _ => by decide
  exact ⟨by decide +kernel, (slots_accounted reached).2.2.1⟩

end EffectLatch
