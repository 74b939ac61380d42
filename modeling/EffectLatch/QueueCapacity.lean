import EffectLatch.SlotAccounting
import Mathlib.Algebra.BigOperators.Ring.Finset

/-!
# Queue capacity

Admission counts queued runs and deferred retries, a sweep counts queued runs
alone.  Both leave room before they add to the queue, and only admission adds
work: a deferred retry held a slot before, so it is within the slots that were
already counted.
-/

namespace EffectLatch

/-- The limits that admission, claims and sweeps share. -/
structure QueueLimits where
  maxPendingGlobal : Nat
  maxPendingTenant : Nat
  maxActiveGlobal : Nat

/-- Admissions, claims and sweeps of the system use the configured limits. -/
def Call.usesLimits (limits : QueueLimits) (call : Call) : Bool :=
  match call.command with
  | .admitRun _ _ _ _ maxPendingGlobal maxPendingTenant =>
      decide (maxPendingGlobal = limits.maxPendingGlobal ∧
        maxPendingTenant = limits.maxPendingTenant)
  | .claimRun _ _ _ policy =>
      decide (policy.maxActiveGlobal = limits.maxActiveGlobal)
  | .reapOne policy =>
      decide (policy.maxPendingGlobal = limits.maxPendingGlobal ∧
        policy.maxPendingTenant = limits.maxPendingTenant)
  | _ => true

/-- The queue room of one tenant. -/
def TenantRow.queueCap (row : TenantRow) (limits : QueueLimits) : Int :=
  min row.queueLimit limits.maxPendingTenant

/-- The run waits for a slot or holds one. -/
def RunState.outstanding (state : RunState) : Bool :=
  match state with
  | .queued | .retryWait | .leased | .running => true
  | _ => false

/-- Selects the runs of one tenant. -/
def RunRow.ofTenant (tenant : Uuid) (row : RunRow) : Bool :=
  decide (row.tenantId = tenant)

namespace Database

/-- The number of counted runs that wait for a slot or hold one. -/
def outstandingCount (db : Database) (counted : RunRow → Bool) : Nat :=
  db.runs.rows.countP fun row => counted row && row.state.outstanding

/-- The queue and the work behind it stay within the configured limits. -/
structure QueueBounded (limits : QueueLimits) (db : Database) : Prop where
  queued : db.queuedCount (fun _ => true) ≤ limits.maxPendingGlobal
  tenantQueued : ∀ tenant ∈ db.tenants.rows,
    (db.queuedCount (RunRow.ofTenant tenant.id) : Int) ≤ tenant.queueCap limits
  outstanding : db.outstandingCount (fun _ => true) ≤
    limits.maxPendingGlobal + limits.maxActiveGlobal
  tenantOutstanding : ∀ tenant ∈ db.tenants.rows,
    (db.outstandingCount (RunRow.ofTenant tenant.id) : Int) ≤
      tenant.queueCap limits + 1

variable {sha256 : Sha256} {db next : Database} {clock : Clock}
  {command : Command} {response : Response} {limits : QueueLimits}

section Counting

variable {old new : RunRow}
  (replaced : Table.Replaced db.runs next.runs old new)
  (sameTenant : new.tenantId = old.tenantId)

include replaced sameTenant

/-- A rewrite that does not bring a run into a class of states does not raise
the number of runs in that class. -/
theorem countP_state_le (holds : RunState → Bool)
    (weaker : holds new.state = true → holds old.state = true)
    (counted : Uuid → Bool) :
    next.runs.rows.countP (fun row => counted row.tenantId && holds row.state) ≤
      db.runs.rows.countP fun row =>
        counted row.tenantId && holds row.state := by
  have moved := replaced.countP_add fun row =>
    counted row.tenantId && holds row.state
  simp only [sameTenant, Bool.and_eq_true] at moved
  split_ifs at moved with oldCounted newCounted newCounted
  · omega
  · omega
  · exact absurd ⟨newCounted.1, weaker newCounted.2⟩ oldCounted
  · omega

theorem countP_state_le_succ (holds : RunState → Bool)
    (counted : Uuid → Bool) :
    next.runs.rows.countP (fun row => counted row.tenantId && holds row.state) ≤
      db.runs.rows.countP (fun row =>
        counted row.tenantId && holds row.state) +
        if counted old.tenantId then 1 else 0 := by
  have moved := replaced.countP_add fun row =>
    counted row.tenantId && holds row.state
  simp only [sameTenant, Bool.and_eq_true] at moved
  by_cases chosen : counted old.tenantId = true
  · simp only [chosen, true_and, if_true] at moved ⊢
    split_ifs at moved <;> omega
  · simp only [chosen, false_and, if_false, Bool.false_eq_true] at moved ⊢
    omega

end Counting

/-- How a call moves the queue. -/
inductive QueueMove (limits : QueueLimits) (db next : Database) : Prop
  | settled
      (queued : ∀ counted : Uuid → Bool,
        next.queuedCount (fun row => counted row.tenantId) ≤
          db.queuedCount fun row => counted row.tenantId)
      (outstanding : ∀ counted : Uuid → Bool,
        next.outstandingCount (fun row => counted row.tenantId) ≤
          db.outstandingCount fun row => counted row.tenantId)
  | requeued {tenant : TenantRow} (member : tenant ∈ db.tenants.rows)
      (globalRoom : db.queuedCount (fun _ => true) < limits.maxPendingGlobal)
      (tenantRoom : (db.queuedCount (RunRow.ofTenant tenant.id) : Int) <
        tenant.queueCap limits)
      (queued : ∀ counted : Uuid → Bool,
        next.queuedCount (fun row => counted row.tenantId) ≤
          db.queuedCount (fun row => counted row.tenantId) +
            if counted tenant.id then 1 else 0)
      (outstanding : ∀ counted : Uuid → Bool,
        next.outstandingCount (fun row => counted row.tenantId) ≤
          db.outstandingCount fun row => counted row.tenantId)
  | admitted {tenant : TenantRow} (member : tenant ∈ db.tenants.rows)
      (globalRoom : db.pendingCount (fun _ => true) < limits.maxPendingGlobal)
      (tenantRoom : (db.pendingCount (RunRow.ofTenant tenant.id) : Int) <
        tenant.queueCap limits)
      (queued : ∀ counted : Uuid → Bool,
        next.queuedCount (fun row => counted row.tenantId) ≤
          db.queuedCount (fun row => counted row.tenantId) +
            if counted tenant.id then 1 else 0)
      (outstanding : ∀ counted : Uuid → Bool,
        next.outstandingCount (fun row => counted row.tenantId) ≤
          db.outstandingCount (fun row => counted row.tenantId) +
            if counted tenant.id then 1 else 0)

theorem QueueMove.of_same (runs : next.runs = db.runs) :
    QueueMove limits db next :=
  .settled (fun _ => by rw [queuedCount, runs, queuedCount])
    fun _ => by rw [outstandingCount, runs, outstandingCount]

/-- A rewrite that brings no run into the queue and no new work. -/
theorem QueueMove.of_replaced {old new : RunRow}
    (replaced : Table.Replaced db.runs next.runs old new)
    (sameTenant : new.tenantId = old.tenantId)
    (notQueued : new.state = .queued → old.state = .queued)
    (noWork : new.state.outstanding = true → old.state.outstanding = true) :
    QueueMove limits db next := by
  apply QueueMove.settled
  · apply countP_state_le replaced sameTenant (· == .queued)
    simpa using notQueued
  · exact countP_state_le replaced sameTenant RunState.outstanding noWork

/-- A run that goes back to the queue under the room checks of a sweep. -/
theorem QueueMove.of_requeued {old new : RunRow} {tenant : TenantRow}
    (replaced : Table.Replaced db.runs next.runs old new)
    (sameTenant : new.tenantId = old.tenantId)
    (noWork : old.state.outstanding = true)
    (found : db.findTenant old.tenantId = some tenant)
    (globalRoom : db.queuedCount (fun _ => true) < limits.maxPendingGlobal)
    (tenantRoom : (db.queuedCount (RunRow.ofTenant old.tenantId) : Int) <
      tenant.queueCap limits) : QueueMove limits db next := by
  have owner := findTenant_eq_some_iff.mp found
  rw [← owner.2] at tenantRoom
  apply QueueMove.requeued owner.1 globalRoom tenantRoom
  · rw [owner.2]
    exact countP_state_le_succ replaced sameTenant (· == .queued)
  · exact countP_state_le replaced sameTenant RunState.outstanding
      fun _ => noWork

/-- The tenant of a deferred retry that is promoted has queue room. -/
theorem waitingCandidate_room {policy : ReapPolicy} {row : RunRow}
    {tenant : TenantRow} (candidate : db.waitingCandidate policy = some row)
    (found : db.findTenant row.tenantId = some tenant) :
    (db.queuedCount (RunRow.ofTenant row.tenantId) : Int) <
      min tenant.queueLimit policy.maxPendingTenant := by
  have chosen := List.first_mem candidate
  simp only [List.mem_filter, Bool.and_eq_true, List.any_eq_true,
    decide_eq_true_eq] at chosen
  obtain ⟨_, _, other, stored, sameId, room⟩ := chosen
  obtain ⟨member, idEq⟩ := findTenant_eq_some_iff.mp found
  rw [← tenant_eq_of_id stored member (sameId.trans idEq.symm)]
  exact room

/-- Only the verdict to requeue brings a run back, and it found room. -/
theorem expiryVerdict_queued {policy : ReapPolicy} {queueLimit : Int}
    {row : RunRow}
    (queued : (db.expiryVerdict policy queueLimit row).1 = .queued) :
    db.queuedCount (fun _ => true) < policy.maxPendingGlobal ∧
      (db.queuedCount (RunRow.ofTenant row.tenantId) : Int) <
        min queueLimit policy.maxPendingTenant := by
  unfold expiryVerdict at queued
  split_ifs at queued with unsure cancelled spent full
  · simp [reconcileVerdict] at queued
  · simp [cancelVerdict] at queued
  · simp [failVerdict] at queued
  · simp [waitVerdict] at queued
  · have room := not_or.mp full
    exact ⟨not_le.mp room.1, not_le.mp room.2⟩

theorem Transition.queueMove
    (moved : Transition sha256 db clock command response next)
    (uses : (⟨command, clock⟩ : Call).usesLimits limits = true) :
    QueueMove limits db next := by
  cases moved with
  | @admitted _ _ _ _ _ _ tenant _ _ _ found _ _ _ _ globalRoom tenantRoom
      inserted _ _ =>
      simp only [Call.usesLimits, decide_eq_true_eq] at uses
      have owner := findTenant_eq_some_iff.mp found
      have checked := db.tenants.checked tenant owner.1
      simp only [TenantRow.schema, decide_eq_true_eq] at checked
      apply QueueMove.admitted owner.1
      · rw [← uses.1]
        exact globalRoom
      · rw [owner.2, TenantRow.queueCap, ← uses.2]
        change db.pendingCount (RunRow.ofTenant _) < _ at tenantRoom
        rw [Int.emod_eq_of_lt (by omega) (by omega)] at tenantRoom
        omega
      · intro counted
        simp only [queuedCount, inserted.rows, List.countP_append,
          List.countP_singleton, RunRow.advance, admittedRow, owner.2]
        simp
      · intro counted
        simp only [outstandingCount, inserted.rows, List.countP_append,
          List.countP_singleton, RunRow.advance, admittedRow, owner.2]
        simp [RunState.outstanding]
  | leased selected _ _ _ _ _ recorded _ =>
      apply QueueMove.of_replaced recorded.replaced (by rfl)
      · simp [RunRow.advance, RunRow.leasedBy]
      · simp [selected.queued, RunState.outstanding]
  | denied _ _ recorded =>
      apply QueueMove.of_replaced recorded.replaced (by rfl)
      · simp [RunRow.advance, RunRow.deniedAt]
      · simp [RunRow.advance, RunRow.deniedAt, RunState.outstanding]
  | renewed _ _ _ _ _ _ _ _ replaced =>
      exact QueueMove.of_replaced replaced rfl id id
  | started _ waiting recorded =>
      apply QueueMove.of_replaced recorded.replaced (by rfl)
      · simp [RunRow.advance, RunRow.startedAt]
      · simp [waiting, RunState.outstanding]
  | @promoted policy row tenant _ _ _ room candidate _ found waiting _
      recorded =>
      simp only [Call.usesLimits, decide_eq_true_eq] at uses
      have tenantRoom := waitingCandidate_room candidate found
      rw [uses.1] at room
      rw [uses.2] at tenantRoom
      apply QueueMove.of_requeued recorded.replaced (by rfl) _ found room tenantRoom
      simp [waiting, RunState.outstanding]
  | @expired policy row tenant _ _ _ _ _ _ found _ _ active _ _ recorded =>
      simp only [Call.usesLimits, decide_eq_true_eq] at uses
      have working : row.state.outstanding = true := by
        rcases active with same | same <;> simp [same, RunState.outstanding]
      by_cases queued :
          (db.expiryVerdict policy tenant.queueLimit row).1 = .queued
      · have room := expiryVerdict_queued queued
        rw [uses.1, uses.2] at room
        exact QueueMove.of_requeued recorded.replaced (by rfl) working found room.1
          room.2
      · apply QueueMove.of_replaced recorded.replaced (by rfl)
        · exact fun same => absurd same queued
        · exact fun _ => working
  | @finished _ _ _ _ _ errorCode row _ _ _ _ _ _ running _ _ _ _
      recorded =>
      apply QueueMove.of_replaced recorded.replaced (by rfl)
      · rcases row.finalVerdict_cases errorCode with same | same | same <;>
        · simp [RunRow.advance, RunRow.finishedAs, same]
      · simp [running, RunState.outstanding]
  | cancelRequested _ replaced =>
      exact QueueMove.of_replaced replaced rfl id id
  | _ => exact QueueMove.of_same rfl

/-- Queue limits never change, and a tenant that was not there before has no
run. -/
theorem Transition.tenant_origin {row : TenantRow}
    (moved : Transition sha256 db clock command response next)
    (refers : db.References) (member : row ∈ next.tenants.rows) :
    (∃ old ∈ db.tenants.rows, old.id = row.id ∧
        old.queueLimit = row.queueLimit) ∨
      next.runs = db.runs ∧ ∀ run ∈ db.runs.rows, run.tenantId ≠ row.id := by
  have rewritten {old new : TenantRow} {tenants : Table TenantRow.schema}
      (replaced : Table.Replaced db.tenants tenants old new)
      (sameId : old.id = new.id) (sameLimit : old.queueLimit = new.queueLimit)
      (stored : row ∈ tenants.rows) :
      ∃ old ∈ db.tenants.rows, old.id = row.id ∧
        old.queueLimit = row.queueLimit :=
    replaced.exists_origin
      (fun old new => old.id = new.id ∧ old.queueLimit = new.queueLimit)
      (fun _ => ⟨rfl, rfl⟩) ⟨sameId, sameLimit⟩ stored
  cases moved with
  | leased _ _ _ _ _ served _ _ =>
      exact .inl (rewritten served rfl rfl member)
  | expired _ _ _ _ _ _ _ _ slot _ =>
      exact .inl (rewritten slot rfl rfl member)
  | finished _ _ _ _ _ slot _ => exact .inl (rewritten slot rfl rfl member)
  | tenantProvisioned inserted =>
      rcases inserted.mem_iff.mp member with stored | rfl
      · exact .inl ⟨row, stored, rfl, rfl⟩
      · right
        refine ⟨rfl, ?_⟩
        intro run runMember owned
        obtain ⟨tenant, found⟩ := Option.ne_none_iff_exists'.mp
          (refers.runs run runMember).tenant
        obtain ⟨stored, idEq⟩ := findTenant_eq_some_iff.mp found
        have apart := inserted.fresh tenant stored
        simp [TenantRow.schema, idEq, owned] at apart
  | _ => exact .inl ⟨row, member, rfl, rfl⟩

theorem queuedCount_le_pendingCount (db : Database)
    (counted : RunRow → Bool) :
    db.queuedCount counted ≤ db.pendingCount counted := by
  apply List.countP_mono_left
  intro row _ queued
  simp only [Bool.and_eq_true] at queued ⊢
  simp [queued]

/-- Outstanding runs are the pending ones and those that hold a slot. -/
theorem SlotsAccounted.outstandingCount_eq {limit : Int}
    (accounted : SlotsAccounted limit db) (counted : RunRow → Bool) :
    db.outstandingCount counted = db.pendingCount counted +
      db.runs.rows.countP fun row => counted row && row.activeSlotHeld := by
  apply List.countP_eq_add_of_split
  intro row member
  have consistent := (accounted.runs row member).state
  cases counted row with
  | false => simp
  | true =>
      cases state : row.state <;> cases held : row.activeSlotHeld <;>
        simp_all [RunState.outstanding]

/-- The slots held over all tenants are those their counters show. -/
theorem SlotsAccounted.heldTotal_eq {limit : Int}
    (accounted : SlotsAccounted limit db) (refers : db.References) :
    (db.runs.rows.countP (fun row => row.activeSlotHeld) : Int) =
      db.activeTotal := by
  have distinct : (db.tenants.rows.map TenantRow.id).Nodup := by
    rw [List.nodup_iff_pairwise_ne, List.pairwise_map]
    apply db.tenants.unique.imp
    intro first second apart equal
    simp [TenantRow.schema, equal] at apart
  have covered : ∀ row ∈ db.runs.rows,
      row.tenantId ∈ db.tenants.rows.map TenantRow.id := by
    intro row member
    obtain ⟨tenant, found⟩ := Option.ne_none_iff_exists'.mp
      (refers.runs row member).tenant
    obtain ⟨stored, sameId⟩ := findTenant_eq_some_iff.mp found
    exact List.mem_map.mpr ⟨tenant, stored, sameId⟩
  rw [List.countP_eq_sum_fibers RunRow.tenantId RunRow.activeSlotHeld distinct
    covered, activeTotal, List.map_map, Nat.cast_list_sum, List.map_map]
  congr 1
  apply List.map_congr_left
  intro tenant member
  rw [accounted.tenants tenant member, heldCount]
  simp [Bool.decide_and]

section Moving

variable (move : QueueMove limits db next) (bounded : QueueBounded limits db)

include move bounded

theorem QueueMove.queued_le :
    next.queuedCount (fun _ => true) ≤ limits.maxPendingGlobal := by
  have before := bounded.queued
  cases move with
  | settled queued _ =>
      have after := queued fun _ => true
      omega
  | requeued _ globalRoom _ queued _ =>
      have after := queued fun _ => true
      simp only [if_true] at after
      omega
  | admitted _ globalRoom _ queued _ =>
      have after := queued fun _ => true
      have fewer := db.queuedCount_le_pendingCount fun _ => true
      simp only [if_true] at after
      omega

theorem QueueMove.tenantQueued_le {tenant : TenantRow}
    (member : tenant ∈ db.tenants.rows) :
    (next.queuedCount (RunRow.ofTenant tenant.id) : Int) ≤
      tenant.queueCap limits := by
  have before := bounded.tenantQueued tenant member
  cases move with
  | settled queued _ =>
      have after := queued fun id => decide (id = tenant.id)
      change next.queuedCount (RunRow.ofTenant tenant.id) ≤
        db.queuedCount (RunRow.ofTenant tenant.id) at after
      omega
  | @requeued served stored _ tenantRoom queued _ =>
      have after := queued fun id => decide (id = tenant.id)
      change next.queuedCount (RunRow.ofTenant tenant.id) ≤
        db.queuedCount (RunRow.ofTenant tenant.id) + _ at after
      by_cases same : served.id = tenant.id
      · obtain rfl := tenant_eq_of_id stored member same
        simp only [decide_true, if_true] at after
        omega
      · simp only [same, decide_false, if_false, Bool.false_eq_true] at after
        omega
  | @admitted served stored _ tenantRoom queued _ =>
      have after := queued fun id => decide (id = tenant.id)
      change next.queuedCount (RunRow.ofTenant tenant.id) ≤
        db.queuedCount (RunRow.ofTenant tenant.id) + _ at after
      by_cases same : served.id = tenant.id
      · obtain rfl := tenant_eq_of_id stored member same
        have fewer := db.queuedCount_le_pendingCount
          (RunRow.ofTenant served.id)
        simp only [decide_true, if_true] at after
        omega
      · simp only [same, decide_false, if_false, Bool.false_eq_true] at after
        omega

/-- At an admission every outstanding run is pending or holds one of the
accounted slots. -/
theorem QueueMove.outstanding_le
    (accounted : SlotsAccounted limits.maxActiveGlobal db)
    (refers : db.References) :
    next.outstandingCount (fun _ => true) ≤
      limits.maxPendingGlobal + limits.maxActiveGlobal := by
  have before := bounded.outstanding
  cases move with
  | settled _ outstanding =>
      have after := outstanding fun _ => true
      omega
  | requeued _ _ _ _ outstanding =>
      have after := outstanding fun _ => true
      omega
  | admitted _ globalRoom _ _ outstanding =>
      have after := outstanding fun _ => true
      have parts := accounted.outstandingCount_eq fun _ => true
      have held := accounted.heldTotal_eq refers
      have total := accounted.total
      simp only [Bool.true_and] at parts
      simp only [if_true] at after
      omega

theorem QueueMove.tenantOutstanding_le
    (accounted : SlotsAccounted limits.maxActiveGlobal db)
    {tenant : TenantRow} (member : tenant ∈ db.tenants.rows) :
    (next.outstandingCount (RunRow.ofTenant tenant.id) : Int) ≤
      tenant.queueCap limits + 1 := by
  have before := bounded.tenantOutstanding tenant member
  cases move with
  | settled _ outstanding =>
      have after := outstanding fun id => decide (id = tenant.id)
      change next.outstandingCount (RunRow.ofTenant tenant.id) ≤
        db.outstandingCount (RunRow.ofTenant tenant.id) at after
      omega
  | requeued _ _ _ _ outstanding =>
      have after := outstanding fun id => decide (id = tenant.id)
      change next.outstandingCount (RunRow.ofTenant tenant.id) ≤
        db.outstandingCount (RunRow.ofTenant tenant.id) at after
      omega
  | @admitted served stored _ tenantRoom _ outstanding =>
      have after := outstanding fun id => decide (id = tenant.id)
      change next.outstandingCount (RunRow.ofTenant tenant.id) ≤
        db.outstandingCount (RunRow.ofTenant tenant.id) + _ at after
      by_cases same : served.id = tenant.id
      · obtain rfl := tenant_eq_of_id stored member same
        have parts := accounted.outstandingCount_eq (RunRow.ofTenant served.id)
        have held : db.runs.rows.countP (fun row =>
            RunRow.ofTenant served.id row && row.activeSlotHeld) =
              db.heldCount served.id := by
          simp [heldCount, RunRow.ofTenant, Bool.decide_and]
        have counted := accounted.tenants served member
        have single := accounted.single served member
        simp only [decide_true, if_true] at after
        omega
      · simp only [same, decide_false, if_false, Bool.false_eq_true] at after
        omega

end Moving

theorem queueBounded_migrated (limits : QueueLimits) :
    QueueBounded limits migrated := by
  constructor <;>
  · simp [migrated, Table.empty, queuedCount, outstandingCount]

/-- A tenant without runs is within any cap. -/
theorem outstandingCount_eq_zero {tenant : Uuid}
    (absent : ∀ run ∈ db.runs.rows, run.tenantId ≠ tenant) :
    db.queuedCount (RunRow.ofTenant tenant) = 0 ∧
      db.outstandingCount (RunRow.ofTenant tenant) = 0 := by
  constructor <;>
  · apply List.countP_eq_zero.mpr
    intro run member
    simp [RunRow.ofTenant, absent run member]

theorem Transition.queueBounded
    (moved : Transition sha256 db clock command response next)
    (uses : (⟨command, clock⟩ : Call).usesLimits limits = true)
    (refers : db.References)
    (accounted : SlotsAccounted limits.maxActiveGlobal db)
    (bounded : QueueBounded limits db) : QueueBounded limits next := by
  have move := moved.queueMove uses
  have provisioned : ∀ row ∈ next.tenants.rows, 0 ≤ row.queueCap limits := by
    intro row member
    have checked := next.tenants.checked row member
    simp only [TenantRow.schema, decide_eq_true_eq] at checked
    simp only [TenantRow.queueCap]
    omega
  have sameCap {old row : TenantRow}
      (sameLimit : old.queueLimit = row.queueLimit) :
      row.queueCap limits = old.queueCap limits := by
    rw [TenantRow.queueCap, TenantRow.queueCap, sameLimit]
  constructor
  · exact move.queued_le bounded
  · intro row member
    rcases moved.tenant_origin refers member with
      ⟨old, stored, sameId, sameLimit⟩ | ⟨runs, absent⟩
    · rw [sameCap sameLimit, ← sameId]
      exact move.tenantQueued_le bounded stored
    · rw [(outstandingCount_eq_zero (runs ▸ absent)).1]
      exact provisioned row member
  · exact move.outstanding_le bounded accounted refers
  · intro row member
    rcases moved.tenant_origin refers member with
      ⟨old, stored, sameId, sameLimit⟩ | ⟨runs, absent⟩
    · rw [sameCap sameLimit, ← sameId]
      exact move.tenantOutstanding_le bounded accounted stored
    · rw [(outstandingCount_eq_zero (runs ▸ absent)).2]
      have room := provisioned row member
      omega

end Database

/-- Under fixed limits at most `maxPendingGlobal` runs are queued, no tenant has
more queued runs than its cap, and the runs that are queued, deferred or hold a
slot exceed these bounds by no more than the slots. -/
theorem queue_within_capacity {sha256 : Sha256} {limits : QueueLimits}
    {db : Database}
    (reached : Reachable sha256
      (fun _ call => call.usesLimits limits = true) db) :
    db.queuedCount (fun _ => true) ≤ limits.maxPendingGlobal ∧
    (∀ tenant ∈ db.tenants.rows,
      (db.queuedCount (RunRow.ofTenant tenant.id) : Int) ≤
        min tenant.queueLimit limits.maxPendingTenant) ∧
    db.outstandingCount (fun _ => true) ≤
      limits.maxPendingGlobal + limits.maxActiveGlobal ∧
    ∀ tenant ∈ db.tenants.rows,
      (db.outstandingCount (RunRow.ofTenant tenant.id) : Int) ≤
        min tenant.queueLimit limits.maxPendingTenant + 1 := by
  have together := reached.invariant
    (fun db => db.References ∧
      Database.SlotsAccounted limits.maxActiveGlobal db ∧
      Database.QueueBounded limits db)
    ⟨Database.references_migrated,
      Database.slotsAccounted_migrated (Int.natCast_nonneg _),
      Database.queueBounded_migrated limits⟩
    fun db _ call _ holds permitted moved =>
      ⟨moved.references holds.1,
        moved.slotsAccounted (fun worker allowedTenants availableSlots policy
          asked _ => by
            simp only [Call.usesLimits, asked, decide_eq_true_eq] at permitted
            rw [permitted]) holds.1 holds.2.1,
        moved.queueBounded permitted holds.1 holds.2.1 holds.2.2⟩
  have bounded := together.2.2
  exact ⟨bounded.queued, bounded.tenantQueued, bounded.outstanding,
    bounded.tenantOutstanding⟩

theorem queue_within_capacity_lease :
    (Sample.after Sample.lease).outstandingCount (fun _ => true) = 1 ∧
      (Sample.after Sample.lease).outstandingCount (fun _ => true) ≤ 14 := by
  have reached : Reachable Sample.sha256
      (fun _ call => call.usesLimits ⟨10, 10, 4⟩ = true)
      (Sample.after Sample.lease) :=
    Sample.reachable_after fun _ => by decide
  exact ⟨by decide +kernel, (queue_within_capacity reached).2.2.1⟩

end EffectLatch
