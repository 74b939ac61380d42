import EffectLatch.ClaimSelection

/-!
# When the scheduler reports corruption

`CorruptScheduler` is meant for counters that contradict the rows.  In a
reachable state no claim and no sweep ever reports it.  A finish does, since it
looks at the counter of the tenant before it looks at the lease.
-/

namespace EffectLatch

namespace Database

variable {sha256 : Sha256} {db next : Database} {clock : Clock}
  {tenant run : Uuid}

theorem avoids_appendEvent {kind : String} {payload : List UInt8} :
    (db.appendEvent sha256 tenant run kind payload).Avoids
      .corruptScheduler := by
  simp [appendEvent, insertRunEvent, updateRun, updateRuns]

theorem avoids_fetchRunByKey {key : String} :
    (db.fetchRunByKey tenant key).Avoids .corruptScheduler := by
  simp [fetchRunByKey]

theorem avoids_loadGrantChainLocked {leaf : Uuid} :
    (db.loadGrantChainLocked tenant leaf).Avoids .corruptScheduler := by
  have decoded : ∀ row : GrantRow,
      (row.toGrant tenant).Avoids .corruptScheduler := by
    intro row
    simp [GrantRow.toGrant, epochMs]
  have reported : ∀ reason : GrantError,
      structuralError reason ≠ .corruptScheduler := by
    intro reason
    cases reason <;> simp [structuralError]
  simp [loadGrantChainLocked, Except.avoids_mapM, decoded,
    Except.avoids_mapError reported]

/-! ## Operations that have no such check -/

theorem avoids_putModule {digest : Digest} {wasm : List UInt8} :
    (db.putModule tenant digest wasm).Avoids .corruptScheduler := by
  unfold putModule
  split <;> simp [insertModule]

theorem avoids_admitExisting {key : String} {stored requestHash : Digest} :
    (db.admitExisting tenant key stored requestHash).Avoids
      .corruptScheduler := by
  simp [admitExisting, avoids_fetchRunByKey]

theorem avoids_admitRun {runId : Uuid} {key : String} {request : NormalizedRun}
    {maxPendingGlobal maxPendingTenant : Nat} :
    (db.admitRun sha256 clock runId tenant key request maxPendingGlobal
      maxPendingTenant).Avoids .corruptScheduler := by
  have fresh : (db.admitFresh sha256 clock runId tenant key request).Avoids
      .corruptScheduler := by
    unfold admitFresh
    split
    · exact avoids_admitExisting
    · simp [insertRun, avoids_appendEvent, avoids_fetchRunByKey]
  unfold admitRun
  split <;> simp [beginScheduler, avoids_admitExisting, fresh]

theorem avoids_createGrant {id : Uuid} {parent : Option Uuid}
    {actorId : String} {authority : Authority} :
    (db.createGrant sha256 clock id tenant parent actorId authority).Avoids
      .corruptScheduler := by
  have ancestry : (db.creationAncestry tenant parent).Avoids
      .corruptScheduler := by
    cases parent with
    | none => simp [creationAncestry]
    | some parent => exact avoids_loadGrantChainLocked
  have validated : ∀ checked : Except GrantError Unit,
      (checked.mapError Error.grantValidation).Avoids .corruptScheduler :=
    fun _ => Except.avoids_mapError (by simp)
  simp [createGrant, ancestry, epochMs, validated, insertGrant,
    insertOperatorEvent, fetchGrantRecord]

theorem avoids_getGrant {id : Uuid} :
    (db.getGrant tenant id).Avoids .corruptScheduler := by
  simp [getGrant, avoids_loadGrantChainLocked, fetchGrantRecord]

theorem avoids_revokeGrant {id : Uuid} {actorId reason : String} :
    (db.revokeGrant sha256 clock tenant id actorId reason).Avoids
      .corruptScheduler := by
  simp only [revokeGrant, Except.avoids_bind_iff]
  refine ⟨by simp, fun _ _ => ⟨avoids_loadGrantChainLocked, fun _ _ =>
    ⟨by simp, fun row _ => ?_⟩⟩⟩
  split <;> simp [updateGrants, insertOperatorEvent]

theorem avoids_applyReservations {request : GrantReservation}
    {plan : List (Uuid × UInt64)} :
    (applyReservations request plan db).Avoids .corruptScheduler := by
  induction plan generalizing db with
  | nil => simp [applyReservations]
  | cons charge rest ih =>
      obtain ⟨grant, next⟩ := charge
      simp [applyReservations, updateGrants, insertReservation, ih]

theorem avoids_reserveGrantChain {request : GrantReservation} :
    (db.reserveGrantChain clock request).Avoids .corruptScheduler := by
  have planned : ∀ checked : Except GrantError (List (Uuid × UInt64)),
      (checked.mapError Error.grantValidation).Avoids .corruptScheduler :=
    fun _ => Except.avoids_mapError (by simp)
  simp only [reserveGrantChain, Except.avoids_bind_iff]
  refine ⟨by simp, fun _ _ => ⟨avoids_loadGrantChainLocked, fun _ _ =>
    ⟨by simp, fun effect _ => ?_⟩⟩⟩
  split <;> simp [epochMs, planned, avoids_applyReservations, updateEffects]

theorem avoids_heartbeatRun {worker : String} {allowedTenants : List Uuid}
    {epoch : Int} {leaseMs : Nat} :
    (db.heartbeatRun clock run worker allowedTenants epoch leaseMs).Avoids
      .corruptScheduler := by
  simp [heartbeatRun, updateRuns]

theorem avoids_markRunStarted {worker : String} {allowedTenants : List Uuid}
    {epoch : Int} :
    (db.markRunStarted sha256 clock run worker allowedTenants epoch).Avoids
      .corruptScheduler := by
  simp only [markRunStarted, Except.avoids_bind_iff]
  refine ⟨by simp, fun _ _ => ⟨by simp, fun _ _ => ⟨by simp, fun _ _ =>
    ⟨by simp, fun row _ => ⟨by simp, fun _ _ => ?_⟩⟩⟩⟩⟩
  split <;> simp [updateRun, updateRuns, avoids_appendEvent]

/-! ## Claims and sweeps -/

/-- Of a counted tenant, one row has a slot to release. -/
theorem countP_releasable {row : TenantRow}
    (found : db.findTenant tenant = some row) (counted : 0 < row.activeCount) :
    db.tenants.rows.countP
      (fun row => decide (row.id = tenant ∧ 0 < row.activeCount)) = 1 := by
  obtain ⟨member, idEq⟩ := findTenant_eq_some_iff.mp found
  have alone : List.Alone
      (fun row => decide (row.id = tenant ∧ 0 < row.activeCount))
      db.tenants.rows := by
    refine (db.tenants_alone tenant).mono ?_
    intro other chosen
    simp only [decide_eq_true_eq] at chosen ⊢
    exact chosen.1
  exact alone.countP_eq_one member (by simp [idEq, counted])

theorem avoids_releaseSlot {row : TenantRow}
    (found : db.findTenant tenant = some row) (counted : 0 < row.activeCount) :
    (db.releaseSlot tenant).Avoids .corruptScheduler := by
  simp only [releaseSlot, countP_releasable found counted,
    Except.avoids_bind_iff, Except.avoids_require_iff, Except.avoids_pure]
  simp [updateTenants]

theorem avoids_issueLease {worker : String} {policy : ClaimPolicy}
    {grantIds : List Uuid} {seq : Int}
    (numbered : db.schedulerState = some seq) (below : seq < i64Max) :
    (db.issueLease sha256 clock worker policy tenant run grantIds).Avoids
      .corruptScheduler := by
  simp [issueLease, numbered, below, updateTenants, updateRun, updateRuns,
    avoids_appendEvent]

namespace Sound

variable (sound : db.Sound)

include sound

theorem avoids_claimRun {worker : String} {allowedTenants : List Uuid}
    {availableSlots : Nat} {policy : ClaimPolicy} {seq : Int}
    (numbered : db.schedulerState = some seq) (below : seq < i64Max) :
    (db.claimRun sha256 clock worker allowedTenants availableSlots
      policy).Avoids .corruptScheduler := by
  simp only [claimRun, Except.avoids_bind_iff]
  refine ⟨by simp, fun _ _ => ⟨by simp [beginScheduler], fun _ _ =>
    ⟨?_, fun _ _ => ?_⟩⟩⟩
  · rw [Except.avoids_require_iff]
    exact .inl ⟨db.activeTotal_nonneg, sound.slots.total⟩
  split
  · exact Except.avoids_pure _ _
  split
  · exact Except.avoids_pure _ _
  split
  · exact Except.avoids_pure _ _
  next tenant row candidate =>
    obtain ⟨_, _, ⟨_, issued⟩ | ⟨_, denied⟩⟩ :=
      sound.claimSelected_eq sha256 clock worker candidate
    · rw [issued]
      exact avoids_issueLease numbered below
    · obtain ⟨_, _, _, member, owned, _⟩ := claimCandidate_eq_some candidate
      have found : db.findRun tenant.id row.id = some row :=
        findRun_eq_some_iff.mpr ⟨member, owned, rfl⟩
      obtain ⟨next, failed, _⟩ := sound.heads.denyGrant_ok found
      rw [denied, failed]
      exact Except.avoids_pure _ _

theorem avoids_promote {policy : ReapPolicy} {row : RunRow}
    (candidate : db.waitingCandidate policy = some row) :
    (db.promote sha256 clock policy row.tenantId row.id).Avoids
      .corruptScheduler := by
  obtain ⟨member, waiting, found⟩ := waitingCandidate_found candidate
  have free : row.activeSlotHeld = false := by
    have consistent := (sound.slots.runs row member).state
    simpa [waiting] using consistent
  simp [promote, found, waiting, free, updateRun, updateRuns,
    avoids_appendEvent]

/-- The tenant of a run that holds a slot has it counted. -/
theorem activeCount_pos {row : RunRow} {tenant : TenantRow}
    (member : row ∈ db.runs.rows) (held : row.activeSlotHeld = true)
    (found : db.findTenant row.tenantId = some tenant) :
    0 < tenant.activeCount := by
  obtain ⟨tenantMember, idEq⟩ := findTenant_eq_some_iff.mp found
  rw [sound.slots.tenants tenant tenantMember, idEq, heldCount,
    Int.natCast_pos, List.countP_pos_iff]
  exact ⟨row, member, by simp [held]⟩

theorem avoids_expire {policy : ReapPolicy} {row : RunRow}
    (candidate : db.expiredCandidate (clock 0) = some row) :
    (db.expire sha256 clock policy row.tenantId row.id).Avoids
      .corruptScheduler := by
  obtain ⟨member, held, _, _, found⟩ := expiredCandidate_found candidate
  obtain ⟨tenant, tenantFound⟩ := Option.ne_none_iff_exists'.mp
    (sound.references.runs row member).tenant
  have counted := sound.activeCount_pos member held tenantFound
  simp only [expire, tenantFound, found, Except.fetch_some, Except.ok_bind_eq,
    Except.require_of counted, Except.require_of held]
  split
  · exact Except.avoids_pure _ _
  · simp [avoids_releaseSlot tenantFound counted, updateRun, updateRuns,
      avoids_appendEvent]

theorem avoids_reapOne {policy : ReapPolicy} :
    (db.reapOne sha256 clock policy).Avoids .corruptScheduler := by
  simp only [reapOne, Except.avoids_bind_iff]
  refine ⟨by simp, fun _ _ => ⟨by simp [beginScheduler], fun _ _ => ?_⟩⟩
  split
  next row waiting =>
    split at waiting
    next => exact sound.avoids_promote waiting
    next => simp at waiting
  next =>
    split
    · exact Except.avoids_pure _ _
    next row candidate => exact sound.avoids_expire candidate

end Sound

/-! ## Finishing -/

/-- The arguments `finishRun` accepts. -/
def FinishAccepted (worker : String) (epoch : Int)
    (output : Option (List UInt8)) (errorCode : Option String) : Prop :=
  workerIdentifier worker = true ∧ 0 < epoch ∧
    (∀ value ∈ output, value.length ≤ 65536) ∧
    (∀ value ∈ errorCode, (utf8 value).length ≠ 0 ∧
      (utf8 value).length ≤ 64 ∧
      (utf8 value).all (fun byte => isAsciiUppercase byte || byte == 0x5f) =
        true) ∧
    ¬ (output.isSome = true ∧ errorCode.isSome = true)

/-- A finish for a stored run of an allowed tenant. -/
structure FinishAsked (db : Database) (run : Uuid) (worker : String)
    (allowedTenants : List Uuid) (epoch : Int) (output : Option (List UInt8))
    (errorCode : Option String) (row : RunRow) (owner : TenantRow) : Prop where
  accepted : FinishAccepted worker epoch output errorCode
  found : db.findRunById run = some row
  permitted : row.tenantId ∈ allowedTenants
  tenantFound : db.findTenant row.tenantId = some owner

/-- The call is a finish for a run whose tenant has no slot taken. -/
def FinishesIdle (db : Database) : Command → Prop
  | .finishRun run worker allowedTenants epoch output errorCode =>
      ∃ row owner, db.FinishAsked run worker allowedTenants epoch output
        errorCode row owner ∧ owner.activeCount = 0
  | _ => False

section Finishing

variable {worker : String} {allowedTenants : List Uuid} {epoch : Int}
  {output : Option (List UInt8)} {errorCode : Option String} {row : RunRow}
  {owner : TenantRow}

/-- A finish for a tenant without a slot stops at the counter. -/
theorem Sound.finishRun_idle (sound : db.Sound)
    (asked : db.FinishAsked run worker allowedTenants epoch output errorCode
      row owner) (idle : owner.activeCount = 0) :
    db.finishRun sha256 clock run worker allowedTenants epoch output
      errorCode = .error .corruptScheduler := by
  obtain ⟨accepted, found, permitted, tenantFound⟩ := asked
  rw [FinishAccepted] at accepted
  simp only [finishRun, beginScheduler, Except.require_of accepted,
    Except.require_of sound.references.scheduler, found, Except.fetch_some,
    Except.require_of permitted, tenantFound, Except.ok_bind_eq, idle]
  rfl

/-- With a slot taken, a finish without the lease is refused as such. -/
theorem Sound.finishRun_stale (sound : db.Sound)
    (asked : db.FinishAsked run worker allowedTenants epoch output errorCode
      row owner) (counted : 0 < owner.activeCount)
    (stale : ¬ (row.state = .running ∧ row.leaseOwner = some worker ∧
      row.leaseEpoch = epoch ∧ row.live (clock 0) = true ∧
      row.activeSlotHeld = true)) :
    db.finishRun sha256 clock run worker allowedTenants epoch output
      errorCode = .error .leaseConflict := by
  obtain ⟨accepted, found, permitted, tenantFound⟩ := asked
  obtain ⟨member, idEq⟩ := findRunById_eq_some_iff.mp found
  have runFound : db.findRun row.tenantId run = some row :=
    findRun_eq_some_iff.mpr ⟨member, rfl, idEq⟩
  rw [FinishAccepted] at accepted
  simp only [finishRun, beginScheduler, Except.require_of accepted,
    Except.require_of sound.references.scheduler, found, Except.fetch_some,
    Except.require_of permitted, tenantFound, Except.ok_bind_eq,
    Except.require_of counted, runFound]
  rw [Except.require, if_neg stale]
  rfl

/-- With a slot taken, a finish reports no corruption. -/
theorem avoids_finishRun
    (busy : ∀ row owner, db.FinishAsked run worker allowedTenants epoch output
      errorCode row owner → 0 < owner.activeCount) :
    (db.finishRun sha256 clock run worker allowedTenants epoch output
      errorCode).Avoids .corruptScheduler := by
  simp only [finishRun, Except.avoids_bind_iff, Except.require_eq_ok_iff,
    Except.fetch_eq_ok_iff]
  refine ⟨by simp, fun _ accepted => ⟨by simp [beginScheduler], fun _ _ =>
    ⟨by simp, fun row found => ⟨by simp, fun _ permitted =>
      ⟨by simp, fun owner tenantFound => ?_⟩⟩⟩⟩⟩
  have counted := busy row owner ⟨accepted, found, permitted, tenantFound⟩
  simp [counted, avoids_releaseSlot tenantFound counted, updateRun, updateRuns,
    avoids_appendEvent, avoids_fetchRunByKey]

end Finishing

/-- Of all calls only a finish can report corruption. -/
theorem Sound.avoids_execute (sound : db.Sound) {call : Call} {seq : Int}
    (numbered : db.schedulerState = some seq) (below : seq < i64Max)
    (other : ∀ run worker allowedTenants epoch output errorCode,
      call.command ≠
        .finishRun run worker allowedTenants epoch output errorCode) :
    (db.execute sha256 call).Avoids .corruptScheduler := by
  obtain ⟨command, clock⟩ := call
  cases command with simp only [execute, Except.avoids_map_iff]
  | putModule => exact avoids_putModule
  | admitRun => exact avoids_admitRun
  | createGrant => exact avoids_createGrant
  | getGrant => exact avoids_getGrant
  | revokeGrant => exact avoids_revokeGrant
  | reserveGrantChain => exact avoids_reserveGrantChain
  | claimRun => exact sound.avoids_claimRun numbered below
  | heartbeatRun => exact avoids_heartbeatRun
  | markRunStarted => exact avoids_markRunStarted
  | reapOne => exact sound.avoids_reapOne
  | finishRun => exact absurd rfl (other _ _ _ _ _ _)
  | provisionTenant => simp [provisionTenant, insertTenant]
  | requestCancel => simp [requestCancel, updateRun, updateRuns]
  | prepareEffect => simp [prepareEffect, insertEffect]
  | moveEffect => simp [moveEffect, updateEffects]

/-- In a sound state with numbers left, exactly the finishes for a tenant
without a slot report corruption. -/
theorem Sound.execute_eq_corruptScheduler_iff (sound : db.Sound) {call : Call}
    {seq : Int} (numbered : db.schedulerState = some seq)
    (below : seq < i64Max) :
    db.execute sha256 call = .error .corruptScheduler ↔
      db.FinishesIdle call.command := by
  constructor
  · intro failed
    by_contra busy
    refine (?_ : (db.execute sha256 call).Avoids .corruptScheduler) failed
    by_cases finishing : ∃ run worker allowedTenants epoch output errorCode,
        call.command = .finishRun run worker allowedTenants epoch output
          errorCode
    · obtain ⟨run, worker, allowedTenants, epoch, output, errorCode, asked⟩ :=
        finishing
      rw [asked] at busy
      simp only [execute, asked, Except.avoids_map_iff]
      refine avoids_finishRun fun row owner wellFormed => ?_
      have checked := db.tenants.checked owner
        (findTenant_eq_some_iff.mp wellFormed.tenantFound).1
      simp only [TenantRow.schema, decide_eq_true_eq] at checked
      by_contra idle
      exact busy ⟨row, owner, wellFormed, by omega⟩
    · refine sound.avoids_execute numbered below ?_
      intro run worker allowedTenants epoch output errorCode asked
      exact finishing
        ⟨run, worker, allowedTenants, epoch, output, errorCode, asked⟩
  · intro idle
    obtain ⟨command, clock⟩ := call
    cases command with
    | finishRun run worker allowedTenants epoch output errorCode =>
        obtain ⟨row, owner, asked, free⟩ := idle
        rw [execute, Except.map_eq_error_iff]
        exact sound.finishRun_idle asked free
    | _ => exact absurd idle id

end Database

/-- In every reachable state with dispatch numbers left, a call reports
corruption exactly when it is a finish for a run whose tenant has no slot taken;
and a finish without the live lease is refused as a lease conflict, changing
nothing, exactly when the tenant has a slot taken. -/
theorem corruptScheduler_reported_iff {sha256 : Sha256}
    {allowed : Database → Call → Prop} {db : Database} {seq : Int}
    (reached : Reachable sha256 allowed db)
    (numbered : db.schedulerState = some seq) (below : seq < i64Max) :
    (∀ call, (db.perform sha256 call).1 = .error .corruptScheduler ↔
      db.FinishesIdle call.command) ∧
    ∀ clock run worker allowedTenants epoch output errorCode row owner,
      db.FinishAsked run worker allowedTenants epoch output errorCode row
        owner →
      ¬ (row.state = .running ∧ row.leaseOwner = some worker ∧
        row.leaseEpoch = epoch ∧ row.live (clock 0) = true ∧
        row.activeSlotHeld = true) →
      (db.perform sha256 ⟨.finishRun run worker allowedTenants epoch output
          errorCode, clock⟩ = (.error .leaseConflict, db) ↔
        0 < owner.activeCount) := by
  have sound := reached.sound
  constructor
  · intro call
    rw [← sound.execute_eq_corruptScheduler_iff numbered below]
    cases done : db.execute sha256 call <;>
      simp [Database.perform, done]
  · intro clock run worker allowedTenants epoch output errorCode row owner asked
      stale
    constructor
    · intro refused
      have checked := db.tenants.checked owner
        (Database.findTenant_eq_some_iff.mp asked.tenantFound).1
      simp only [TenantRow.schema, decide_eq_true_eq] at checked
      by_contra idle
      have stopped : db.finishRun sha256 clock run worker allowedTenants epoch
          output errorCode = .error .corruptScheduler :=
        sound.finishRun_idle asked (by omega)
      simp [Database.perform, Database.execute, stopped, Except.map]
        at refused
    · intro counted
      have conflict : db.finishRun sha256 clock run worker allowedTenants epoch
          output errorCode = .error .leaseConflict :=
        sound.finishRun_stale asked counted stale
      simp [Database.perform, Database.execute, conflict, Except.map]

namespace Sample

/-- The finish of the completed run once more. -/
def finishAgain : Call := ⟨.finishRun 20 "worker" [1] 1 none none, fun _ => 6⟩

end Sample

theorem corruptScheduler_reported_iff_lease :
    ((Sample.after Sample.lease).perform Sample.sha256
      Sample.finishAgain).1 ≠ .error .corruptScheduler := by
  have reached : Reachable Sample.sha256 (fun _ _ => True)
      (Sample.after Sample.lease) :=
    Sample.reachable_after fun _ _ _ => trivial
  have numbered : (Sample.after Sample.lease).schedulerState = some 1 := by
    decide +kernel
  have counted : ((Sample.after Sample.lease).findTenant 1).map
      TenantRow.activeCount = some 1 := by decide +kernel
  have owned : ((Sample.after Sample.lease).findRunById 20).map
      RunRow.tenantId = some 1 := by decide +kernel
  intro reported
  obtain ⟨row, owner, asked, idle⟩ :=
    ((corruptScheduler_reported_iff reached numbered (by decide)).1
      Sample.finishAgain).mp reported
  simp only [asked.found, Option.map_some, Option.some.injEq] at owned
  have tenantFound := asked.tenantFound
  rw [owned] at tenantFound
  simp [tenantFound, idle] at counted

/-- A worker that repeats the finish of a completed run is told that the
scheduler is corrupt. -/
theorem corruption_reported_to_repeated_finish :
    Reachable Sample.sha256
      (fun _ call =>
        call.usesPolicy Sample.claimPolicy Sample.reapPolicy = true)
      (Sample.after Sample.completed) ∧
    (Sample.after Sample.completed).schedulerState = some 1 ∧
    ((Sample.after Sample.completed).perform Sample.sha256
      Sample.finishAgain).1 = .error .corruptScheduler := by
  refine ⟨Sample.reachable_after fun _ => by decide, by decide +kernel, ?_⟩
  have failed : (match ((Sample.after Sample.completed).perform Sample.sha256
      Sample.finishAgain).1 with
    | .error failure => some failure
    | .ok _ => none) = some Error.corruptScheduler := by decide +kernel
  split at failed
  next reported => rw [reported, Option.some.inj failed]
  next => simp at failed

end EffectLatch
