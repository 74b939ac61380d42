import EffectLatch.StoreCalls
import EffectLatch.StoreStatementLaws

/-!
# What one call can do

`Transition` lists every way a call can succeed: the guards it passed, the rows
it replaced or inserted, and the response it gave.  Invariants of the store are
proved against this relation, and `StoreTransitionSoundness` proves that the
operations stay within it.
-/

namespace EffectLatch

namespace RunRow

def deniedAt (row : RunRow) (now : Timestamp) : RunRow :=
  { row with
    state := .failed
    errorCode := some "GRANT_DENIED"
    updatedAt := now }

def leasedBy (row : RunRow) (worker : String) (expiresAt now : Timestamp) :
    RunRow :=
  { row with
    state := .leased
    leaseEpoch := row.leaseEpoch + 1
    leaseOwner := some worker
    leaseExpiresAt := some expiresAt
    attempt := row.attempt + 1
    activeSlotHeld := true
    updatedAt := now }

def renewedUntil (row : RunRow) (expiresAt now : Timestamp) : RunRow :=
  { row with leaseExpiresAt := some expiresAt, updatedAt := now }

def startedAt (row : RunRow) (now : Timestamp) : RunRow :=
  { row with state := .running, updatedAt := now }

def movedTo (row : RunRow) (state : RunState) (now : Timestamp) : RunRow :=
  { row with state := state, updatedAt := now }

def releasedTo (row : RunRow) (state : RunState) (now : Timestamp) : RunRow :=
  { row with
    state := state
    activeSlotHeld := false
    leaseOwner := none
    leaseExpiresAt := none
    updatedAt := now }

def finishedAs (row : RunRow) (state : RunState)
    (output : Option (List UInt8)) (errorCode : Option String)
    (now : Timestamp) : RunRow :=
  { row with
    state := state
    outputBytes := output
    errorCode := errorCode
    activeSlotHeld := false
    leaseOwner := none
    leaseExpiresAt := none
    updatedAt := now }

def cancelAsked (row : RunRow) : RunRow := { row with cancelRequested := true }

/-- The worker holds the live lease of the run, with its tenant allowed. -/
structure LeasedTo (db : Database) (row : RunRow) (run : Uuid)
    (worker : String) (allowedTenants : List Uuid) (epoch : Int)
    (now : Timestamp) : Prop where
  member : row ∈ db.runs.rows
  identity : row.id = run
  permitted : row.tenantId ∈ allowedTenants
  owner : row.leaseOwner = some worker
  current : row.leaseEpoch = epoch
  live : row.live now = true
  held : row.activeSlotHeld = true

/-- Where `finishRun` takes a run. -/
def finalVerdict (row : RunRow) (errorCode : Option String) :
    RunState × String :=
  if row.cancelRequested then (.cancelled, "run.cancelled")
  else if errorCode.isSome then (.failed, "run.failed")
  else (.succeeded, "run.succeeded")

end RunRow

namespace TenantRow

def servedAt (row : TenantRow) (seq : Int) : TenantRow :=
  { row with activeCount := row.activeCount + 1, lastServedSeq := seq }

def slotReleased (row : TenantRow) : TenantRow :=
  { row with activeCount := row.activeCount - 1 }

end TenantRow

/-- The row `createGrant` inserts. -/
def createdGrantRow (id tenant : Uuid) (parent : Option Uuid) (depth : Nat)
    (authority : Authority) : GrantRow where
  tenantId := tenant
  id := id
  parentId := parent
  depth := depth
  actions := authority.actions.toList
  destinations := authority.destinations.toList
  projects := authority.projects.toList
  maxEffects := authority.maxEffects.toNat
  usedEffects := 0
  expiresAt := authority.expiresAtMs.toInt * 1000
  revokedAt := none

def GrantRow.revokedFrom (row : GrantRow) (now : Timestamp) : GrantRow :=
  { row with revokedAt := some now }

/-- The grant with one more charge when its identity is in the plan. -/
def GrantRow.charged (request : GrantReservation) (ids : List Uuid)
    (row : GrantRow) : GrantRow :=
  if row.tenantId = request.tenant ∧ row.id ∈ ids then
    { row with usedEffects := row.usedEffects + 1 }
  else row

def GrantReservation.rows (request : GrantReservation) (ids : List Uuid) :
    List ReservationRow :=
  ids.map fun grant => ⟨request.tenant, request.run, request.ordinal, grant⟩

def EffectIntent.row (intent : EffectIntent) : EffectRow where
  tenantId := intent.tenantId
  runId := intent.runId
  ordinal := intent.ordinal
  requestHash := intent.requestHash
  action := intent.action
  destination := intent.destination
  project := intent.project
  providerKey := intent.providerKey
  state := .prepared
  sendAttempts := 0
  reservationCharged := false

/-- The arguments `claimRun` accepts. -/
structure ClaimPolicy.Valid (policy : ClaimPolicy) : Prop where
  global : 1 ≤ policy.maxActiveGlobal ∧ policy.maxActiveGlobal ≤ 4
  perTenant : policy.maxActivePerTenant = 1
  attempts : 1 ≤ policy.maxAttempts ∧ policy.maxAttempts ≤ 3
  lease : 1 ≤ policy.leaseMs ∧ policy.leaseMs ≤ 6000

/-- The arguments `reapOne` accepts. -/
structure ReapPolicy.Valid (policy : ReapPolicy) : Prop where
  attempts : 1 ≤ policy.maxAttempts ∧ policy.maxAttempts ≤ 3
  global : 1 ≤ policy.maxPendingGlobal ∧ policy.maxPendingGlobal ≤ 1000
  tenant : 1 ≤ policy.maxPendingTenant ∧ policy.maxPendingTenant ≤ 100
  ordered : policy.maxPendingTenant ≤ policy.maxPendingGlobal

namespace Database

/-- The grants of a chain are all unrevoked and unexpired. -/
def ChainLive (db : Database) (tenant : Uuid) (chain : List Grant)
    (now : Timestamp) : Prop :=
  ∀ row ∈ db.grantRows tenant (chain.map Grant.id),
    row.revokedAt = none ∧ now < row.expiresAt

/-- `claimRun` passed its capacity checks and selected `row` of `tenant`, whose
ancestry loaded as `chain`. -/
structure Selected (db : Database) (worker : String)
    (allowedTenants : List Uuid) (policy : ClaimPolicy) (tenant : TenantRow)
    (row : RunRow) (chain : List Grant) : Prop where
  valid : policy.Valid
  globalRoom :
    (db.tenants.rows.map TenantRow.activeCount).sum < policy.maxActiveGlobal
  workerRoom : db.runs.rows.countP (fun row =>
    decide (row.activeSlotHeld = true ∧ row.leaseOwner = some worker)) < 2
  candidate : db.claimCandidate allowedTenants policy = some (tenant, row)
  tenantMember : tenant ∈ db.tenants.rows
  tenantFree : 0 ≤ tenant.activeCount ∧ tenant.activeCount < 1
  member : row ∈ db.runs.rows
  owned : row.tenantId = tenant.id
  queued : row.state = .queued
  notCancelled : row.cancelRequested = false
  free : row.activeSlotHeld = false
  attemptLeft : row.attempt < policy.maxAttempts
  loaded : db.loadGrantChainLocked tenant.id row.grantId = .ok chain

/-- Calls that succeed and change nothing. -/
inductive Observation (sha256 : Sha256) (db : Database) (clock : Clock) :
    Command → Response → Prop
  | modulePresent {tenant : Uuid} {digest : Digest} {wasm : List UInt8} :
      Observation sha256 db clock (.putModule tenant digest wasm)
        (.module .existing)
  | admittedBefore {runId tenant : Uuid} {key : String}
      {request : NormalizedRun} {maxPendingGlobal maxPendingTenant : Nat}
      {row : RunRow} {record : RunRecord}
      (found : db.findRunByKey tenant key = some row)
      (sameRequest : row.requestHash = Hash.run sha256 request)
      (described : db.fetchRunByKey tenant key = .ok record) :
      Observation sha256 db clock
        (.admitRun runId tenant key request maxPendingGlobal maxPendingTenant)
        (.admission ⟨.existing, record⟩)
  | grantRead {tenant id : Uuid} {record : GrantRecord} :
      Observation sha256 db clock (.getGrant tenant id) (.grant record)
  | revokedBefore {tenant id : Uuid} {actorId reason : String}
      {row : GrantRow} {revokedAt : Timestamp}
      (found : db.findGrant tenant id = some row)
      (revoked : row.revokedAt = some revokedAt) :
      Observation sha256 db clock (.revokeGrant tenant id actorId reason)
        (.revocation ⟨id, revokedAt⟩)
  | reservedBefore {request : GrantReservation} {effect : EffectRow}
      (found : db.findEffect request.tenant request.run request.ordinal =
        some effect)
      (charged : effect.reservationCharged = true) :
      Observation sha256 db clock (.reserveGrantChain request)
        (.reservation .existing)
  | nothingClaimed {worker : String} {allowedTenants : List Uuid}
      {availableSlots : Nat} {policy : ClaimPolicy} :
      Observation sha256 db clock
        (.claimRun worker allowedTenants availableSlots policy) (.lease none)
  | startedBefore {run : Uuid} {worker : String} {allowedTenants : List Uuid}
      {epoch : Int} {row : RunRow}
      (lease : row.LeasedTo db run worker allowedTenants epoch (clock 0))
      (running : row.state = .running) :
      Observation sha256 db clock
        (.markRunStarted run worker allowedTenants epoch) .started
  | nothingReaped {policy : ReapPolicy} :
      Observation sha256 db clock (.reapOne policy) (.reaped none)

/-- Every way a call can succeed. -/
inductive Transition (sha256 : Sha256) (db : Database) (clock : Clock) :
    Command → Response → Database → Prop
  | unchanged {command : Command} {response : Response}
      (observed : Observation sha256 db clock command response) :
      Transition sha256 db clock command response db
  | moduleCreated {tenant : Uuid} {digest : Digest} {wasm : List UInt8}
      {modules : Table ModuleRow.schema}
      (tenantKnown : db.findTenant tenant ≠ none)
      (inserted : Table.Inserted db.modules modules ⟨tenant, digest, wasm⟩) :
      Transition sha256 db clock (.putModule tenant digest wasm)
        (.module .created) { db with modules := modules }
  | admitted {runId tenant : Uuid} {key : String} {request : NormalizedRun}
      {maxPendingGlobal maxPendingTenant : Nat} {tenantRow : TenantRow}
      {runs : Table RunRow.schema} {events : Table RunEventRow.schema}
      {record : RunRecord}
      (tenantFound : db.findTenant tenant = some tenantRow)
      (keyFree : db.findRunByKey tenant key = none)
      (moduleFound : db.findModule tenant request.moduleDigest ≠ none)
      (grantFound : db.findGrant tenant request.grantId ≠ none)
      (live : db.grantLive tenant request.grantId (clock 0) = true)
      (globalRoom : db.pendingCount (fun _ => true) < maxPendingGlobal)
      (tenantRoom : db.pendingCount (fun row => decide (row.tenantId = tenant)) <
        min (tenantRow.queueLimit % 2 ^ 32).toNat maxPendingTenant)
      (inserted : Table.Inserted db.runs runs
        ((admittedRow sha256 clock runId tenant key request).advance sha256
          [("run.admitted", statePayload .queued)]))
      (logged : events.rows = db.runEvents.rows ++
        (admittedRow sha256 clock runId tenant key request).emitted sha256
          [("run.admitted", statePayload .queued)])
      (described : ({ db with runs := runs, runEvents := events } :
        Database).fetchRunByKey tenant key = .ok record) :
      Transition sha256 db clock
        (.admitRun runId tenant key request maxPendingGlobal maxPendingTenant)
        (.admission ⟨.created, record⟩)
        { db with runs := runs, runEvents := events }
  | grantCreated {id tenant : Uuid} {parent : Option Uuid} {actorId : String}
      {authority : Authority} {ancestry : List Grant} {nowMs : Int64}
      {grants : Table GrantRow.schema} {record : GrantRecord}
      (loaded : db.creationAncestry tenant parent = .ok ancestry)
      (tenantKnown : db.findTenant tenant ≠ none)
      (now : epochMs (clock 0) = .ok nowMs)
      (validated : (if ancestry = [] then authority.validate nowMs
        else validateChild authority ancestry tenant nowMs) = .ok ())
      (inserted : Table.Inserted db.grants grants
        (createdGrantRow id tenant parent ancestry.length authority)) :
      Transition sha256 db clock
        (.createGrant id tenant parent actorId authority) (.grant record)
        { db with
          grants := grants
          operatorEvents := db.operatorEvents ++
            [⟨tenant, actorId, "grant.created", id,
              Hash.grant sha256 parent authority⟩] }
  | grantRevoked {tenant id : Uuid} {actorId reason : String} {row : GrantRow}
      {grants : Table GrantRow.schema}
      (found : db.findGrant tenant id = some row)
      (unrevoked : row.revokedAt = none)
      (replaced : Table.Replaced db.grants grants row
        (row.revokedFrom (clock 0))) :
      Transition sha256 db clock (.revokeGrant tenant id actorId reason)
        (.revocation ⟨id, clock 0⟩)
        { db with
          grants := grants
          operatorEvents := db.operatorEvents ++
            [⟨tenant, actorId, "grant.revoked", id,
              Hash.grantRevocation sha256 id reason⟩] }
  | reserved {request : GrantReservation} {run : RunRow} {effect : EffectRow}
      {chain : List Grant} {nowMs : Int64} {plan : List (Uuid × UInt64)}
      {grants : Table GrantRow.schema}
      {reservations : Table ReservationRow.schema}
      {effects : Table EffectRow.schema}
      (runFound : db.findRun request.tenant request.run = some run)
      (loaded : db.loadGrantChainLocked request.tenant run.grantId = .ok chain)
      (effectFound : db.findEffect request.tenant request.run
        request.ordinal = some effect)
      (uncharged : effect.reservationCharged = false)
      (prepared : effect.state = .prepared)
      (now : epochMs (clock 0) = .ok nowMs)
      (planned : reservationPlan chain request.tenant nowMs effect.action
        effect.destination effect.project = .ok plan)
      (charged : grants.rows = db.grants.rows.map
        (GrantRow.charged request (plan.map Prod.fst)))
      (recorded : reservations.rows = db.effectReservations.rows ++
        request.rows (plan.map Prod.fst))
      (marked : Table.Replaced db.effects effects effect
        { effect with reservationCharged := true }) :
      Transition sha256 db clock (.reserveGrantChain request)
        (.reservation .created)
        { db with
          grants := grants
          effectReservations := reservations
          effects := effects }
  | leased {worker : String} {allowedTenants : List Uuid}
      {availableSlots : Nat} {policy : ClaimPolicy} {tenant : TenantRow}
      {row : RunRow} {chain : List Grant} {seq : Int} {stored : ModuleRow}
      {tenants : Table TenantRow.schema} {runs : Table RunRow.schema}
      {events : Table RunEventRow.schema} {expiresAt : Timestamp}
      (selected : db.Selected worker allowedTenants policy tenant row chain)
      (live : db.ChainLive tenant.id chain (clock 0))
      (numbered : db.schedulerState = some seq)
      (below : seq < i64Max)
      (bounded : expiresAt =
        leaseExpiry (clock 1 + (policy.leaseMs : Int) * 1000)
          (db.grantRows tenant.id (chain.map Grant.id)))
      (served : Table.Replaced db.tenants tenants tenant
        (tenant.servedAt (seq + 1)))
      (recorded : Recorded sha256 db runs events row
        (row.leasedBy worker expiresAt (clock 2))
        [("lease.claimed", claimPayload (row.leaseEpoch + 1) worker)])
      (moduleFound : db.findModule tenant.id row.moduleDigest = some stored) :
      Transition sha256 db clock
        (.claimRun worker allowedTenants availableSlots policy)
        (.lease (some
          { tenant := tenant.id
            run := row.id
            epoch := row.leaseEpoch + 1
            expiresAt := expiresAt
            moduleDigest := row.moduleDigest
            module := stored.wasm
            input := row.inputBytes.getD []
            limits := row.limits }))
        { db with
          schedulerState := some (seq + 1)
          tenants := tenants
          runs := runs
          runEvents := events }
  | denied {worker : String} {allowedTenants : List Uuid}
      {availableSlots : Nat} {policy : ClaimPolicy} {tenant : TenantRow}
      {row : RunRow} {chain : List Grant} {runs : Table RunRow.schema}
      {events : Table RunEventRow.schema}
      (selected : db.Selected worker allowedTenants policy tenant row chain)
      (dead : ¬ db.ChainLive tenant.id chain (clock 0))
      (recorded : Recorded sha256 db runs events row (row.deniedAt (clock 1))
        [("grant.denied", utf8 "\x7b\"reason\":\"inactive\"\x7d"),
          ("run.failed",
            utf8 "\x7b\"state\":\"failed\",\"error_code\":\"GRANT_DENIED\"\x7d")]) :
      Transition sha256 db clock
        (.claimRun worker allowedTenants availableSlots policy) (.lease none)
        { db with runs := runs, runEvents := events }
  | renewed {run : Uuid} {worker : String} {allowedTenants : List Uuid}
      {epoch : Int} {leaseMs : Nat} {row : RunRow} {grant : GrantRow}
      {runs : Table RunRow.schema} {expiresAt : Timestamp}
      (lease : row.LeasedTo db run worker allowedTenants epoch (clock 0))
      (active : row.state = .leased ∨ row.state = .running)
      (grantMember : grant ∈ db.grants.rows)
      (grantTenant : grant.tenantId = row.tenantId)
      (grantId : grant.id = row.grantId)
      (grantFresh : clock 1 < grant.expiresAt)
      (grantUnrevoked : grant.revokedAt = none)
      (bounded : expiresAt = min (clock 2 + (leaseMs : Int) * 1000)
        grant.expiresAt)
      (replaced : Table.Replaced db.runs runs row
        (row.renewedUntil expiresAt (clock 3))) :
      Transition sha256 db clock
        (.heartbeatRun run worker allowedTenants epoch leaseMs)
        (.heartbeat ⟨expiresAt, row.cancelRequested⟩) { db with runs := runs }
  | started {run : Uuid} {worker : String} {allowedTenants : List Uuid}
      {epoch : Int} {row : RunRow} {runs : Table RunRow.schema}
      {events : Table RunEventRow.schema}
      (lease : row.LeasedTo db run worker allowedTenants epoch (clock 0))
      (waiting : row.state = .leased)
      (recorded : Recorded sha256 db runs events row (row.startedAt (clock 1))
        [("runner.started", statePayload .running)]) :
      Transition sha256 db clock
        (.markRunStarted run worker allowedTenants epoch) .started
        { db with runs := runs, runEvents := events }
  | promoted {policy : ReapPolicy} {row : RunRow} {tenant : TenantRow}
      {runs : Table RunRow.schema} {events : Table RunEventRow.schema}
      (valid : policy.Valid)
      (room : db.queuedCount (fun _ => true) < policy.maxPendingGlobal)
      (candidate : db.waitingCandidate policy = some row)
      (member : row ∈ db.runs.rows)
      (tenantFound : db.findTenant row.tenantId = some tenant)
      (waiting : row.state = .retryWait)
      (free : row.activeSlotHeld = false)
      (recorded : Recorded sha256 db runs events row
        (row.movedTo (db.promotionVerdict policy row).1 (clock 0))
        [((db.promotionVerdict policy row).2.2,
          statePayload (db.promotionVerdict policy row).1)]) :
      Transition sha256 db clock (.reapOne policy)
        (.reaped (some (row.id, (db.promotionVerdict policy row).2.1)))
        { db with runs := runs, runEvents := events }
  | expired {policy : ReapPolicy} {row : RunRow} {tenant : TenantRow}
      {tenants : Table TenantRow.schema} {runs : Table RunRow.schema}
      {events : Table RunEventRow.schema}
      (valid : policy.Valid)
      (candidate : db.expiredCandidate (clock 0) = some row)
      (member : row ∈ db.runs.rows)
      (tenantFound : db.findTenant row.tenantId = some tenant)
      (counted : 0 < tenant.activeCount)
      (held : row.activeSlotHeld = true)
      (active : row.state = .leased ∨ row.state = .running)
      (overdue : row.expired (clock 1) = true)
      (released : Table.Replaced db.tenants tenants tenant tenant.slotReleased)
      (recorded : Recorded sha256 db runs events row
        (row.releasedTo (db.expiryVerdict policy tenant.queueLimit row).1
          (clock 2))
        [("lease.expired", utf8 "\x7b\"expired\":true\x7d"),
          ((db.expiryVerdict policy tenant.queueLimit row).2.2,
            statePayload (db.expiryVerdict policy tenant.queueLimit row).1)]) :
      Transition sha256 db clock (.reapOne policy)
        (.reaped (some (row.id,
          (db.expiryVerdict policy tenant.queueLimit row).2.1)))
        { db with tenants := tenants, runs := runs, runEvents := events }
  | finished {run : Uuid} {worker : String} {allowedTenants : List Uuid}
      {epoch : Int} {output : Option (List UInt8)} {errorCode : Option String}
      {row : RunRow} {tenant : TenantRow} {tenants : Table TenantRow.schema}
      {runs : Table RunRow.schema} {events : Table RunEventRow.schema}
      {record : RunRecord}
      (lease : row.LeasedTo db run worker allowedTenants epoch (clock 0))
      (running : row.state = .running)
      (tenantFound : db.findTenant row.tenantId = some tenant)
      (counted : 0 < tenant.activeCount)
      (resolved : db.unfinished row.tenantId run = false)
      (released : Table.Replaced db.tenants tenants tenant tenant.slotReleased)
      (recorded : Recorded sha256 db runs events row
        (row.finishedAs (row.finalVerdict errorCode).1 output errorCode
          (clock 1))
        [((row.finalVerdict errorCode).2,
          statePayload (row.finalVerdict errorCode).1)]) :
      Transition sha256 db clock
        (.finishRun run worker allowedTenants epoch output errorCode)
        (.finished record)
        { db with tenants := tenants, runs := runs, runEvents := events }
  | tenantProvisioned {id : Uuid} {queueLimit activeLimit : Int}
      {tenants : Table TenantRow.schema}
      (inserted : Table.Inserted db.tenants tenants
        ⟨id, queueLimit, activeLimit, 0, 0⟩) :
      Transition sha256 db clock (.provisionTenant id queueLimit activeLimit)
        .surroundings { db with tenants := tenants }
  | cancelRequested {tenant run : Uuid} {row : RunRow}
      {runs : Table RunRow.schema}
      (found : db.findRun tenant run = some row)
      (replaced : Table.Replaced db.runs runs row row.cancelAsked) :
      Transition sha256 db clock (.requestCancel tenant run) .surroundings
        { db with runs := runs }
  | cancelMissed {tenant run : Uuid} :
      Transition sha256 db clock (.requestCancel tenant run) .surroundings db
  | effectPrepared {intent : EffectIntent} {effects : Table EffectRow.schema}
      (runKnown : db.findRun intent.tenantId intent.runId ≠ none)
      (inserted : Table.Inserted db.effects effects intent.row) :
      Transition sha256 db clock (.prepareEffect intent) .surroundings
        { db with effects := effects }
  | effectMoved {tenant run : Uuid} {ordinal : Int} {target : EffectState}
      {row : EffectRow} {effects : Table EffectRow.schema}
      (found : db.findEffect tenant run ordinal = some row)
      (replaced : Table.Replaced db.effects effects row
        { row with state := target }) :
      Transition sha256 db clock (.moveEffect tenant run ordinal target)
        .surroundings { db with effects := effects }
  | moveMissed {tenant run : Uuid} {ordinal : Int} {target : EffectState} :
      Transition sha256 db clock (.moveEffect tenant run ordinal target)
        .surroundings db

end Database

end EffectLatch
