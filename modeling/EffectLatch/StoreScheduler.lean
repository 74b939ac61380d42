import EffectLatch.StoreStatements

/-!
# Durable scheduler and lease fencing

The five operations that move a run between the queue, a worker's lease and its
final state.  Each takes the successive clock readings of its statements.
-/

namespace EffectLatch

structure Lease where
  tenant : Uuid
  run : Uuid
  epoch : Int
  expiresAt : Timestamp
  moduleDigest : Digest
  module : List UInt8
  input : List UInt8
  limits : Limits
deriving DecidableEq

structure Heartbeat where
  expiresAt : Timestamp
  cancelRequested : Bool
deriving DecidableEq

structure ClaimPolicy where
  maxActiveGlobal : Nat
  maxActivePerTenant : Nat
  maxAttempts : Nat
  leaseMs : Nat
deriving DecidableEq

structure ReapPolicy where
  maxAttempts : Nat
  maxPendingGlobal : Nat
  maxPendingTenant : Nat
deriving DecidableEq

inductive Reaped where
  | requeued
  | waitingForQueue
  | needsReconciliation
  | cancelled
  | failed
deriving DecidableEq

def workerIdentifier (worker : String) : Bool := shortIdentifier worker

/-- `serde_json` of the claim event; a worker identifier needs no escape. -/
def claimPayload (epoch : Int) (worker : String) : List UInt8 :=
  utf8 ("\x7b\"epoch\":" ++ toString epoch ++ ",\"worker_id\":\"" ++ worker ++
    "\"\x7d")

namespace RunRow

/-- `ORDER BY created_at,id`. -/
def older (first second : RunRow) : Bool :=
  decide (first.createdAt < second.createdAt ∨
    (first.createdAt = second.createdAt ∧ first.id < second.id))

/-- `lease_expires_at>clock_timestamp()`, with null as false. -/
def live (row : RunRow) (now : Timestamp) : Bool :=
  match row.leaseExpiresAt with
  | some expiry => decide (now < expiry)
  | none => false

/-- `lease_expires_at<=clock_timestamp()`, with null as false. -/
def expired (row : RunRow) (now : Timestamp) : Bool :=
  match row.leaseExpiresAt with
  | some expiry => decide (expiry ≤ now)
  | none => false

/-- Waiting in the queue, not cancelled and with an attempt left. -/
def claimable (maxAttempts : Nat) (row : RunRow) : Bool :=
  decide (row.state = .queued ∧ row.cancelRequested = false ∧
    row.attempt < maxAttempts)

end RunRow

namespace Database

/-- The tenant and run the claim query selects: the least recently served
allowed tenant with a free slot, and its oldest claimable run. -/
def claimCandidate (db : Database) (allowed : List Uuid)
    (policy : ClaimPolicy) : Option (TenantRow × RunRow) :=
  (db.tenants.rows.filterMap fun tenant =>
      if tenant.id ∈ allowed ∧
          tenant.activeCount <
            min tenant.activeLimit (policy.maxActivePerTenant : Int) then
        ((db.runs.rows.filter fun row =>
            decide (row.tenantId = tenant.id) &&
              row.claimable policy.maxAttempts).first RunRow.older).map
          fun run => (tenant, run)
      else
        none).first fun one other =>
    decide (one.1.lastServedSeq < other.1.lastServedSeq ∨
      (one.1.lastServedSeq = other.1.lastServedSeq ∧ one.1.id < other.1.id))

/-- The rows `id=ANY($2)` selects in one tenant. -/
def grantRows (db : Database) (tenant : Uuid) (ids : List Uuid) :
    List GrantRow :=
  db.grants.rows.filter fun row =>
    decide (row.tenantId = tenant ∧ row.id ∈ ids)

/-- `LEAST(limit, (SELECT min(expires_at) ...))`; a null minimum is
ignored. -/
def leaseExpiry (limit : Timestamp) (rows : List GrantRow) : Timestamp :=
  (rows.map GrantRow.expiresAt).foldl min limit

/-- Fail a selected run whose ancestry is not live. -/
def denyGrant (sha256 : Sha256) (db : Database) (clock : Clock)
    (tenant run : Uuid) : Except Error (Option Lease × Database) := do
  let failed ← db.updateRun tenant run
    (fun row => { row with
      state := .failed
      errorCode := some "GRANT_DENIED"
      updatedAt := clock 1 })
    (fun _ => rfl)
  let denied ← failed.appendEvent sha256 tenant run "grant.denied"
    (utf8 "\x7b\"reason\":\"inactive\"\x7d")
  let logged ← denied.appendEvent sha256 tenant run "run.failed"
    (utf8 "\x7b\"state\":\"failed\",\"error_code\":\"GRANT_DENIED\"\x7d")
  pure (none, logged)

/-- Issue the lease of a selected run whose ancestry is live. -/
def issueLease (sha256 : Sha256) (db : Database) (clock : Clock)
    (worker : String) (policy : ClaimPolicy) (tenant run : Uuid)
    (grantIds : List Uuid) : Except Error (Option Lease × Database) := do
  let dispatchSeq ← Except.fetch db.schedulerState .corruptScheduler
  Except.require (dispatchSeq < i64Max) .corruptScheduler
  let numbered := { db with schedulerState := some (dispatchSeq + 1) }
  let served ← numbered.updateTenants (fun row => decide (row.id = tenant))
    (fun row => { row with
      activeCount := row.activeCount + 1
      lastServedSeq := dispatchSeq + 1 })
    (fun _ => rfl)
  let expiresAt := leaseExpiry (clock 1 + (policy.leaseMs : Int) * 1000)
    (db.grantRows tenant grantIds)
  let leased ← served.updateRun tenant run
    (fun row => { row with
      state := .leased
      leaseEpoch := row.leaseEpoch + 1
      leaseOwner := some worker
      leaseExpiresAt := some expiresAt
      attempt := row.attempt + 1
      activeSlotHeld := true
      updatedAt := clock 2 })
    (fun _ => rfl)
  let row ← Except.fetch (leased.findRun tenant run) .database
  let module ← Except.fetch (leased.findModule tenant row.moduleDigest)
    .database
  let logged ← leased.appendEvent sha256 tenant run "lease.claimed"
    (claimPayload row.leaseEpoch worker)
  pure (some
    { tenant := tenant
      run := run
      epoch := row.leaseEpoch
      expiresAt := expiresAt
      moduleDigest := row.moduleDigest
      module := module.wasm
      input := row.inputBytes.getD []
      limits := row.limits }, logged)

/-- The part of `claimRun` after a candidate was selected. -/
def claimSelected (sha256 : Sha256) (db : Database) (clock : Clock)
    (worker : String) (policy : ClaimPolicy) (tenant run : Uuid) :
    Except Error (Option Lease × Database) := do
  let tenantRow ← Except.fetch (db.findTenant tenant) .database
  Except.require
    (0 ≤ tenantRow.activeCount ∧
      tenantRow.activeCount < tenantRow.activeLimit ∧
      tenantRow.activeCount < policy.maxActivePerTenant)
    .corruptScheduler
  let runRow ← Except.fetch (db.findRun tenant run) .database
  Except.require
    (runRow.state = .queued ∧ runRow.activeSlotHeld = false ∧
      runRow.leaseEpoch ≠ i64Max ∧ runRow.attempt < policy.maxAttempts)
    .corruptScheduler
  let chain ← db.loadGrantChainLocked tenant runRow.grantId
  let grantIds := chain.map Grant.id
  Except.require (db.grantRows tenant grantIds ≠ []) .database
  if (db.grantRows tenant grantIds).all (fun row =>
      decide (row.revokedAt = none ∧ clock 0 < row.expiresAt)) then
    db.issueLease sha256 clock worker policy tenant run grantIds
  else
    db.denyGrant sha256 clock tenant run

/-- Claim at most one run. -/
def claimRun (sha256 : Sha256) (db : Database) (clock : Clock)
    (worker : String) (allowedTenants : List Uuid) (availableSlots : Nat)
    (policy : ClaimPolicy) : Except Error (Option Lease × Database) := do
  Except.require
    (workerIdentifier worker = true ∧ allowedTenants ≠ [] ∧
      allowedTenants.length ≤ 1024 ∧
      (1 ≤ availableSlots ∧ availableSlots ≤ 2) ∧
      (1 ≤ policy.maxActiveGlobal ∧ policy.maxActiveGlobal ≤ 4) ∧
      policy.maxActivePerTenant = 1 ∧
      (1 ≤ policy.maxAttempts ∧ policy.maxAttempts ≤ 3) ∧
      (1 ≤ policy.leaseMs ∧ policy.leaseMs ≤ 6000))
    (.configuration "invalid claim parameters")
  db.beginScheduler
  let active := (db.tenants.rows.map TenantRow.activeCount).sum
  Except.require (0 ≤ active ∧ active ≤ 4) .corruptScheduler
  if (policy.maxActiveGlobal : Int) ≤ active then
    pure (none, db)
  else if 2 ≤ db.runs.rows.countP (fun row =>
      decide (row.activeSlotHeld = true ∧ row.leaseOwner = some worker)) then
    pure (none, db)
  else
    match db.claimCandidate allowedTenants policy with
    | none => pure (none, db)
    | some (tenant, run) =>
        db.claimSelected sha256 clock worker policy tenant.id run.id

/-- The `WHERE` clause of the renewal besides the primary key.  Only the leaf
grant is looked at. -/
def renewable (db : Database) (clock : Clock) (worker : String)
    (epoch : Int) (row : RunRow) : Bool :=
  decide (row.leaseOwner = some worker ∧ row.leaseEpoch = epoch ∧
    row.live (clock 0) = true ∧ row.activeSlotHeld = true ∧
    (row.state = .leased ∨ row.state = .running)) &&
  db.grants.rows.any fun grant =>
    decide (grant.tenantId = row.tenantId ∧ grant.id = row.grantId ∧
      clock 1 < grant.expiresAt ∧ grant.revokedAt = none)

/-- Renew a live lease up to the expiry of the run's own grant. -/
def heartbeatRun (db : Database) (clock : Clock) (run : Uuid)
    (worker : String) (allowedTenants : List Uuid) (epoch : Int)
    (leaseMs : Nat) : Except Error (Heartbeat × Database) := do
  Except.require
    (workerIdentifier worker = true ∧ 0 < epoch ∧ 1 ≤ leaseMs ∧
      leaseMs ≤ 6000)
    (.configuration "invalid heartbeat parameters")
  let found ← Except.fetch (db.findRunById run) .runNotFound
  Except.require (found.tenantId ∈ allowedTenants) .runNotFound
  let selected : RunRow → Bool := fun row =>
    decide (row.tenantId = found.tenantId ∧ row.id = run) &&
      db.renewable clock worker epoch row
  let row ← Except.fetch (db.runs.rows.find? selected) .leaseConflict
  let expiresAt := leaseExpiry (clock 2 + (leaseMs : Int) * 1000)
    (db.grantRows row.tenantId [row.grantId])
  let renewed ← db.updateRuns selected
    (fun row => { row with
      leaseExpiresAt := some expiresAt
      updatedAt := clock 3 })
    (fun _ => rfl)
  pure (⟨expiresAt, row.cancelRequested⟩, renewed)

/-- Record child readiness under the currently live lease.  Repeating the call
on the same running lease changes nothing. -/
def markRunStarted (sha256 : Sha256) (db : Database) (clock : Clock)
    (run : Uuid) (worker : String) (allowedTenants : List Uuid)
    (epoch : Int) : Except Error Database := do
  Except.require (workerIdentifier worker = true ∧ 0 < epoch)
    (.configuration "invalid started parameters")
  let found ← Except.fetch (db.findRunById run) .runNotFound
  Except.require (found.tenantId ∈ allowedTenants) .runNotFound
  let row ← Except.fetch (db.findRun found.tenantId run) .database
  Except.require
    (row.leaseOwner = some worker ∧ row.leaseEpoch = epoch ∧
      row.live (clock 0) = true ∧ row.activeSlotHeld = true ∧
      (row.state = .leased ∨ row.state = .running))
    .leaseConflict
  if row.state = .leased then do
    let started ← db.updateRun found.tenantId run
      (fun row => { row with state := .running, updatedAt := clock 1 })
      (fun _ => rfl)
    started.appendEvent sha256 found.tenantId run "runner.started"
      (statePayload .running)
  else
    pure db

/-- Some effect of the run is in flight or of unknown outcome. -/
def uncertain (db : Database) (tenant run : Uuid) : Bool :=
  db.effects.rows.any fun row =>
    decide (row.tenantId = tenant ∧ row.runId = run ∧
      (row.state = .dispatching ∨ row.state = .outcomeUnknown))

/-- Some effect of the run is prepared, in flight or of unknown outcome. -/
def unfinished (db : Database) (tenant run : Uuid) : Bool :=
  db.effects.rows.any fun row =>
    decide (row.tenantId = tenant ∧ row.runId = run ∧
      (row.state = .prepared ∨ row.state = .dispatching ∨
        row.state = .outcomeUnknown))

def queuedCount (db : Database) (counted : RunRow → Bool) : Nat :=
  db.runs.rows.countP fun row => counted row && row.state == .queued

/-- The oldest deferred retry whose tenant has queue room. -/
def waitingCandidate (db : Database) (policy : ReapPolicy) : Option RunRow :=
  (db.runs.rows.filter fun row =>
    row.state == .retryWait && db.tenants.rows.any fun tenant =>
      decide (tenant.id = row.tenantId ∧
        (db.queuedCount (fun other => decide (other.tenantId = row.tenantId)) :
            Int) < min tenant.queueLimit policy.maxPendingTenant)).first
    RunRow.older

/-- The held slot whose lease expired first. -/
def expiredCandidate (db : Database) (now : Timestamp) : Option RunRow :=
  (db.runs.rows.filter fun row =>
    decide (row.activeSlotHeld = true ∧
      (row.state = .leased ∨ row.state = .running)) && row.expired now).first
    fun one other =>
      decide (one.leaseExpiresAt.getD 0 < other.leaseExpiresAt.getD 0 ∨
        (one.leaseExpiresAt.getD 0 = other.leaseExpiresAt.getD 0 ∧
          one.id < other.id))

/-- The state, the outcome and the event kind of a reaped run. -/
abbrev Verdict := RunState × Reaped × String

def reconcileVerdict : Verdict :=
  (.needsReconciliation, .needsReconciliation, "run.needs_reconciliation")

def cancelVerdict : Verdict := (.cancelled, .cancelled, "run.cancelled")

def failVerdict : Verdict := (.failed, .failed, "run.failed")

def waitVerdict : Verdict := (.retryWait, .waitingForQueue, "run.retry_wait")

def requeueVerdict : Verdict := (.queued, .requeued, "run.requeued")

/-- Where a deferred retry goes. -/
def promotionVerdict (db : Database) (policy : ReapPolicy) (row : RunRow) :
    Verdict :=
  if db.uncertain row.tenantId row.id then reconcileVerdict
  else if row.cancelRequested then cancelVerdict
  else if (policy.maxAttempts : Int) ≤ row.attempt then failVerdict
  else requeueVerdict

/-- Promote one deferred retry. -/
def promote (sha256 : Sha256) (db : Database) (clock : Clock)
    (policy : ReapPolicy) (tenant run : Uuid) :
    Except Error (Option (Uuid × Reaped) × Database) := do
  let _ ← Except.fetch (db.findTenant tenant) .database
  let row ← Except.fetch (db.findRun tenant run) .database
  Except.require (row.state = .retryWait ∧ row.activeSlotHeld = false)
    .corruptScheduler
  let verdict := db.promotionVerdict policy row
  let moved ← db.updateRun tenant run
    (fun row => { row with state := verdict.1, updatedAt := clock 0 })
    (fun _ => rfl)
  let logged ← moved.appendEvent sha256 tenant run verdict.2.2
    (statePayload verdict.1)
  pure (some (run, verdict.2.1), logged)

/-- Where an expired run goes.  The global count is the one taken at the start
of the sweep. -/
def expiryVerdict (db : Database) (policy : ReapPolicy) (queueLimit : Int)
    (row : RunRow) : Verdict :=
  if db.uncertain row.tenantId row.id then reconcileVerdict
  else if row.cancelRequested then cancelVerdict
  else if (policy.maxAttempts : Int) ≤ row.attempt then failVerdict
  else if policy.maxPendingGlobal ≤ db.queuedCount (fun _ => true) ∨
      min queueLimit policy.maxPendingTenant ≤
        (db.queuedCount (fun other => decide (other.tenantId = row.tenantId)) :
          Int) then
    waitVerdict
  else requeueVerdict

/-- `UPDATE tenants SET active_count=active_count-1 WHERE id=$1 AND
active_count>0`, which must hit one row. -/
def releaseSlot (db : Database) (tenant : Uuid) :
    Except Error Database := do
  let selected : TenantRow → Bool := fun row =>
    decide (row.id = tenant ∧ 0 < row.activeCount)
  let released ← db.updateTenants selected
    (fun row => { row with activeCount := row.activeCount - 1 })
    (fun _ => rfl)
  Except.require (db.tenants.rows.countP selected = 1) .corruptScheduler
  pure released

/-- Reassess one expired slot. -/
def expire (sha256 : Sha256) (db : Database) (clock : Clock)
    (policy : ReapPolicy) (tenant run : Uuid) :
    Except Error (Option (Uuid × Reaped) × Database) := do
  let tenantRow ← Except.fetch (db.findTenant tenant) .database
  Except.require (0 < tenantRow.activeCount) .corruptScheduler
  let row ← Except.fetch (db.findRun tenant run) .database
  Except.require (row.activeSlotHeld = true) .corruptScheduler
  if row.expired (clock 1) = false then
    pure (none, db)
  else do
    let verdict := db.expiryVerdict policy tenantRow.queueLimit row
    let released ← db.releaseSlot tenant
    let moved ← released.updateRun tenant run
      (fun row => { row with
        state := verdict.1
        activeSlotHeld := false
        leaseOwner := none
        leaseExpiresAt := none
        updatedAt := clock 2 })
      (fun _ => rfl)
    let expired ← moved.appendEvent sha256 tenant run "lease.expired"
      (utf8 "\x7b\"expired\":true\x7d")
    let logged ← expired.appendEvent sha256 tenant run verdict.2.2
      (statePayload verdict.1)
    pure (some (run, verdict.2.1), logged)

/-- Promote a deferred retry when the queue has room, else reassess one expired
slot. -/
def reapOne (sha256 : Sha256) (db : Database) (clock : Clock)
    (policy : ReapPolicy) :
    Except Error (Option (Uuid × Reaped) × Database) := do
  Except.require
    ((1 ≤ policy.maxAttempts ∧ policy.maxAttempts ≤ 3) ∧
      (1 ≤ policy.maxPendingGlobal ∧ policy.maxPendingGlobal ≤ 1000) ∧
      (1 ≤ policy.maxPendingTenant ∧ policy.maxPendingTenant ≤ 100) ∧
      policy.maxPendingTenant ≤ policy.maxPendingGlobal)
    (.configuration "invalid reaper limits")
  db.beginScheduler
  let waiting :=
    if db.queuedCount (fun _ => true) < policy.maxPendingGlobal then
      db.waitingCandidate policy
    else none
  match waiting with
  | some row => db.promote sha256 clock policy row.tenantId row.id
  | none =>
      match db.expiredCandidate (clock 0) with
      | none => pure (none, db)
      | some row => db.expire sha256 clock policy row.tenantId row.id

/-- Final output is fenced against the live lease. -/
def finishRun (sha256 : Sha256) (db : Database) (clock : Clock) (run : Uuid)
    (worker : String) (allowedTenants : List Uuid) (epoch : Int)
    (output : Option (List UInt8)) (errorCode : Option String) :
    Except Error (RunRecord × Database) := do
  Except.require
    (workerIdentifier worker = true ∧ 0 < epoch ∧
      (∀ value ∈ output, value.length ≤ 65536) ∧
      (∀ value ∈ errorCode, (utf8 value).length ≠ 0 ∧
        (utf8 value).length ≤ 64 ∧
        (utf8 value).all (fun byte => isAsciiUppercase byte || byte == 0x5f) =
          true) ∧
      ¬ (output.isSome = true ∧ errorCode.isSome = true))
    (.configuration "invalid finish parameters")
  db.beginScheduler
  let found ← Except.fetch (db.findRunById run) .runNotFound
  Except.require (found.tenantId ∈ allowedTenants) .runNotFound
  let tenantRow ← Except.fetch (db.findTenant found.tenantId) .database
  Except.require (0 < tenantRow.activeCount) .corruptScheduler
  let row ← Except.fetch (db.findRun found.tenantId run) .database
  Except.require
    (row.state = .running ∧ row.leaseOwner = some worker ∧
      row.leaseEpoch = epoch ∧ row.live (clock 0) = true ∧
      row.activeSlotHeld = true)
    .leaseConflict
  Except.require (db.unfinished found.tenantId run = false) .leaseConflict
  let verdict : RunState × String :=
    if row.cancelRequested then (.cancelled, "run.cancelled")
    else if errorCode.isSome then (.failed, "run.failed")
    else (.succeeded, "run.succeeded")
  let released ← db.releaseSlot found.tenantId
  let finished ← released.updateRun found.tenantId run
    (fun row => { row with
      state := verdict.1
      outputBytes := output
      errorCode := errorCode
      activeSlotHeld := false
      leaseOwner := none
      leaseExpiresAt := none
      updatedAt := clock 1 })
    (fun _ => rfl)
  let logged ← finished.appendEvent sha256 found.tenantId run verdict.2
    (statePayload verdict.1)
  let result ← logged.fetchRunByKey found.tenantId row.idempotencyKey
  pure (result, logged)

end Database

end EffectLatch
