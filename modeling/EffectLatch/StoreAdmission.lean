import EffectLatch.StoreStatements

/-!
# Module upload and run admission
-/

namespace EffectLatch

inductive PutModule where
  | created
  | existing
deriving DecidableEq

inductive AdmissionKind where
  | created
  | existing
deriving DecidableEq

structure Admission where
  kind : AdmissionKind
  run : RunRecord
deriving DecidableEq

namespace Database

/-- Store content under the credential-derived tenant. -/
def putModule (db : Database) (tenant : Uuid) (digest : Digest)
    (wasm : List UInt8) : Except Error (PutModule × Database) := do
  Except.require (wasm ≠ [] ∧ wasm.length ≤ moduleBytes)
    (.configuration "invalid module size")
  match db.findModule tenant digest with
  | none => do
      let inserted ← db.insertModule
        { tenantId := tenant, digest := digest, wasm := wasm }
      pure (.created, inserted)
  | some stored => do
      Except.require (stored.wasm = wasm) .database
      pure (.existing, db)

/-- Answer a submission whose key is already bound. -/
def admitExisting (db : Database) (tenant : Uuid) (key : String)
    (stored requestHash : Digest) : Except Error (Admission × Database) := do
  Except.require (stored = requestHash) .idempotencyConflict
  let run ← db.fetchRunByKey tenant key
  pure (⟨.existing, run⟩, db)

def pendingCount (db : Database) (counted : RunRow → Bool) : Nat :=
  db.runs.rows.countP fun row =>
    counted row && (row.state == .queued || row.state == .retryWait)

/-- `EXISTS` of an unrevoked and unexpired grant row, ancestors not
considered. -/
def grantLive (db : Database) (tenant grant : Uuid) (now : Timestamp) : Bool :=
  db.grants.rows.any fun row =>
    decide (row.tenantId = tenant ∧ row.id = grant ∧ row.revokedAt = none ∧
      now < row.expiresAt)

/-- The row a fresh admission inserts; columns not named take their
defaults. -/
def admittedRow (sha256 : Sha256) (clock : Clock) (runId tenant : Uuid)
    (key : String) (request : NormalizedRun) : RunRow where
  tenantId := tenant
  id := runId
  idempotencyKey := key
  requestHash := Hash.run sha256 request
  moduleDigest := request.moduleDigest
  grantId := request.grantId
  inputBytes := some request.input
  outputBytes := none
  limits := request.limits
  state := .queued
  leaseEpoch := 0
  leaseOwner := none
  leaseExpiresAt := none
  attempt := 0
  activeSlotHeld := false
  cancelRequested := false
  errorCode := none
  nextEventSeq := 1
  lastEventHash := Digest.zero
  createdAt := clock 1
  updatedAt := clock 2

/-- Insert the run and its first event.  The conflict arm of the insert
answers like an existing key. -/
def admitFresh (sha256 : Sha256) (db : Database) (clock : Clock)
    (runId tenant : Uuid) (key : String) (request : NormalizedRun) :
    Except Error (Admission × Database) :=
  match db.findRunByKey tenant key with
  | some row =>
      db.admitExisting tenant key row.requestHash (Hash.run sha256 request)
  | none => do
      let inserted ← db.insertRun
        (admittedRow sha256 clock runId tenant key request)
      let logged ← inserted.appendEvent sha256 tenant runId "run.admitted"
        (statePayload .queued)
      let run ← logged.fetchRunByKey tenant key
      pure (⟨.created, run⟩, logged)

/-- Admit a normalized request under the global scheduler lock.  `runId` is the
fresh UUID.  An existing identity is answered before module, grant and queue
capacity are looked at. -/
def admitRun (sha256 : Sha256) (db : Database) (clock : Clock)
    (runId : Uuid) (tenant : Uuid) (key : String) (request : NormalizedRun)
    (maxPendingGlobal maxPendingTenant : Nat) :
    Except Error (Admission × Database) := do
  Except.require
    ((utf8 key).length ≠ 0 ∧ (utf8 key).length ≤ 128 ∧
      (utf8 key).all isAsciiGraphic = true ∧
      maxPendingGlobal ≠ 0 ∧ maxPendingGlobal ≤ 1000 ∧
      maxPendingTenant ≠ 0 ∧ maxPendingTenant ≤ 100 ∧
      maxPendingTenant ≤ maxPendingGlobal)
    (.configuration "invalid admission parameters")
  db.beginScheduler
  let tenantRow ← Except.fetch (db.findTenant tenant) .grantDenied
  match db.findRunByKey tenant key with
  | some row =>
      db.admitExisting tenant key row.requestHash (Hash.run sha256 request)
  | none => do
      Except.require (db.findModule tenant request.moduleDigest ≠ none)
        .moduleNotFound
      Except.require (db.grantLive tenant request.grantId (clock 0) = true)
        .grantDenied
      let globalPending := db.pendingCount fun _ => true
      let tenantPending := db.pendingCount fun row =>
        decide (row.tenantId = tenant)
      let effectiveTenantLimit :=
        min (tenantRow.queueLimit % 2 ^ 32).toNat maxPendingTenant
      Except.require
        (globalPending < maxPendingGlobal ∧
          tenantPending < effectiveTenantLimit)
        .capacityExhausted
      db.admitFresh sha256 clock runId tenant key request

end Database

end EffectLatch
