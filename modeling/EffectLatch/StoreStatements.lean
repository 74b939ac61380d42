import EffectLatch.StoreSchema
import Mathlib.Data.List.Sort

/-!
# Statements of the store

Lookups, inserts with their foreign keys, updates by primary key, the event
append and the locked load of a grant ancestry.  Operations are built from
these; a failed statement is an error and the caller rolls back.
-/

namespace EffectLatch

namespace Database

def findTenant (db : Database) (id : Uuid) : Option TenantRow :=
  db.tenants.rows.find? fun row => decide (row.id = id)

def findModule (db : Database) (tenant : Uuid) (digest : Digest) :
    Option ModuleRow :=
  db.modules.rows.find? fun row =>
    decide (row.tenantId = tenant ∧ row.digest = digest)

def findGrant (db : Database) (tenant id : Uuid) : Option GrantRow :=
  db.grants.rows.find? fun row => decide (row.tenantId = tenant ∧ row.id = id)

def findRun (db : Database) (tenant id : Uuid) : Option RunRow :=
  db.runs.rows.find? fun row => decide (row.tenantId = tenant ∧ row.id = id)

def findRunById (db : Database) (id : Uuid) : Option RunRow :=
  db.runs.rows.find? fun row => decide (row.id = id)

def findRunByKey (db : Database) (tenant : Uuid) (key : String) :
    Option RunRow :=
  db.runs.rows.find? fun row =>
    decide (row.tenantId = tenant ∧ row.idempotencyKey = key)

def findEffect (db : Database) (tenant run : Uuid) (ordinal : Int) :
    Option EffectRow :=
  db.effects.rows.find? fun row =>
    decide (row.tenantId = tenant ∧ row.runId = run ∧ row.ordinal = ordinal)

/-- The singleton row is locked, not read: only its absence is an error. -/
def beginScheduler (db : Database) : Except Error Unit :=
  Except.require (db.schedulerState ≠ none) .missingScheduler

def insertTenant (db : Database) (row : TenantRow) :
    Except Error Database := do
  let tenants ← Except.fetch (db.tenants.insert row) .database
  pure { db with tenants := tenants }

def insertModule (db : Database) (row : ModuleRow) :
    Except Error Database := do
  Except.require (db.findTenant row.tenantId ≠ none) .database
  let modules ← Except.fetch (db.modules.insert row) .database
  pure { db with modules := modules }

def insertGrant (db : Database) (row : GrantRow) :
    Except Error Database := do
  Except.require (db.findTenant row.tenantId ≠ none) .database
  Except.require
    (row.parentId.all (fun parent =>
      (db.findGrant row.tenantId parent).isSome) = true)
    .database
  let grants ← Except.fetch (db.grants.insert row) .database
  pure { db with grants := grants }

def insertRun (db : Database) (row : RunRow) : Except Error Database := do
  Except.require (db.findTenant row.tenantId ≠ none) .database
  Except.require (db.findModule row.tenantId row.moduleDigest ≠ none) .database
  Except.require (db.findGrant row.tenantId row.grantId ≠ none) .database
  let runs ← Except.fetch (db.runs.insert row) .database
  pure { db with runs := runs }

def insertEffect (db : Database) (row : EffectRow) :
    Except Error Database := do
  Except.require (db.findRun row.tenantId row.runId ≠ none) .database
  let effects ← Except.fetch (db.effects.insert row) .database
  pure { db with effects := effects }

def insertReservation (db : Database) (row : ReservationRow) :
    Except Error Database := do
  Except.require (db.findEffect row.tenantId row.runId row.ordinal ≠ none)
    .database
  Except.require (db.findGrant row.tenantId row.grantId ≠ none) .database
  let reservations ← Except.fetch (db.effectReservations.insert row) .database
  pure { db with effectReservations := reservations }

def insertRunEvent (db : Database) (row : RunEventRow) :
    Except Error Database := do
  Except.require (db.findRun row.tenantId row.runId ≠ none) .database
  let events ← Except.fetch (db.runEvents.insert row) .database
  pure { db with runEvents := events }

def insertOperatorEvent (db : Database) (row : OperatorEventRow) :
    Except Error Database := do
  Except.require (db.findTenant row.tenantId ≠ none) .database
  pure { db with operatorEvents := db.operatorEvents ++ [row] }

def updateTenants (db : Database) (selected : TenantRow → Bool)
    (change : TenantRow → TenantRow)
    (keepsKey : ∀ row,
      TenantRow.schema.key (change row) = TenantRow.schema.key row) :
    Except Error Database := do
  let tenants ← Except.fetch (db.tenants.update selected change keepsKey)
    .database
  pure { db with tenants := tenants }

def updateGrants (db : Database) (selected : GrantRow → Bool)
    (change : GrantRow → GrantRow)
    (keepsKey : ∀ row,
      GrantRow.schema.key (change row) = GrantRow.schema.key row) :
    Except Error Database := do
  let grants ← Except.fetch (db.grants.update selected change keepsKey)
    .database
  pure { db with grants := grants }

def updateRuns (db : Database) (selected : RunRow → Bool)
    (change : RunRow → RunRow)
    (keepsKey : ∀ row, RunRow.schema.key (change row) = RunRow.schema.key row) :
    Except Error Database := do
  let runs ← Except.fetch (db.runs.update selected change keepsKey) .database
  pure { db with runs := runs }

/-- `UPDATE runs ... WHERE tenant_id=$1 AND id=$2`. -/
def updateRun (db : Database) (tenant id : Uuid) (change : RunRow → RunRow)
    (keepsKey : ∀ row, RunRow.schema.key (change row) = RunRow.schema.key row) :
    Except Error Database :=
  db.updateRuns (fun row => decide (row.tenantId = tenant ∧ row.id = id))
    change keepsKey

def updateEffects (db : Database) (selected : EffectRow → Bool)
    (change : EffectRow → EffectRow)
    (keepsKey : ∀ row,
      EffectRow.schema.key (change row) = EffectRow.schema.key row) :
    Except Error Database := do
  let effects ← Except.fetch (db.effects.update selected change keepsKey)
    .database
  pure { db with effects := effects }

/-- Append exact payload bytes and move the head of the run's event chain. -/
def appendEvent (sha256 : Sha256) (db : Database) (tenant run : Uuid)
    (kind : String) (payload : List UInt8) :
    Except Error Database := do
  Except.require
    ((utf8 kind).length ≠ 0 ∧ (utf8 kind).length ≤ 128 ∧
      payload.length ≤ 16384)
    (.configuration "invalid event kind or payload size")
  let head ← Except.fetch (db.findRun tenant run) .runNotFound
  let seq := head.nextEventSeq
  Except.require (seq + 1 ≤ i64Max ∧ 0 < seq) .corruptEventHead
  let previous := head.lastEventHash
  let hash := Hash.event sha256 tenant run seq.toNat previous kind payload
  let db ← db.insertRunEvent
    { tenantId := tenant
      runId := run
      seq := seq
      kind := kind
      payload := payload
      prevHash := previous
      eventHash := hash }
  db.updateRun tenant run
    (fun row => { row with nextEventSeq := seq + 1, lastEventHash := hash })
    (fun _ => rfl)

end Database

/-- `serde_json` of a one-field state object. -/
def statePayload (state : RunState) : List UInt8 :=
  utf8 ("\x7b\"state\":\"" ++ state.text ++ "\"\x7d")

/-- `floor(extract(epoch FROM ...)*1000)::bigint`. -/
def epochMs (timestamp : Timestamp) : Except Error Int64 := do
  Except.require
    (i64Min ≤ timestamp / 1000 ∧ timestamp / 1000 ≤ i64Max) .database
  pure (Int64.ofInt (timestamp / 1000))

/-- The columns the recursive ancestry query selects and deduplicates on. -/
def GrantRow.link (row : GrantRow) : Uuid × Option Uuid × Int :=
  (row.id, row.parentId, row.depth)

/-- Decode a locked grant row. -/
def GrantRow.toGrant (row : GrantRow) (tenant : Uuid) :
    Except Error Grant := do
  let expiresAtMs ← epochMs row.expiresAt
  Except.require (0 ≤ row.depth ∧ row.depth < 256) .corruptGrant
  Except.require (0 ≤ row.maxEffects) .corruptGrant
  Except.require (0 ≤ row.usedEffects) .corruptGrant
  pure
    { id := row.id
      tenantId := tenant
      parentId := row.parentId
      depth := UInt8.ofNat row.depth.toNat
      authority :=
        { actions := OrderedSet.ofList row.actions
          destinations := OrderedSet.ofList row.destinations
          projects := OrderedSet.ofList row.projects
          expiresAtMs := expiresAtMs
          maxEffects := UInt64.ofNat row.maxEffects.toNat }
      usedEffects := UInt64.ofNat row.usedEffects.toNat
      revoked := row.revokedAt.isSome }

/-- How a structural re-validation failure is reported. -/
def structuralError (reason : GrantError) : Error :=
  match reason with
  | .inactive => .corruptGrant
  | other => .grantValidation other

namespace Database

/-- The recursive term of the ancestry query: follow the parent link of the
latest row until it is missing or already collected.  The fuel is the size of
the table, since every round collects a new row. -/
def ancestorRows (db : Database) (tenant : Uuid) :
    Nat → List GrantRow → GrantRow → List GrantRow
  | 0, collected, _ => collected
  | fuel + 1, collected, latest =>
      match latest.parentId.bind (db.findGrant tenant) with
      | none => collected
      | some parent =>
          if parent.link ∈ collected.map GrantRow.link then collected
          else ancestorRows db tenant fuel (parent :: collected) parent

/-- `SELECT id FROM chain ORDER BY depth`. -/
def chainIds (db : Database) (tenant leaf : Uuid) : List Uuid :=
  match db.findGrant tenant leaf with
  | none => []
  | some row =>
      ((db.ancestorRows tenant db.grants.rows.length [row] row).insertionSort
        fun first second => first.depth ≤ second.depth).map GrantRow.id

def loadGrantChainLocked (db : Database) (tenant leaf : Uuid) :
    Except Error (List Grant) := do
  let ids := db.chainIds tenant leaf
  Except.require (ids ≠ [] ∧ ids.length ≤ 5) .grantNotFound
  let chain ← ids.mapM fun id => do
    let row ← Except.fetch (db.findGrant tenant id) .grantNotFound
    row.toGrant tenant
  let structural := chain.map fun grant => { grant with revoked := false }
  (validateChain structural tenant Int64.minValue).mapError structuralError
  pure chain

end Database

structure EffectRecord where
  ordinal : Int
  state : EffectState
  requestHash : Digest
  providerKey : String
  sendAttempts : Int
deriving DecidableEq

structure RunRecord where
  id : Uuid
  state : RunState
  moduleDigest : Digest
  grantId : Uuid
  createdAt : Timestamp
  updatedAt : Timestamp
  leaseEpoch : Int
  attempt : Int
  cancelRequested : Bool
  output : Option (List UInt8)
  errorCode : Option String
  effects : List EffectRecord
deriving DecidableEq

structure GrantRecord where
  id : Uuid
  parentId : Option Uuid
  depth : Int
  actions : List String
  destinations : List String
  projects : List String
  expiresAt : Timestamp
  maxEffects : Int
  usedEffects : Int
  revokedAt : Option Timestamp
  ancestry : List Uuid
deriving DecidableEq

namespace Database

def effectRecords (db : Database) (tenant run : Uuid) : List EffectRecord :=
  ((db.effects.rows.filter fun row =>
      decide (row.tenantId = tenant ∧ row.runId = run)).insertionSort
    fun first second => first.ordinal ≤ second.ordinal).map fun row =>
      { ordinal := row.ordinal
        state := row.state
        requestHash := row.requestHash
        providerKey := row.providerKey
        sendAttempts := row.sendAttempts }

def fetchRunByKey (db : Database) (tenant : Uuid) (key : String) :
    Except Error RunRecord := do
  let row ← Except.fetch (db.findRunByKey tenant key) .runNotFound
  pure
    { id := row.id
      state := row.state
      moduleDigest := row.moduleDigest
      grantId := row.grantId
      createdAt := row.createdAt
      updatedAt := row.updatedAt
      leaseEpoch := row.leaseEpoch
      attempt := row.attempt
      cancelRequested := row.cancelRequested
      output := row.outputBytes
      errorCode := row.errorCode
      effects := db.effectRecords tenant row.id }

def fetchGrantRecord (db : Database) (tenant id : Uuid)
    (ancestry : List Uuid) : Except Error GrantRecord := do
  let row ← Except.fetch (db.findGrant tenant id) .grantNotFound
  pure
    { id := row.id
      parentId := row.parentId
      depth := row.depth
      actions := row.actions
      destinations := row.destinations
      projects := row.projects
      expiresAt := row.expiresAt
      maxEffects := row.maxEffects
      usedEffects := row.usedEffects
      revokedAt := row.revokedAt
      ancestry := ancestry }

end Database

end EffectLatch
