import EffectLatch.DomainHashing
import EffectLatch.DomainStates
import EffectLatch.RelationalTables

/-!
# The PostgreSQL schema

The tables of both migrations with their primary keys, unique column sets and
check clauses.  Columns that no modelled statement reads or writes are left
out.  Integers of the database are `Int`, timestamps are microseconds since the
epoch, and a `text` state column is the state it spells.
-/

namespace EffectLatch

abbrev Timestamp := Int

/-- Successive readings of `clock_timestamp()` within one operation. -/
abbrev Clock := Nat → Timestamp

/-- The errors of the store crate that the modelled operations return.
`database` stands for every failed statement, constraint violations
included. -/
inductive Error where
  | configuration (message : String)
  | database
  | runNotFound
  | effectNotFound
  | corruptEventHead
  | missingScheduler
  | moduleNotFound
  | grantDenied
  | idempotencyConflict
  | capacityExhausted
  | grantNotFound
  | grantValidation (reason : GrantError)
  | corruptGrant
  | leaseConflict
  | corruptScheduler
deriving DecidableEq

structure TenantRow where
  id : Uuid
  queueLimit : Int
  activeLimit : Int
  activeCount : Int
  lastServedSeq : Int
deriving DecidableEq

def TenantRow.schema : Schema TenantRow where
  Key := Uuid
  key := TenantRow.id
  clash first second := decide (first = second)
  clash_self _ := by simp
  check row := decide (1 ≤ row.queueLimit ∧ row.queueLimit ≤ 1000 ∧
    1 ≤ row.activeLimit ∧ row.activeLimit ≤ 4 ∧
    0 ≤ row.activeCount ∧ row.activeCount ≤ row.activeLimit)

structure ModuleRow where
  tenantId : Uuid
  digest : Digest
  wasm : List UInt8
deriving DecidableEq

def ModuleRow.schema : Schema ModuleRow where
  Key := Uuid × Digest
  key row := (row.tenantId, row.digest)
  clash first second := decide (first = second)
  clash_self _ := by simp
  check row := decide (row.wasm.length ≤ 2097152)

structure GrantRow where
  tenantId : Uuid
  id : Uuid
  parentId : Option Uuid
  depth : Int
  actions : List String
  destinations : List String
  projects : List String
  maxEffects : Int
  usedEffects : Int
  expiresAt : Timestamp
  revokedAt : Option Timestamp
deriving DecidableEq

def GrantRow.schema : Schema GrantRow where
  Key := Uuid × Uuid
  key row := (row.tenantId, row.id)
  clash first second := decide (first = second)
  clash_self _ := by simp
  check row := decide (0 ≤ row.depth ∧ row.depth ≤ 4 ∧
    1 ≤ row.actions.length ∧ row.actions.length ≤ 16 ∧
    1 ≤ row.destinations.length ∧ row.destinations.length ≤ 16 ∧
    1 ≤ row.projects.length ∧ row.projects.length ≤ 16 ∧
    1 ≤ row.maxEffects ∧ row.maxEffects ≤ 100 ∧
    0 ≤ row.usedEffects ∧ row.usedEffects ≤ row.maxEffects ∧
    ((row.parentId = none ∧ row.depth = 0) ∨
      (row.parentId ≠ none ∧ 0 < row.depth)))

structure RunRow where
  tenantId : Uuid
  id : Uuid
  idempotencyKey : String
  requestHash : Digest
  moduleDigest : Digest
  grantId : Uuid
  inputBytes : Option (List UInt8)
  outputBytes : Option (List UInt8)
  limits : Limits
  state : RunState
  leaseEpoch : Int
  leaseOwner : Option String
  leaseExpiresAt : Option Timestamp
  attempt : Int
  activeSlotHeld : Bool
  cancelRequested : Bool
  errorCode : Option String
  nextEventSeq : Int
  lastEventHash : Digest
  createdAt : Timestamp
  updatedAt : Timestamp
deriving DecidableEq

/-- `PRIMARY KEY(tenant_id,id)` follows from `UNIQUE(id)`; the other unique
set is `(tenant_id,idempotency_key)`. -/
def RunRow.schema : Schema RunRow where
  Key := Uuid × Uuid × String
  key row := (row.tenantId, row.id, row.idempotencyKey)
  clash first second := decide (first.2.1 = second.2.1 ∨
    (first.1 = second.1 ∧ first.2.2 = second.2.2))
  clash_self _ := by simp
  check row := decide (1 ≤ row.idempotencyKey.length ∧
    row.idempotencyKey.length ≤ 128 ∧
    (∀ bytes ∈ row.inputBytes, bytes.length ≤ 65536) ∧
    (∀ bytes ∈ row.outputBytes, bytes.length ≤ 65536) ∧
    0 ≤ row.leaseEpoch ∧ 0 ≤ row.attempt ∧ row.attempt ≤ 3)

structure EffectRow where
  tenantId : Uuid
  runId : Uuid
  ordinal : Int
  requestHash : Digest
  action : String
  destination : String
  project : String
  providerKey : String
  state : EffectState
  sendAttempts : Int
  reservationCharged : Bool
deriving DecidableEq

def EffectRow.schema : Schema EffectRow where
  Key := (Uuid × Uuid × Int) × (Uuid × String)
  key row := ((row.tenantId, row.runId, row.ordinal),
    (row.tenantId, row.providerKey))
  clash first second := decide (first.1 = second.1 ∨ first.2 = second.2)
  clash_self _ := by simp
  check row := decide (0 ≤ row.ordinal ∧ row.ordinal ≤ 7 ∧
    0 ≤ row.sendAttempts ∧ row.sendAttempts ≤ 3)

structure ReservationRow where
  tenantId : Uuid
  runId : Uuid
  ordinal : Int
  grantId : Uuid
deriving DecidableEq

def ReservationRow.schema : Schema ReservationRow where
  Key := ReservationRow
  key row := row
  clash first second := decide (first = second)
  clash_self _ := by simp
  check _ := true

structure RunEventRow where
  tenantId : Uuid
  runId : Uuid
  seq : Int
  kind : String
  payload : List UInt8
  prevHash : Digest
  eventHash : Digest
deriving DecidableEq

def RunEventRow.schema : Schema RunEventRow where
  Key := Uuid × Uuid × Int
  key row := (row.tenantId, row.runId, row.seq)
  clash first second := decide (first = second)
  clash_self _ := by simp
  check row := decide (0 < row.seq ∧ row.payload.length ≤ 16384)

/-- Operator events are numbered by an identity column, so no insert clashes. -/
structure OperatorEventRow where
  tenantId : Uuid
  actorId : String
  action : String
  objectId : Uuid
  detailHash : Digest
deriving DecidableEq

/-- One committed state of the database.  `schedulerState` is the
`dispatch_seq` of the singleton row, if the row is there. -/
structure Database where
  schedulerState : Option Int
  tenants : Table TenantRow.schema
  modules : Table ModuleRow.schema
  grants : Table GrantRow.schema
  runs : Table RunRow.schema
  effects : Table EffectRow.schema
  effectReservations : Table ReservationRow.schema
  runEvents : Table RunEventRow.schema
  operatorEvents : List OperatorEventRow

/-- The database right after the migrations. -/
def Database.migrated : Database where
  schedulerState := some 0
  tenants := Table.empty
  modules := Table.empty
  grants := Table.empty
  runs := Table.empty
  effects := Table.empty
  effectReservations := Table.empty
  runEvents := Table.empty
  operatorEvents := []

end EffectLatch
