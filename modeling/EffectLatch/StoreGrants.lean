import EffectLatch.StoreStatements

/-!
# Grant operations of the store

Creation, lookup, revocation and the all-ancestor reservation.  Each operation
returns its result with the database it would commit; an error commits
nothing.
-/

namespace EffectLatch

structure RevocationRecord where
  id : Uuid
  revokedAt : Timestamp
deriving DecidableEq

inductive ReservationKind where
  | created
  | existing
deriving DecidableEq

structure GrantReservation where
  tenant : Uuid
  run : Uuid
  ordinal : Int
deriving DecidableEq

namespace Database

/-- The ancestry a new grant is checked against: the locked chain of its
parent, or nothing for a root in an existing tenant. -/
def creationAncestry (db : Database) (tenant : Uuid) (parent : Option Uuid) :
    Except Error (List Grant) :=
  match parent with
  | some parent => db.loadGrantChainLocked tenant parent
  | none => do
      Except.require (db.findTenant tenant ≠ none) .grantNotFound
      pure []

/-- Create a root or attenuated child.  `id` is the fresh UUID. -/
def createGrant (sha256 : Sha256) (db : Database) (clock : Clock) (id : Uuid)
    (tenant : Uuid) (parent : Option Uuid) (actorId : String)
    (authority : Authority) : Except Error (GrantRecord × Database) := do
  Except.require ((utf8 actorId).length ≠ 0 ∧ (utf8 actorId).length ≤ 64)
    (.configuration "invalid grant actor")
  let ancestry ← db.creationAncestry tenant parent
  let nowMs ← epochMs (clock 0)
  (if ancestry = [] then authority.validate nowMs
    else validateChild authority ancestry tenant nowMs).mapError
      Error.grantValidation
  Except.require (ancestry.length < 2 ^ 31) .corruptGrant
  Except.require (authority.maxEffects.toNat < 2 ^ 63)
    (.configuration "grant budget is too large")
  let inserted ← db.insertGrant
    { tenantId := tenant
      id := id
      parentId := parent
      depth := ancestry.length
      actions := authority.actions.toList
      destinations := authority.destinations.toList
      projects := authority.projects.toList
      maxEffects := authority.maxEffects.toNat
      usedEffects := 0
      expiresAt := authority.expiresAtMs.toInt * 1000
      revokedAt := none }
  let logged ← inserted.insertOperatorEvent
    { tenantId := tenant
      actorId := actorId
      action := "grant.created"
      objectId := id
      detailHash := Hash.grant sha256 parent authority }
  Except.require (ancestry.length < 256) .corruptGrant
  let record ← logged.fetchGrantRecord tenant id (ancestry.map Grant.id ++ [id])
  pure (record, logged)

def getGrant (db : Database) (tenant id : Uuid) :
    Except Error (GrantRecord × Database) := do
  let ancestry ← db.loadGrantChainLocked tenant id
  let record ← db.fetchGrantRecord tenant id (ancestry.map Grant.id)
  pure (record, db)

/-- Repeated revocation returns the original database timestamp. -/
def revokeGrant (sha256 : Sha256) (db : Database) (clock : Clock)
    (tenant id : Uuid) (actorId reason : String) :
    Except Error (RevocationRecord × Database) := do
  Except.require
    ((utf8 actorId).length ≠ 0 ∧ (utf8 actorId).length ≤ 64 ∧
      (utf8 reason).length ≠ 0 ∧ (utf8 reason).length ≤ 1024 ∧
      reason.length ≤ 256)
    (.configuration "invalid revocation metadata")
  let _ ← db.loadGrantChainLocked tenant id
  let row ← Except.fetch (db.findGrant tenant id) .database
  match row.revokedAt with
  | some existing => pure (⟨id, existing⟩, db)
  | none => do
      let timestamp := clock 0
      let revoked ← db.updateGrants
        (fun row => decide (row.tenantId = tenant ∧ row.id = id ∧
          row.revokedAt = none))
        (fun row => { row with revokedAt := some timestamp }) (fun _ => rfl)
      let logged ← revoked.insertOperatorEvent
        { tenantId := tenant
          actorId := actorId
          action := "grant.revoked"
          objectId := id
          detailHash := Hash.grantRevocation sha256 id reason }
      pure (⟨id, timestamp⟩, logged)

/-- Apply a reservation plan: charge each grant and record the reservation. -/
def applyReservations (request : GrantReservation) :
    List (Uuid × UInt64) → Database → Except Error Database
  | [], db => pure db
  | (grant, next) :: rest, db => do
      Except.require (next.toNat < 2 ^ 63) .corruptGrant
      let selected : GrantRow → Bool := fun row =>
        decide (row.tenantId = request.tenant ∧ row.id = grant ∧
          row.usedEffects = (next.toNat : Int) - 1)
      let charged ← db.updateGrants selected
        (fun row => { row with usedEffects := next.toNat }) (fun _ => rfl)
      Except.require (db.grants.rows.countP selected = 1) .corruptGrant
      let reserved ← charged.insertReservation
        { tenantId := request.tenant
          runId := request.run
          ordinal := request.ordinal
          grantId := grant }
      applyReservations request rest reserved

/-- Reserve every ancestor once for a prepared logical effect. -/
def reserveGrantChain (db : Database) (clock : Clock)
    (request : GrantReservation) :
    Except Error (ReservationKind × Database) := do
  let run ← Except.fetch (db.findRun request.tenant request.run) .runNotFound
  let ancestry ← db.loadGrantChainLocked request.tenant run.grantId
  let effect ← Except.fetch
    (db.findEffect request.tenant request.run request.ordinal) .effectNotFound
  let existing := ((db.effectReservations.rows.filter fun row =>
      decide (row.tenantId = request.tenant ∧ row.runId = request.run ∧
        row.ordinal = request.ordinal)).map
    ReservationRow.grantId).insertionSort (· ≤ ·)
  if existing ≠ [] then do
    let expected := (ancestry.map Grant.id).insertionSort (· ≤ ·)
    Except.require (existing = expected ∧ effect.reservationCharged = true)
      .corruptGrant
    pure (.existing, db)
  else do
    Except.require
      (effect.reservationCharged = false ∧ effect.state = .prepared)
      .corruptGrant
    let nowMs ← epochMs (clock 0)
    let plan ← (reservationPlan ancestry request.tenant nowMs effect.action
      effect.destination effect.project).mapError Error.grantValidation
    let reserved ← applyReservations request plan db
    let selected : EffectRow → Bool := fun row =>
      decide (row.tenantId = request.tenant ∧ row.runId = request.run ∧
        row.ordinal = request.ordinal ∧ row.reservationCharged = false)
    let charged ← reserved.updateEffects selected
      (fun row => { row with reservationCharged := true }) (fun _ => rfl)
    Except.require (reserved.effects.rows.countP selected = 1) .corruptGrant
    pure (.created, charged)

end Database

end EffectLatch
