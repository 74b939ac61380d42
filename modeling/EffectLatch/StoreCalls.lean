import EffectLatch.StoreAdmission
import EffectLatch.StoreGrants
import EffectLatch.StoreScheduler
import EffectLatch.TransitionHistories

/-!
# The store as a system of calls

Every public operation of the store is one call: it commits whole or, on an
error, changes nothing.  Four more calls stand for what the repository leaves
to its surroundings: an operator provisions tenants, an owner asks for
cancellation, and the broker inserts effects and moves their states.
-/

namespace EffectLatch

/-- The effect columns a broker chooses when it prepares an effect. -/
structure EffectIntent where
  tenantId : Uuid
  runId : Uuid
  ordinal : Int
  requestHash : Digest
  action : String
  destination : String
  project : String
  providerKey : String
deriving DecidableEq

inductive Command where
  | putModule (tenant : Uuid) (digest : Digest) (wasm : List UInt8)
  | admitRun (runId tenant : Uuid) (key : String) (request : NormalizedRun)
      (maxPendingGlobal maxPendingTenant : Nat)
  | createGrant (id tenant : Uuid) (parent : Option Uuid) (actorId : String)
      (authority : Authority)
  | getGrant (tenant id : Uuid)
  | revokeGrant (tenant id : Uuid) (actorId reason : String)
  | reserveGrantChain (request : GrantReservation)
  | claimRun (worker : String) (allowedTenants : List Uuid)
      (availableSlots : Nat) (policy : ClaimPolicy)
  | heartbeatRun (run : Uuid) (worker : String) (allowedTenants : List Uuid)
      (epoch : Int) (leaseMs : Nat)
  | markRunStarted (run : Uuid) (worker : String)
      (allowedTenants : List Uuid) (epoch : Int)
  | reapOne (policy : ReapPolicy)
  | finishRun (run : Uuid) (worker : String) (allowedTenants : List Uuid)
      (epoch : Int) (output : Option (List UInt8)) (errorCode : Option String)
  | provisionTenant (id : Uuid) (queueLimit activeLimit : Int)
  | requestCancel (tenant run : Uuid)
  | prepareEffect (intent : EffectIntent)
  | moveEffect (tenant run : Uuid) (ordinal : Int) (target : EffectState)
deriving DecidableEq

/-- A command with the clock readings its statements get. -/
structure Call where
  command : Command
  clock : Clock

inductive Response where
  | module (result : PutModule)
  | admission (result : Admission)
  | grant (record : GrantRecord)
  | revocation (record : RevocationRecord)
  | reservation (kind : ReservationKind)
  | lease (result : Option Lease)
  | heartbeat (result : Heartbeat)
  | started
  | reaped (result : Option (Uuid × Reaped))
  | finished (record : RunRecord)
  | surroundings
deriving DecidableEq

namespace Database

def provisionTenant (db : Database) (id : Uuid)
    (queueLimit activeLimit : Int) : Except Error Database :=
  db.insertTenant
    { id := id
      queueLimit := queueLimit
      activeLimit := activeLimit
      activeCount := 0
      lastServedSeq := 0 }

def requestCancel (db : Database) (tenant run : Uuid) :
    Except Error Database :=
  db.updateRun tenant run (fun row => { row with cancelRequested := true })
    (fun _ => rfl)

def prepareEffect (db : Database) (intent : EffectIntent) :
    Except Error Database :=
  db.insertEffect
    { tenantId := intent.tenantId
      runId := intent.runId
      ordinal := intent.ordinal
      requestHash := intent.requestHash
      action := intent.action
      destination := intent.destination
      project := intent.project
      providerKey := intent.providerKey
      state := .prepared
      sendAttempts := 0
      reservationCharged := false }

def moveEffect (db : Database) (tenant run : Uuid) (ordinal : Int)
    (target : EffectState) : Except Error Database :=
  db.updateEffects
    (fun row => decide (row.tenantId = tenant ∧ row.runId = run ∧
      row.ordinal = ordinal))
    (fun row => { row with state := target }) (fun _ => rfl)

/-- The result of a call and the database it would commit. -/
def execute (sha256 : Sha256) (db : Database) (call : Call) :
    Except Error (Response × Database) :=
  match call.command with
  | .putModule tenant digest wasm =>
      (db.putModule tenant digest wasm).map (Prod.map .module id)
  | .admitRun runId tenant key request maxPendingGlobal maxPendingTenant =>
      (db.admitRun sha256 call.clock runId tenant key request maxPendingGlobal
        maxPendingTenant).map (Prod.map .admission id)
  | .createGrant fresh tenant parent actorId authority =>
      (db.createGrant sha256 call.clock fresh tenant parent actorId
        authority).map (Prod.map .grant id)
  | .getGrant tenant grant => (db.getGrant tenant grant).map (Prod.map .grant id)
  | .revokeGrant tenant grant actorId reason =>
      (db.revokeGrant sha256 call.clock tenant grant actorId reason).map
        (Prod.map .revocation id)
  | .reserveGrantChain request =>
      (db.reserveGrantChain call.clock request).map (Prod.map .reservation id)
  | .claimRun worker allowedTenants availableSlots policy =>
      (db.claimRun sha256 call.clock worker allowedTenants availableSlots
        policy).map (Prod.map .lease id)
  | .heartbeatRun run worker allowedTenants epoch leaseMs =>
      (db.heartbeatRun call.clock run worker allowedTenants epoch leaseMs).map
        (Prod.map .heartbeat id)
  | .markRunStarted run worker allowedTenants epoch =>
      (db.markRunStarted sha256 call.clock run worker allowedTenants epoch).map
        (Prod.mk .started)
  | .reapOne policy =>
      (db.reapOne sha256 call.clock policy).map (Prod.map .reaped id)
  | .finishRun run worker allowedTenants epoch output errorCode =>
      (db.finishRun sha256 call.clock run worker allowedTenants epoch output
        errorCode).map (Prod.map .finished id)
  | .provisionTenant tenant queueLimit activeLimit =>
      (db.provisionTenant tenant queueLimit activeLimit).map
        (Prod.mk .surroundings)
  | .requestCancel tenant run =>
      (db.requestCancel tenant run).map (Prod.mk .surroundings)
  | .prepareEffect intent =>
      (db.prepareEffect intent).map (Prod.mk .surroundings)
  | .moveEffect tenant run ordinal target =>
      (db.moveEffect tenant run ordinal target).map (Prod.mk .surroundings)

/-- Perform one call: commit on success, roll back on an error. -/
def perform (sha256 : Sha256) (db : Database) (call : Call) :
    Except Error Response × Database :=
  match db.execute sha256 call with
  | .ok (response, committed) => (.ok response, committed)
  | .error failure => (.error failure, db)

end Database

/-- A claim or a sweep of the system uses the configured policy. -/
def Call.usesPolicy (claim : ClaimPolicy) (reap : ReapPolicy) (call : Call) :
    Bool :=
  match call.command with
  | .claimRun _ _ _ policy => decide (policy = claim)
  | .reapOne policy => decide (policy = reap)
  | _ => true

/-- One performed call of the store. -/
abbrev Event := Performed Database Call (Except Error Response)

/-- The event records a successful call. -/
structure Event.Records (event : Event) (command : Command)
    (response : Response) : Prop where
  command : event.call.command = command
  outcome : event.outcome = .ok response

/-- The calls performed since the migrations and the state they led to. -/
abbrev StoreExecution (sha256 : Sha256)
    (allowed : Database → Call → Prop) :
    List Event → Database → Prop :=
  Execution (Database.perform sha256) allowed Database.migrated

/-- A state some permitted history leads to. -/
def Reachable (sha256 : Sha256) (allowed : Database → Call → Prop)
    (db : Database) : Prop :=
  ∃ history, StoreExecution sha256 allowed history db

namespace Sample

/-- A digest function for runs on fixed inputs. -/
def sha256 : Sha256 := fun _ => Digest.zero

def authority : Authority where
  actions := OrderedSet.ofList ["ticket.create"]
  destinations := OrderedSet.ofList ["tickets-idem"]
  projects := OrderedSet.ofList ["DEMO"]
  expiresAtMs := 1000
  maxEffects := 3

/-- Commands performed at one instant. -/
def calls (commands : List Command) : List Call :=
  commands.map fun command => ⟨command, fun _ => 5⟩

/-- One tenant with a root grant and a child of it. -/
def delegation : List Command :=
  [.provisionTenant 1 10 1, .createGrant 10 1 none "owner" authority,
    .createGrant 11 1 (some 10) "owner" authority]

def request : NormalizedRun where
  moduleDigest := Digest.zero
  grantId := 11
  input := [1]
  limits := ⟨1, 1, 1, 1⟩

/-- A run of the child grant, admitted and waiting. -/
def admission : List Command :=
  delegation ++ [.putModule 1 Digest.zero [0],
    .admitRun 20 1 "key" request 10 10]

/-- One effect of the run, reserved on the whole chain. -/
def reservation : List Command :=
  admission ++
    [.prepareEffect ⟨1, 20, 0, Digest.zero, "ticket.create", "tickets-idem",
      "DEMO", "provider"⟩, .reserveGrantChain ⟨1, 20, 0⟩]

def claimPolicy : ClaimPolicy := ⟨4, 1, 3, 6000⟩

def reapPolicy : ReapPolicy := ⟨3, 10, 10⟩

/-- The run leased to a worker. -/
def lease : List Command :=
  admission ++ [.claimRun "worker" [1] 1 claimPolicy]

/-- The run started and finished under its lease. -/
def completed : List Command :=
  lease ++ [.markRunStarted 20 "worker" [1] 1,
    .finishRun 20 "worker" [1] 1 none none]

/-- The database after the commands. -/
def after (commands : List Command) : Database :=
  (performAll (Database.perform sha256) Database.migrated
    (calls commands)).2

theorem execution_after {allowed : Database → Call → Prop}
    {commands : List Command}
    (permitted : ∀ db, ∀ call ∈ calls commands, allowed db call) :
    StoreExecution sha256 allowed
      (performAll (Database.perform sha256) Database.migrated
        (calls commands)).1 (after commands) :=
  Execution.of_performAll (AllPermitted.of_forall permitted)

theorem reachable_after {allowed : Database → Call → Prop}
    {commands : List Command}
    (permitted : ∀ db, ∀ call ∈ calls commands, allowed db call) :
    Reachable sha256 allowed (after commands) :=
  ⟨_, execution_after permitted⟩

end Sample

end EffectLatch
