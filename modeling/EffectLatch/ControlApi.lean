import EffectLatch.ControlAuth
import EffectLatch.ControlGrants
import EffectLatch.RuntimeValidate

/-!
# The HTTP boundary of the control plane

Credentials, roles and the ten handlers.  A handler answers at once or makes
one store call and words its outcome.  Routing, body limits and the reading of
paths and JSON bodies belong to the web framework: a request carries what its
extractors give.
-/

namespace EffectLatch

namespace Control

namespace Auth

namespace Principal

/-- The tenant of an owner; other roles are forbidden. -/
def ownerTenant (principal : Principal) : Option Uuid :=
  match principal.authority with
  | .owner tenant => some tenant
  | _ => none

/-- The tenant of an owner or invoker; workers are forbidden. -/
def tenant (principal : Principal) : Option Uuid :=
  match principal.authority with
  | .owner tenant | .invoker tenant _ => some tenant
  | .worker _ _ => none

def permitsGrant (principal : Principal) (tenant grant : Uuid) : Bool :=
  match principal.authority with
  | .owner own => decide (own = tenant)
  | .invoker own grants => decide (own = tenant) && decide (grant ∈ grants)
  | .worker _ _ => false

/-- The allowlist of the worker of this name. -/
def workerTenants (principal : Principal) (workerId : String) :
    Option (OrderedSet Uuid) :=
  match principal.authority with
  | .worker configured tenants =>
      if configured = workerId then some tenants else none
  | _ => none

end Principal

end Auth

namespace Api

/-- Why the framework could not give a body. -/
inductive BytesRejection where
  | tooLong
  | unreadable
deriving DecidableEq

def BytesRejection.status : BytesRejection → Nat
  | .tooLong => 413
  | .unreadable => 400

/-- Why the framework could not give a JSON body. -/
inductive JsonRejection where
  | mismatched
  | malformed
  | missingContentType
  | bytes (rejection : BytesRejection)
deriving DecidableEq

def JsonRejection.status : JsonRejection → Nat
  | .mismatched => 422
  | .malformed => 400
  | .missingContentType => 415
  | .bytes rejection => rejection.status

/-- The header fields the handlers read, each with its values in order. -/
structure Headers where
  authorization : List (List UInt8)
  contentType : List (List UInt8)
  idempotencyKey : List (List UInt8)

/-- `HeaderValue::to_str`: visible ASCII, spaces and tabs. -/
def toStr (value : List UInt8) : Option String :=
  if value.all (fun byte => (0x20 ≤ byte && byte < 0x7f) || byte == 0x09) then
    String.fromUTF8? ⟨value.toArray⟩
  else none

/-- The value of a field given exactly once. -/
def single (values : List (List UInt8)) : Option (List UInt8) :=
  match values with
  | [value] => some value
  | _ => none

structure EffectView where
  ordinal : Int
  state : String
  requestHash : String
  providerKey : String
  sendAttempts : Int
deriving DecidableEq

structure RunView where
  id : Uuid
  state : String
  moduleDigest : String
  grantId : Uuid
  createdAt : Timestamp
  updatedAt : Timestamp
  leaseEpoch : Int
  attempt : Int
  cancelRequested : Bool
  outputB64 : Option String
  errorCode : Option String
  effects : List EffectView
deriving DecidableEq

structure GrantView where
  id : Uuid
  parentId : Option Uuid
  depth : Int
  actions : List String
  destinations : List String
  projects : List String
  expiresAt : Timestamp
  maxEffects : Int
  usedEffects : Int
  remainingEffects : Int
  revokedAt : Option Timestamp
  ancestry : List Uuid
deriving DecidableEq

structure LeaseView where
  runId : Uuid
  epoch : Int
  expiresAt : Timestamp
  moduleDigest : String
  moduleB64 : String
  inputB64 : String
  limits : EffectLatch.Limits
deriving DecidableEq

inductive Body where
  | error (code message : String) (retryable : Bool)
  | module (digest : String) (sizeBytes abiVersion : Nat)
  | run (view : RunView)
  | grant (view : GrantView)
  | revocation (id : Uuid) (revokedAt : Timestamp)
  | lease (view : Option LeaseView)
  | heartbeat (expiresAt : Timestamp) (cancelRequested : Bool)
  | state (name : String)
deriving DecidableEq

/-- A response with the header field the handlers set.  The fresh
`request_id` of an error is left out. -/
structure Reply where
  status : Nat
  retryAfter : Option String
  body : Body
deriving DecidableEq

def error (status : Nat) (code message : String) (retryable : Bool) : Reply :=
  ⟨status, none, .error code message retryable⟩

/-- How a run or grant handler answers a rejected JSON body. -/
def bodyRejected (message : String) (rejection : JsonRejection) : Reply :=
  error rejection.status
    (if rejection.status = 413 then "BODY_TOO_LARGE"
      else if rejection.status = 415 then "INVALID_MEDIA_TYPE"
      else "INVALID_JSON")
    message false

end Api

structure Revoke where
  reason : String

structure ClaimRequest where
  workerId : String
  availableSlots : UInt8

structure LeaseRequest where
  workerId : String
  leaseEpoch : Int64

structure FinishRequest where
  workerId : String
  leaseEpoch : Int64
  outputB64 : Option String
  errorCode : Option String

structure ApiState where
  caps : EffectLatch.Limits
  maxPendingGlobal : UInt64
  maxPendingTenant : UInt64
  grantBounds : Bounds
  leaseMs : UInt64
  maxActiveGlobal : UInt8
  maxActivePerTenant : UInt8
  maxAttempts : UInt8

namespace ApiState

/-- `ApiState::new`; the casts keep the low byte. -/
def new (config : Config) : ApiState where
  caps :=
    { fuel := config.limits.fuel
      memoryBytes := config.limits.memoryBytes
      wallMs := config.limits.wallMs
      maxEffects := config.limits.maxEffects }
  maxPendingGlobal := config.limits.maxPendingGlobal
  maxPendingTenant := config.limits.maxPendingPerTenant
  grantBounds := Bounds.fromConfig config.adapters
  leaseMs := config.limits.leaseMs
  maxActiveGlobal := config.limits.maxActiveGlobal.toUInt8
  maxActivePerTenant := config.limits.maxActivePerTenant.toUInt8
  maxAttempts := config.limits.maxAttempts.toUInt8

/-- The policy a claim passes to the store. -/
def claimPolicy (state : ApiState) : ClaimPolicy where
  maxActiveGlobal := state.maxActiveGlobal.toNat
  maxActivePerTenant := state.maxActivePerTenant.toNat
  maxAttempts := state.maxAttempts.toNat
  leaseMs := state.leaseMs.toNat

end ApiState

/-- The policy the daemon gives its sweeper. -/
def Config.reapPolicy (config : Config) : ReapPolicy where
  maxAttempts := config.limits.maxAttempts.toUInt8.toNat
  maxPendingGlobal := config.limits.maxPendingGlobal.toNat
  maxPendingTenant := config.limits.maxPendingPerTenant.toNat

/-- What a router is built from, and the crates its handlers call. -/
structure Service where
  state : ApiState
  principals : Auth.Principals
  sha256 : Sha256
  codecs : TextCodecs
  parsers : Parsers
  reader : Wasm.Reader

/-- The one store call of a handler, and how its outcome is worded. -/
structure StoreCall where
  command : Command
  reply : Except Error Response → Api.Reply

namespace Api

def EffectView.of (effect : EffectRecord) : EffectView where
  ordinal := effect.ordinal
  state := effect.state.text
  requestHash := Hash.hex effect.requestHash.bytes
  providerKey := effect.providerKey
  sendAttempts := effect.sendAttempts

def RunView.of (codecs : TextCodecs) (run : RunRecord) : RunView where
  id := run.id
  state := run.state.text
  moduleDigest := Hash.hex run.moduleDigest.bytes
  grantId := run.grantId
  createdAt := run.createdAt
  updatedAt := run.updatedAt
  leaseEpoch := run.leaseEpoch
  attempt := run.attempt
  cancelRequested := run.cancelRequested
  outputB64 := run.output.map codecs.base64
  errorCode := run.errorCode
  effects := run.effects.map EffectView.of

/-- `i64::saturating_sub`. -/
def saturatingSub (first second : Int) : Int :=
  max i64Min (min i64Max (first - second))

def GrantView.of (record : GrantRecord) : GrantView where
  id := record.id
  parentId := record.parentId
  depth := record.depth
  actions := record.actions
  destinations := record.destinations
  projects := record.projects
  expiresAt := record.expiresAt
  maxEffects := record.maxEffects
  usedEffects := record.usedEffects
  remainingEffects := saturatingSub record.maxEffects record.usedEffects
  revokedAt := record.revokedAt
  ancestry := record.ancestry

def LeaseView.of (codecs : TextCodecs) (lease : Lease) : LeaseView where
  runId := lease.run
  epoch := lease.epoch
  expiresAt := lease.expiresAt
  moduleDigest := Hash.hex lease.moduleDigest.bytes
  moduleB64 := codecs.base64 lease.module
  inputB64 := codecs.base64 lease.input
  limits := lease.limits

def forbidden (message : String) : Reply := error 403 "FORBIDDEN" message false

def invalidMediaType : Reply :=
  error 415 "INVALID_MEDIA_TYPE" "Expected application/wasm" false

def invalidKey (message : String) : Reply :=
  error 400 "INVALID_IDEMPOTENCY_KEY" message false

def keyShape : String := "Idempotency-Key must be 1..128 visible ASCII bytes"

def invalidModule : Reply :=
  error 422 "INVALID_MODULE" "Module does not implement EffectLatch ABI v1" false

def moduleRejected (rejection : BytesRejection) : Reply :=
  error rejection.status
    (if rejection.status = 413 then "BODY_TOO_LARGE" else "INVALID_BODY")
    "Module body is invalid" false

def moduleReply (digest : Digest) (bytes : List UInt8) :
    Except Error Response → Reply
  | .ok (.module kind) =>
      ⟨if kind = .created then 201 else 200, none,
        .module (Hash.hex digest.bytes) bytes.length 1⟩
  | _ => error 503 "STORE_UNAVAILABLE" "Module could not be stored" true

def uploadModule (service : Service) (principal : Auth.Principal)
    (headers : Headers) (body : Except BytesRejection (List UInt8)) :
    Except Reply StoreCall := do
  let contentType ← Except.fetch headers.contentType.head? invalidMediaType
  Except.require (contentType = utf8 "application/wasm") invalidMediaType
  let tenant ← Except.fetch principal.tenant
    (forbidden "Role is not permitted")
  let bytes ← body.mapError moduleRejected
  (Wasm.validate service.reader bytes).mapError fun _ => invalidModule
  let digest := service.sha256 bytes
  pure ⟨.putModule tenant digest bytes, moduleReply digest bytes⟩

def runReply (codecs : TextCodecs) : Except Error Response → Reply
  | .ok (.admission admission) =>
      ⟨if admission.kind = .created then 202 else 200, none,
        .run (RunView.of codecs admission.run)⟩
  | .error .idempotencyConflict =>
      error 409 "IDEMPOTENCY_CONFLICT"
        "Idempotency-Key is bound to another request" false
  | .error .capacityExhausted =>
      { error 429 "QUEUE_FULL" "Pending run capacity is exhausted" true with
        retryAfter := some "1" }
  | .error .moduleNotFound =>
      error 404 "MODULE_NOT_FOUND" "Module does not exist" false
  | .error .grantDenied =>
      error 422 "GRANT_DENIED" "Grant is unavailable" false
  | _ => error 503 "STORE_UNAVAILABLE" "Run could not be admitted" true

/-- `fresh` is the UUID the store draws for a new run. -/
def createRun (service : Service) (fresh : Uuid) (principal : Auth.Principal)
    (headers : Headers) (payload : Except JsonRejection RunCreate) :
    Except Reply StoreCall := do
  let tenant ← Except.fetch principal.tenant
    (forbidden "Role is not permitted")
  let value ← Except.fetch (single headers.idempotencyKey)
    (invalidKey "Exactly one Idempotency-Key is required")
  let key ← Except.fetch (toStr value) (invalidKey keyShape)
  Except.require
    (utf8 key ≠ [] ∧ (utf8 key).length ≤ 128 ∧
      (utf8 key).all isAsciiGraphic = true)
    (invalidKey keyShape)
  let create ← payload.mapError (bodyRejected "Run body is invalid")
  let request ← (create.normalize service.codecs service.state.caps).mapError
    fun _ => error 422 "INVALID_RUN" "Run request is invalid" false
  Except.require (principal.permitsGrant tenant request.grantId = true)
    (forbidden "Grant is not permitted")
  pure
    ⟨.admitRun fresh tenant key request service.state.maxPendingGlobal.toNat
        service.state.maxPendingTenant.toNat,
      runReply service.codecs⟩

def canonicalId (codecs : TextCodecs) (value : String) : Option Uuid :=
  (codecs.parseUuid value).filter fun id =>
    decide (codecs.uuidText id = value)

def grantNotFound : Reply :=
  error 404 "GRANT_NOT_FOUND" "Grant does not exist" false

def invalidGrant : Reply :=
  error 422 "INVALID_GRANT" "Grant authority is invalid" false

/-- `store_error` of the grant handlers. -/
def grantStoreError : Error → Reply
  | .grantNotFound => grantNotFound
  | .grantValidation _ => invalidGrant
  | _ =>
      error 503 "STORE_UNAVAILABLE" "Grant operation could not be completed"
        true

/-- How a grant is shown: new ones as created. -/
def grantReply (status : Nat) : Except Error Response → Reply
  | .ok (.grant record) => ⟨status, none, .grant (GrantView.of record)⟩
  | .ok _ => grantStoreError .database
  | .error failure => grantStoreError failure

/-- The shared part of `create_root` and `create_child`. -/
def createGrant (service : Service) (fresh : Uuid)
    (principal : Auth.Principal) (parent : Option Uuid)
    (payload : Except JsonRejection GrantCreate) : Except Reply StoreCall := do
  let tenant ← Except.fetch principal.ownerTenant
    (forbidden "Owner role is required")
  let create ← payload.mapError (bodyRejected "Grant body is invalid")
  let authority ←
    (create.normalize service.parsers service.state.grantBounds).mapError
      fun _ => invalidGrant
  pure
    ⟨.createGrant fresh tenant parent principal.id authority, grantReply 201⟩

def createRoot (service : Service) (fresh : Uuid) (principal : Auth.Principal)
    (payload : Except JsonRejection GrantCreate) : Except Reply StoreCall :=
  createGrant service fresh principal none payload

def createChild (service : Service) (fresh : Uuid) (principal : Auth.Principal)
    (path : String) (payload : Except JsonRejection GrantCreate) :
    Except Reply StoreCall := do
  let parent ← Except.fetch (canonicalId service.codecs path) grantNotFound
  createGrant service fresh principal (some parent) payload

def getGrant (service : Service) (principal : Auth.Principal) (path : String) :
    Except Reply StoreCall := do
  let id ← Except.fetch (canonicalId service.codecs path) grantNotFound
  let tenant ← Except.fetch principal.tenant grantNotFound
  Except.require (principal.permitsGrant tenant id = true) grantNotFound
  pure ⟨.getGrant tenant id, grantReply 200⟩

def revocationReply : Except Error Response → Reply
  | .ok (.revocation record) =>
      ⟨200, none, .revocation record.id record.revokedAt⟩
  | .ok _ => grantStoreError .database
  | .error failure => grantStoreError failure

def revoke (service : Service) (principal : Auth.Principal) (path : String)
    (payload : Except JsonRejection Revoke) : Except Reply StoreCall := do
  let id ← Except.fetch (canonicalId service.codecs path) grantNotFound
  let tenant ← Except.fetch principal.ownerTenant
    (forbidden "Owner role is required")
  let revoke ← payload.mapError (bodyRejected "Revocation body is invalid")
  Except.require
    (utf8 revoke.reason ≠ [] ∧ (utf8 revoke.reason).length ≤ 1024 ∧
      revoke.reason.length ≤ 256)
    (error 422 "INVALID_REASON" "Revocation reason is invalid" false)
  pure ⟨.revokeGrant tenant id principal.id revoke.reason, revocationReply⟩

/-- `bad_json`: whatever was wrong with the body. -/
def badJson (_rejection : JsonRejection) : Reply :=
  error 400 "INVALID_JSON" "Worker request is invalid" false

def notWorker : Reply := forbidden "Worker is not permitted"

/-- `store_error` of the worker handlers. -/
def leaseStoreError : Error → Reply
  | .runNotFound => error 404 "RUN_NOT_FOUND" "Run does not exist" false
  | .leaseConflict =>
      error 409 "LEASE_CONFLICT" "Lease is stale, expired or incompatible"
        false
  | .configuration _ =>
      error 422 "INVALID_LEASE_REQUEST" "Lease request is invalid" false
  | _ => error 503 "STORE_UNAVAILABLE" "Lease operation unavailable" true

def claimReply (codecs : TextCodecs) : Except Error Response → Reply
  | .ok (.lease lease) => ⟨200, none, .lease (lease.map (LeaseView.of codecs))⟩
  | .ok _ => leaseStoreError .database
  | .error failure => leaseStoreError failure

def claim (service : Service) (principal : Auth.Principal)
    (payload : Except JsonRejection ClaimRequest) : Except Reply StoreCall := do
  let request ← payload.mapError badJson
  let tenants ← Except.fetch (principal.workerTenants request.workerId)
    notWorker
  pure
    ⟨.claimRun request.workerId tenants.toList request.availableSlots.toNat
        service.state.claimPolicy,
      claimReply service.codecs⟩

def heartbeatReply : Except Error Response → Reply
  | .ok (.heartbeat result) =>
      ⟨200, none, .heartbeat result.expiresAt result.cancelRequested⟩
  | .ok _ => leaseStoreError .database
  | .error failure => leaseStoreError failure

def heartbeat (service : Service) (principal : Auth.Principal) (id : Uuid)
    (payload : Except JsonRejection LeaseRequest) : Except Reply StoreCall := do
  let request ← payload.mapError badJson
  let tenants ← Except.fetch (principal.workerTenants request.workerId)
    notWorker
  pure
    ⟨.heartbeatRun id request.workerId tenants.toList request.leaseEpoch.toInt
        service.state.leaseMs.toNat,
      heartbeatReply⟩

def startedReply : Except Error Response → Reply
  | .ok .started => ⟨200, none, .state "running"⟩
  | .ok _ => leaseStoreError .database
  | .error failure => leaseStoreError failure

def started (principal : Auth.Principal) (id : Uuid)
    (payload : Except JsonRejection LeaseRequest) : Except Reply StoreCall := do
  let request ← payload.mapError badJson
  let tenants ← Except.fetch (principal.workerTenants request.workerId)
    notWorker
  pure
    ⟨.markRunStarted id request.workerId tenants.toList
        request.leaseEpoch.toInt,
      startedReply⟩

def finishReply (codecs : TextCodecs) : Except Error Response → Reply
  | .ok (.finished run) => ⟨200, none, .run (RunView.of codecs run)⟩
  | .ok _ => leaseStoreError .database
  | .error failure => leaseStoreError failure

/-- The output of a finished run: canonical Base64 of at most 64 KiB. -/
def decodeOutput (codecs : TextCodecs) (encoded : String) :
    Option (List UInt8) :=
  (codecs.fromBase64 encoded).filter fun decoded =>
    decide (decoded.length ≤ 65536 ∧ codecs.base64 decoded = encoded)

def finish (service : Service) (principal : Auth.Principal) (id : Uuid)
    (payload : Except JsonRejection FinishRequest) : Except Reply StoreCall := do
  let request ← payload.mapError badJson
  let tenants ← Except.fetch (principal.workerTenants request.workerId)
    notWorker
  let output ← request.outputB64.mapM fun encoded =>
    Except.fetch (decodeOutput service.codecs encoded)
      (error 422 "INVALID_OUTPUT" "Output must be canonical bounded base64"
        false)
  pure
    ⟨.finishRun id request.workerId tenants.toList request.leaseEpoch.toInt
        output request.errorCode,
      finishReply service.codecs⟩

/-- Repeated credentials are rejected; only the operator's mapping makes a
principal. -/
def authenticate (service : Service) (headers : Headers) :
    Except Reply Auth.Principal :=
  let principal := do
    let value ← single headers.authorization
    let text ← toStr value
    (service.principals.authenticate service.sha256 text).toOption
  Except.fetch principal (error 401 "UNAUTHORIZED" "Invalid credential" false)

/-- The routed requests, with what the extractors gave. -/
inductive Route where
  | uploadModule (body : Except BytesRejection (List UInt8))
  | createRun (payload : Except JsonRejection RunCreate)
  | createRoot (payload : Except JsonRejection GrantCreate)
  | createChild (path : String) (payload : Except JsonRejection GrantCreate)
  | getGrant (path : String)
  | revoke (path : String) (payload : Except JsonRejection Revoke)
  | claim (payload : Except JsonRejection ClaimRequest)
  | heartbeat (id : Uuid) (payload : Except JsonRejection LeaseRequest)
  | started (id : Uuid) (payload : Except JsonRejection LeaseRequest)
  | finish (id : Uuid) (payload : Except JsonRejection FinishRequest)

structure Request where
  headers : Headers
  route : Route

/-- The handler of a route. -/
def handle (service : Service) (fresh : Uuid) (principal : Auth.Principal)
    (request : Request) : Except Reply StoreCall :=
  match request.route with
  | .uploadModule body => uploadModule service principal request.headers body
  | .createRun payload =>
      createRun service fresh principal request.headers payload
  | .createRoot payload => createRoot service fresh principal payload
  | .createChild path payload =>
      createChild service fresh principal path payload
  | .getGrant path => getGrant service principal path
  | .revoke path payload => revoke service principal path payload
  | .claim payload => claim service principal payload
  | .heartbeat id payload => heartbeat service principal id payload
  | .started id payload => started principal id payload
  | .finish id payload => finish service principal id payload

/-- The handlers run behind the authentication layer. -/
def respond (service : Service) (fresh : Uuid) (request : Request) :
    Except Reply StoreCall := do
  let principal ← authenticate service request.headers
  handle service fresh principal request

end Api

namespace Service

/-- Serve one request: a reply, and the store as the request leaves it. -/
def serve (service : Service) (db : Database) (clock : Clock) (fresh : Uuid)
    (request : Api.Request) : Api.Reply × Database :=
  match Api.respond service fresh request with
  | .error reply => (reply, db)
  | .ok call =>
      let done := db.perform service.sha256 ⟨call.command, clock⟩
      (call.reply done.1, done.2)

end Service

end Control

end EffectLatch
