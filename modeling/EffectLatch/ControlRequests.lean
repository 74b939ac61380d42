import EffectLatch.ControlSystem
import EffectLatch.TenantIsolation

/-!
# What a request can ask of the store

`Issues` lists the commands the handlers make, with everything they checked
before.  Properties of requests are proved against it, not against the
handlers.
-/

namespace EffectLatch

namespace Control

namespace Api

/-- A key the submission handler passes on. -/
structure KeyShaped (key : String) : Prop where
  nonempty : utf8 key ≠ []
  short : (utf8 key).length ≤ 128
  graphic : (utf8 key).all isAsciiGraphic = true

/-- The commands a principal's request can issue. -/
inductive Issues (service : Service) (fresh : Uuid)
    (principal : Auth.Principal) : Command → Prop
  | uploaded {tenant : Uuid} {bytes : List UInt8}
      (acts : principal.tenant = some tenant)
      (valid : Wasm.validate service.reader bytes = .ok ()) :
      Issues service fresh principal
        (.putModule tenant (service.sha256 bytes) bytes)
  | submitted {tenant : Uuid} {key : String} {create : RunCreate}
      {request : NormalizedRun}
      (acts : principal.tenant = some tenant)
      (shaped : KeyShaped key)
      (normalized : create.normalize service.codecs service.state.caps =
        .ok request)
      (permitted : principal.permitsGrant tenant request.grantId = true) :
      Issues service fresh principal
        (.admitRun fresh tenant key request
          service.state.maxPendingGlobal.toNat
          service.state.maxPendingTenant.toNat)
  | delegated {tenant : Uuid} {parent : Option Uuid} {payload : GrantCreate}
      {authority : EffectLatch.Authority}
      (acts : principal.ownerTenant = some tenant)
      (normalized : payload.normalize service.parsers
        service.state.grantBounds = .ok authority) :
      Issues service fresh principal
        (.createGrant fresh tenant parent principal.id authority)
  | inspected {tenant id : Uuid} (acts : principal.tenant = some tenant)
      (permitted : principal.permitsGrant tenant id = true) :
      Issues service fresh principal (.getGrant tenant id)
  | revoked {tenant id : Uuid} {reason : String}
      (acts : principal.ownerTenant = some tenant)
      (given : utf8 reason ≠ []) (bounded : (utf8 reason).length ≤ 1024)
      (short : reason.length ≤ 256) :
      Issues service fresh principal
        (.revokeGrant tenant id principal.id reason)
  | claimed {worker : String} {tenants : OrderedSet Uuid} {slots : UInt8}
      (acts : principal.workerTenants worker = some tenants) :
      Issues service fresh principal
        (.claimRun worker tenants.toList slots.toNat service.state.claimPolicy)
  | renewed {id : Uuid} {worker : String} {tenants : OrderedSet Uuid}
      {epoch : Int64} (acts : principal.workerTenants worker = some tenants) :
      Issues service fresh principal
        (.heartbeatRun id worker tenants.toList epoch.toInt
          service.state.leaseMs.toNat)
  | started {id : Uuid} {worker : String} {tenants : OrderedSet Uuid}
      {epoch : Int64} (acts : principal.workerTenants worker = some tenants) :
      Issues service fresh principal
        (.markRunStarted id worker tenants.toList epoch.toInt)
  | finished {id : Uuid} {worker : String} {tenants : OrderedSet Uuid}
      {epoch : Int64} {output : Option (List UInt8)}
      {errorCode : Option String}
      (acts : principal.workerTenants worker = some tenants)
      (bounded : ∀ bytes ∈ output, bytes.length ≤ 65536) :
      Issues service fresh principal
        (.finishRun id worker tenants.toList epoch.toInt output errorCode)

/-- How the handler of a command words the outcome of its call. -/
def wording (codecs : TextCodecs) :
    Command → Except Error Response → Reply
  | .putModule _ digest bytes => moduleReply digest bytes
  | .admitRun _ _ _ _ _ _ => runReply codecs
  | .createGrant _ _ _ _ _ => grantReply 201
  | .getGrant _ _ => grantReply 200
  | .revokeGrant _ _ _ _ => revocationReply
  | .claimRun _ _ _ _ => claimReply codecs
  | .heartbeatRun _ _ _ _ _ => heartbeatReply
  | .markRunStarted _ _ _ _ => startedReply
  | .finishRun _ _ _ _ _ _ => finishReply codecs
  | _ => fun _ => leaseStoreError .database

/-- What a call made by the handler of a route is. -/
structure Made (service : Service) (fresh : Uuid) (principal : Auth.Principal)
    (route : Route) (call : StoreCall) : Prop where
  issues : Issues service fresh principal call.command
  worded : call.reply = wording service.codecs call.command
  uploads : ∀ tenant digest bytes,
    call.command = .putModule tenant digest bytes →
      route = .uploadModule (.ok bytes)

section Handlers

variable {service : Service} {fresh : Uuid} {principal : Auth.Principal}
  {route : Route} {call : StoreCall}

theorem made_uploadModule {headers : Headers}
    {body : Except BytesRejection (List UInt8)}
    (done : uploadModule service principal headers body = .ok call) :
    Made service fresh principal (.uploadModule body) call := by
  simp only [uploadModule, Except.bind_eq_ok_iff, Except.fetch_eq_ok_iff,
    Except.require_eq_ok_iff, Except.mapError_eq_ok_iff,
    Except.pure_eq_ok_iff] at done
  obtain ⟨_, _, _, _, tenant, acts, bytes, rfl, _, valid, rfl⟩ := done
  refine ⟨.uploaded acts valid, rfl, ?_⟩
  rintro _ _ _ asked
  cases asked
  rfl

theorem made_createRun {headers : Headers}
    {payload : Except JsonRejection RunCreate}
    (done : createRun service fresh principal headers payload = .ok call) :
    Made service fresh principal route call := by
  simp only [createRun, Except.bind_eq_ok_iff, Except.fetch_eq_ok_iff,
    Except.require_eq_ok_iff, Except.mapError_eq_ok_iff,
    Except.pure_eq_ok_iff] at done
  obtain ⟨tenant, acts, _, _, key, _, _, ⟨nonempty, short, graphic⟩, create, _,
    request, normalized, _, permitted, rfl⟩ := done
  exact ⟨.submitted acts ⟨nonempty, short, graphic⟩ normalized permitted, rfl,
    by simp⟩

theorem made_createGrant {parent : Option Uuid}
    {payload : Except JsonRejection GrantCreate}
    (done : createGrant service fresh principal parent payload = .ok call) :
    Made service fresh principal route call := by
  simp only [createGrant, Except.bind_eq_ok_iff, Except.fetch_eq_ok_iff,
    Except.mapError_eq_ok_iff, Except.pure_eq_ok_iff] at done
  obtain ⟨tenant, acts, create, _, authority, normalized, rfl⟩ := done
  exact ⟨.delegated acts normalized, rfl, by simp⟩

theorem made_getGrant {path : String}
    (done : getGrant service principal path = .ok call) :
    Made service fresh principal route call := by
  simp only [getGrant, Except.bind_eq_ok_iff, Except.fetch_eq_ok_iff,
    Except.require_eq_ok_iff, Except.pure_eq_ok_iff] at done
  obtain ⟨id, _, tenant, acts, _, permitted, rfl⟩ := done
  exact ⟨.inspected acts permitted, rfl, by simp⟩

theorem made_revoke {path : String} {payload : Except JsonRejection Revoke}
    (done : revoke service principal path payload = .ok call) :
    Made service fresh principal route call := by
  simp only [revoke, Except.bind_eq_ok_iff, Except.fetch_eq_ok_iff,
    Except.require_eq_ok_iff, Except.mapError_eq_ok_iff,
    Except.pure_eq_ok_iff] at done
  obtain ⟨id, _, tenant, acts, asked, _, _, ⟨given, bounded, short⟩, rfl⟩ :=
    done
  exact ⟨.revoked acts given bounded short, rfl, by simp⟩

theorem made_claim {payload : Except JsonRejection ClaimRequest}
    (done : claim service principal payload = .ok call) :
    Made service fresh principal route call := by
  simp only [claim, Except.bind_eq_ok_iff, Except.fetch_eq_ok_iff,
    Except.mapError_eq_ok_iff, Except.pure_eq_ok_iff] at done
  obtain ⟨request, _, tenants, acts, rfl⟩ := done
  exact ⟨.claimed acts, rfl, by simp⟩

theorem made_heartbeat {id : Uuid}
    {payload : Except JsonRejection LeaseRequest}
    (done : heartbeat service principal id payload = .ok call) :
    Made service fresh principal route call := by
  simp only [heartbeat, Except.bind_eq_ok_iff, Except.fetch_eq_ok_iff,
    Except.mapError_eq_ok_iff, Except.pure_eq_ok_iff] at done
  obtain ⟨request, _, tenants, acts, rfl⟩ := done
  exact ⟨.renewed acts, rfl, by simp⟩

theorem made_started {id : Uuid} {payload : Except JsonRejection LeaseRequest}
    (done : started principal id payload = .ok call) :
    Made service fresh principal route call := by
  simp only [started, Except.bind_eq_ok_iff, Except.fetch_eq_ok_iff,
    Except.mapError_eq_ok_iff, Except.pure_eq_ok_iff] at done
  obtain ⟨request, _, tenants, acts, rfl⟩ := done
  exact ⟨.started acts, rfl, by simp⟩

theorem decodeOutput_eq_some {codecs : TextCodecs} {encoded : String}
    {bytes : List UInt8} (decoded : decodeOutput codecs encoded = some bytes) :
    bytes.length ≤ 65536 := by
  simp only [decodeOutput, Option.filter_eq_some_iff, decide_eq_true_eq]
    at decoded
  exact decoded.2.1

theorem made_finish {id : Uuid} {payload : Except JsonRejection FinishRequest}
    (done : finish service principal id payload = .ok call) :
    Made service fresh principal route call := by
  simp only [finish, Except.bind_eq_ok_iff, Except.fetch_eq_ok_iff,
    Except.mapError_eq_ok_iff, Except.pure_eq_ok_iff] at done
  obtain ⟨request, _, tenants, acts, output, decoded, rfl⟩ := done
  refine ⟨.finished acts ?_, rfl, by simp⟩
  intro bytes given
  cases encoded : request.outputB64 with
  | none =>
      rw [encoded, Option.mapM_none, Except.pure_eq_ok_iff] at decoded
      subst decoded
      simp at given
  | some text =>
      rw [encoded, Option.mapM_some] at decoded
      obtain ⟨read, fetched, rfl⟩ := Except.map_eq_ok_iff.mp decoded
      obtain rfl := Option.mem_some.mp given
      exact decodeOutput_eq_some (Except.fetch_eq_ok_iff.mp fetched)

/-- What is asked of the store was checked by the handler of its route. -/
theorem made_handle {request : Request}
    (done : handle service fresh principal request = .ok call) :
    Made service fresh principal request.route call := by
  obtain ⟨headers, route⟩ := request
  cases route with
  | uploadModule body => exact made_uploadModule done
  | createRun payload => exact made_createRun done
  | createRoot payload => exact made_createGrant done
  | createChild path payload =>
      simp only [handle, createChild, Except.bind_eq_ok_iff] at done
      obtain ⟨_, _, created⟩ := done
      exact made_createGrant created
  | getGrant path => exact made_getGrant done
  | revoke path payload => exact made_revoke done
  | claim payload => exact made_claim done
  | heartbeat id payload => exact made_heartbeat done
  | started id payload => exact made_started done
  | finish id payload => exact made_finish done

/-- Nothing is asked of the store but for an authenticated principal. -/
theorem respond_eq_ok {request : Request}
    (done : respond service fresh request = .ok call) :
    ∃ principal, authenticate service request.headers = .ok principal ∧
      Made service fresh principal request.route call := by
  simp only [respond, Except.bind_eq_ok_iff] at done
  obtain ⟨principal, authenticated, handled⟩ := done
  exact ⟨principal, authenticated, made_handle handled⟩

end Handlers

end Api

end Control

end EffectLatch
