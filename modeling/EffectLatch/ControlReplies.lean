import EffectLatch.DaemonCalls

/-!
# What a reply says of the store

A request is refused before the store is asked, or its one call failed, or the
call went through.  Only the last changes the store, and only the last is
answered with anything but an error.
-/

namespace EffectLatch

namespace Control

namespace Api

/-- An error reply: a retry helps exactly when capacity or the store was the
problem. -/
structure Reply.Refuses (reply : Reply) : Prop where
  worded : ∃ code message retryable,
    reply.body = .error code message retryable ∧
      (retryable = true ↔ reply.status = 429 ∨ reply.status = 503)
  status : 400 ≤ reply.status
  later : reply.retryAfter.isSome = true ↔ reply.status = 429

/-- The reply blames the store. -/
def Reply.Unavailable (reply : Reply) : Prop := reply.status = 503

instance (reply : Reply) : Decidable reply.Unavailable :=
  inferInstanceAs (Decidable (_ = _))

theorem refuses_error {status : Nat} (code message : String)
    (client : 400 ≤ status ∧ status ≠ 429 ∧ status ≠ 503) :
    (error status code message false).Refuses :=
  ⟨⟨code, message, false, rfl, by simp [error, client]⟩, client.1,
    by simp [error, client]⟩

theorem refuses_unavailable (code message : String) :
    (error 503 code message true).Refuses :=
  ⟨⟨code, message, true, rfl, by simp [error]⟩, by simp [error],
    by simp [error]⟩

theorem BytesRejection.status_client (rejection : BytesRejection) :
    400 ≤ rejection.status ∧ rejection.status ≠ 429 ∧
      rejection.status ≠ 503 := by
  cases rejection <;> decide

theorem JsonRejection.status_client (rejection : JsonRejection) :
    400 ≤ rejection.status ∧ rejection.status ≠ 429 ∧
      rejection.status ≠ 503 := by
  cases rejection with
  | bytes rejection => exact rejection.status_client
  | _ => decide

/-- A refusal that blames the request. -/
def Reply.Blames (reply : Reply) : Prop :=
  reply.Refuses ∧ ¬ reply.Unavailable

theorem blames_error {status : Nat} (code message : String)
    (client : 400 ≤ status ∧ status ≠ 429 ∧ status ≠ 503) :
    (error status code message false).Blames :=
  ⟨refuses_error code message client, client.2.2⟩

section Handlers

variable {service : Service} {fresh : Uuid} {principal : Auth.Principal}

theorem failsWith_fetch {α : Type} {found : Option α} {reply : Reply}
    (blames : reply.Blames) : (Except.fetch found reply).FailsWith
      Reply.Blames := by
  rw [Except.failsWith_fetch_iff]
  exact .inr blames

theorem failsWith_require {condition : Prop} [Decidable condition]
    {reply : Reply} (blames : reply.Blames) :
    (Except.require condition reply).FailsWith Reply.Blames := by
  rw [Except.failsWith_require_iff]
  exact .inr blames

theorem failsWith_uploadModule {headers : Headers}
    {body : Except BytesRejection (List UInt8)} :
    (uploadModule service principal headers body).FailsWith Reply.Blames := by
  simp only [uploadModule, Except.failsWith_bind_iff]
  exact ⟨failsWith_fetch (blames_error _ _ (by decide)), fun _ _ =>
    ⟨failsWith_require (blames_error _ _ (by decide)), fun _ _ =>
    ⟨failsWith_fetch (blames_error _ _ (by decide)), fun _ _ =>
    ⟨Except.failsWith_mapError fun rejection =>
      blames_error _ _ rejection.status_client, fun _ _ =>
    ⟨Except.failsWith_mapError fun _ => blames_error _ _ (by decide),
      fun _ _ => Except.failsWith_pure _ _⟩⟩⟩⟩⟩

theorem failsWith_createRun {headers : Headers}
    {payload : Except JsonRejection RunCreate} :
    (createRun service fresh principal headers payload).FailsWith
      Reply.Blames := by
  simp only [createRun, Except.failsWith_bind_iff]
  exact ⟨failsWith_fetch (blames_error _ _ (by decide)), fun _ _ =>
    ⟨failsWith_fetch (blames_error _ _ (by decide)), fun _ _ =>
    ⟨failsWith_fetch (blames_error _ _ (by decide)), fun _ _ =>
    ⟨failsWith_require (blames_error _ _ (by decide)), fun _ _ =>
    ⟨Except.failsWith_mapError fun rejection =>
      blames_error _ _ rejection.status_client, fun _ _ =>
    ⟨Except.failsWith_mapError fun _ => blames_error _ _ (by decide),
      fun _ _ =>
    ⟨failsWith_require (blames_error _ _ (by decide)),
      fun _ _ => Except.failsWith_pure _ _⟩⟩⟩⟩⟩⟩⟩

theorem failsWith_createGrant {parent : Option Uuid}
    {payload : Except JsonRejection GrantCreate} :
    (createGrant service fresh principal parent payload).FailsWith
      Reply.Blames := by
  simp only [createGrant, Except.failsWith_bind_iff]
  exact ⟨failsWith_fetch (blames_error _ _ (by decide)), fun _ _ =>
    ⟨Except.failsWith_mapError fun rejection =>
      blames_error _ _ rejection.status_client, fun _ _ =>
    ⟨Except.failsWith_mapError fun _ => blames_error _ _ (by decide),
      fun _ _ => Except.failsWith_pure _ _⟩⟩⟩

theorem failsWith_getGrant {path : String} :
    (getGrant service principal path).FailsWith Reply.Blames := by
  simp only [getGrant, Except.failsWith_bind_iff]
  exact ⟨failsWith_fetch (blames_error _ _ (by decide)), fun _ _ =>
    ⟨failsWith_fetch (blames_error _ _ (by decide)), fun _ _ =>
    ⟨failsWith_require (blames_error _ _ (by decide)),
      fun _ _ => Except.failsWith_pure _ _⟩⟩⟩

theorem failsWith_revoke {path : String}
    {payload : Except JsonRejection Revoke} :
    (revoke service principal path payload).FailsWith Reply.Blames := by
  simp only [revoke, Except.failsWith_bind_iff]
  exact ⟨failsWith_fetch (blames_error _ _ (by decide)), fun _ _ =>
    ⟨failsWith_fetch (blames_error _ _ (by decide)), fun _ _ =>
    ⟨Except.failsWith_mapError fun rejection =>
      blames_error _ _ rejection.status_client, fun _ _ =>
    ⟨failsWith_require (blames_error _ _ (by decide)),
      fun _ _ => Except.failsWith_pure _ _⟩⟩⟩⟩

/-- The worker of a request, as the four handlers of the scheduler check it. -/
theorem failsWith_worker {α β : Type} {payload : Except JsonRejection α}
    {worker : α → String} {next : α → OrderedSet Uuid → Except Reply β}
    (rest : ∀ request tenants, (next request tenants).FailsWith Reply.Blames) :
    (do
      let request ← payload.mapError badJson
      let tenants ← Except.fetch (principal.workerTenants (worker request))
        notWorker
      next request tenants : Except Reply β).FailsWith Reply.Blames := by
  simp only [Except.failsWith_bind_iff]
  exact ⟨Except.failsWith_mapError fun _ => blames_error _ _ (by decide),
    fun request _ => ⟨failsWith_fetch (blames_error _ _ (by decide)),
      fun tenants _ => rest request tenants⟩⟩

theorem failsWith_finish {id : Uuid}
    {payload : Except JsonRejection FinishRequest} :
    (finish service principal id payload).FailsWith Reply.Blames := by
  refine failsWith_worker fun request tenants => ?_
  rw [Except.failsWith_bind_iff]
  refine ⟨?_, fun _ _ => Except.failsWith_pure _ _⟩
  cases request.outputB64 with
  | none => exact Except.failsWith_pure _ _
  | some encoded =>
      rw [Option.mapM_some, Except.failsWith_functor_map_iff]
      exact failsWith_fetch (blames_error _ _ (by decide))

/-- What a handler refuses it blames on the request. -/
theorem failsWith_handle {request : Request} :
    (handle service fresh principal request).FailsWith Reply.Blames := by
  obtain ⟨headers, route⟩ := request
  cases route with
  | uploadModule body => exact failsWith_uploadModule
  | createRun payload => exact failsWith_createRun
  | createRoot payload => exact failsWith_createGrant
  | createChild path payload =>
      simp only [handle, createChild, Except.failsWith_bind_iff]
      exact ⟨failsWith_fetch (blames_error _ _ (by decide)),
        fun _ _ => failsWith_createGrant⟩
  | getGrant path => exact failsWith_getGrant
  | revoke path payload => exact failsWith_revoke
  | claim payload =>
      exact failsWith_worker fun _ _ => Except.failsWith_pure _ _
  | heartbeat id payload =>
      exact failsWith_worker fun _ _ => Except.failsWith_pure _ _
  | started id payload =>
      exact failsWith_worker fun _ _ => Except.failsWith_pure _ _
  | finish id payload => exact failsWith_finish

theorem failsWith_respond {request : Request} :
    (respond service fresh request).FailsWith Reply.Blames := by
  simp only [respond, Except.failsWith_bind_iff, authenticate]
  exact ⟨failsWith_fetch (blames_error _ _ (by decide)),
    fun _ _ => failsWith_handle⟩

/-! ## Outcomes of the store -/

theorem refuses_grantStoreError (failure : Error) :
    (grantStoreError failure).Refuses := by
  cases failure with
  | grantNotFound => exact refuses_error _ _ (by decide)
  | grantValidation _ => exact refuses_error _ _ (by decide)
  | _ => exact refuses_unavailable _ _

theorem refuses_leaseStoreError (failure : Error) :
    (leaseStoreError failure).Refuses := by
  cases failure with
  | runNotFound => exact refuses_error _ _ (by decide)
  | leaseConflict => exact refuses_error _ _ (by decide)
  | configuration _ => exact refuses_error _ _ (by decide)
  | _ => exact refuses_unavailable _ _

theorem refuses_runReply (codecs : TextCodecs) (failure : Error) :
    (runReply codecs (.error failure)).Refuses := by
  cases failure with
  | idempotencyConflict => exact refuses_error _ _ (by decide)
  | moduleNotFound => exact refuses_error _ _ (by decide)
  | grantDenied => exact refuses_error _ _ (by decide)
  | capacityExhausted =>
      exact ⟨⟨_, _, _, rfl, by simp [runReply, error]⟩,
        by simp [runReply, error], by simp [runReply, error]⟩
  | _ => exact refuses_unavailable _ _

/-- A call that failed is answered with an error. -/
theorem refuses_wording (codecs : TextCodecs) (command : Command)
    (failure : Error) :
    (wording codecs command (.error failure)).Refuses := by
  cases command with
  | putModule _ _ _ => exact refuses_unavailable _ _
  | admitRun _ _ _ _ _ _ => exact refuses_runReply codecs failure
  | createGrant _ _ _ _ _ => exact refuses_grantStoreError failure
  | getGrant _ _ => exact refuses_grantStoreError failure
  | revokeGrant _ _ _ _ => exact refuses_grantStoreError failure
  | claimRun _ _ _ _ => exact refuses_leaseStoreError failure
  | heartbeatRun _ _ _ _ _ => exact refuses_leaseStoreError failure
  | markRunStarted _ _ _ _ => exact refuses_leaseStoreError failure
  | finishRun _ _ _ _ _ _ => exact refuses_leaseStoreError failure
  | _ => exact refuses_leaseStoreError .database

/-- The reply shows what a call that went through answered. -/
inductive Shows (codecs : TextCodecs) : Command → Response → Reply → Prop
  | module {tenant : Uuid} {digest : Digest} {bytes : List UInt8}
      {kind : PutModule} : Shows codecs (.putModule tenant digest bytes)
        (.module kind) ⟨if kind = .created then 201 else 200, none,
          .module (Hash.hex digest.bytes) bytes.length 1⟩
  | run {runId tenant : Uuid} {key : String} {request : NormalizedRun}
      {maxPendingGlobal maxPendingTenant : Nat} {admission : Admission} :
      Shows codecs
        (.admitRun runId tenant key request maxPendingGlobal maxPendingTenant)
        (.admission admission)
        ⟨if admission.kind = .created then 202 else 200, none,
          .run (RunView.of codecs admission.run)⟩
  | created {id tenant : Uuid} {parent : Option Uuid} {actorId : String}
      {authority : EffectLatch.Authority} {record : GrantRecord} :
      Shows codecs (.createGrant id tenant parent actorId authority)
        (.grant record) ⟨201, none, .grant (GrantView.of record)⟩
  | grant {tenant id : Uuid} {record : GrantRecord} :
      Shows codecs (.getGrant tenant id) (.grant record)
        ⟨200, none, .grant (GrantView.of record)⟩
  | revocation {tenant id : Uuid} {actorId reason : String}
      {record : RevocationRecord} :
      Shows codecs (.revokeGrant tenant id actorId reason)
        (.revocation record) ⟨200, none, .revocation record.id record.revokedAt⟩
  | lease {worker : String} {tenants : List Uuid} {slots : Nat}
      {policy : ClaimPolicy} {lease : Option Lease} :
      Shows codecs (.claimRun worker tenants slots policy) (.lease lease)
        ⟨200, none, .lease (lease.map (LeaseView.of codecs))⟩
  | heartbeat {run : Uuid} {worker : String} {tenants : List Uuid}
      {epoch : Int} {leaseMs : Nat} {result : Heartbeat} :
      Shows codecs (.heartbeatRun run worker tenants epoch leaseMs)
        (.heartbeat result)
        ⟨200, none, .heartbeat result.expiresAt result.cancelRequested⟩
  | started {run : Uuid} {worker : String} {tenants : List Uuid}
      {epoch : Int} : Shows codecs (.markRunStarted run worker tenants epoch)
        .started ⟨200, none, .state "running"⟩
  | finished {run : Uuid} {worker : String} {tenants : List Uuid}
      {epoch : Int} {output : Option (List UInt8)}
      {errorCode : Option String} {record : RunRecord} :
      Shows codecs (.finishRun run worker tenants epoch output errorCode)
        (.finished record) ⟨200, none, .run (RunView.of codecs record)⟩

theorem Shows.status {codecs : TextCodecs} {command : Command}
    {response : Response} {reply : Reply}
    (shows : Shows codecs command response reply) :
    reply.status = 200 ∨ reply.status = 201 ∨ reply.status = 202 := by
  cases shows with
  | @module _ _ _ kind => cases kind <;> simp
  | @run _ _ _ _ _ _ admission => cases admission.kind <;> simp
  | _ => simp

/-- A call of a handler that went through is shown. -/
theorem Issues.shows {command : Command} {response : Response}
    {db next : Database} {clock : Clock}
    (issues : Issues service fresh principal command)
    (moved : Database.Transition service.sha256 db clock command response
      next) :
    Shows service.codecs command response
      (wording service.codecs command (.ok response)) := by
  cases issues with
  | uploaded =>
      cases moved with
      | unchanged observed => cases observed; exact .module
      | moduleCreated _ _ => exact .module
  | submitted =>
      cases moved with
      | unchanged observed => cases observed; exact .run
      | admitted _ _ _ _ _ _ _ _ _ _ => exact .run
  | delegated =>
      cases moved with
      | unchanged observed => cases observed
      | grantCreated _ _ _ _ _ => exact .created
  | inspected =>
      cases moved with
      | unchanged observed => cases observed; exact .grant
  | revoked =>
      cases moved with
      | unchanged observed => cases observed; exact .revocation
      | grantRevoked _ _ _ => exact .revocation
  | claimed =>
      cases moved with
      | unchanged observed => cases observed; exact .lease
      | leased _ _ _ _ _ _ _ _ => exact .lease
      | denied _ _ _ => exact .lease
  | renewed =>
      cases moved with
      | unchanged observed => cases observed
      | renewed _ _ _ _ _ _ _ _ _ => exact .heartbeat
  | started =>
      cases moved with
      | unchanged observed => cases observed; exact .started
      | started _ _ _ => exact .started
  | finished =>
      cases moved with
      | unchanged observed => cases observed
      | finished _ _ _ _ _ _ _ => exact .finished

end Handlers

end Api

namespace Daemon

/-- A served request was refused by its handler, or asked for a command that
failed, or for one that went through. -/
inductive Served (daemon : Daemon) (db : Database) (clock : Clock)
    (fresh : Uuid) (request : Api.Request) : Api.Reply → Database → Prop
  | refused {reply : Api.Reply}
      (asked : daemon.command ⟨.request request fresh, clock⟩ = none)
      (blames : reply.Blames) : Served daemon db clock fresh request reply db
  | failed {command : Command} {principal : Auth.Principal} {failure : Error}
      (asked : daemon.command ⟨.request request fresh, clock⟩ = some command)
      (known : Known principal)
      (issues : Api.Issues daemon.service fresh principal command)
      (executed : db.execute daemon.sha256 ⟨command, clock⟩ = .error failure) :
      Served daemon db clock fresh request
        (Api.wording daemon.codecs command (.error failure)) db
  | answered {command : Command} {principal : Auth.Principal}
      {response : Response} {reply : Api.Reply} {next : Database}
      (asked : daemon.command ⟨.request request fresh, clock⟩ = some command)
      (credits : daemon.Credits request.headers principal)
      (issues : Api.Issues daemon.service fresh principal command)
      (performed : db.perform daemon.sha256 ⟨command, clock⟩ =
        (.ok response, next))
      (moved : Database.Transition daemon.sha256 db clock command response next)
      (shows : Api.Shows daemon.codecs command response reply) :
      Served daemon db clock fresh request reply next

theorem serves (daemon : Daemon) (db : Database) (clock : Clock) (fresh : Uuid)
    (request : Api.Request) :
    daemon.Served db clock fresh request
      (daemon.service.serve db clock fresh request).1
      (daemon.service.serve db clock fresh request).2 := by
  cases responded : Api.respond daemon.service fresh request with
  | error reply =>
      have asked : daemon.command ⟨.request request fresh, clock⟩ = none := by
        simp [Daemon.command, responded, Except.toOption]
      simp only [Service.serve, responded]
      exact .refused asked (Api.failsWith_respond reply responded)
  | ok call =>
      have asked : daemon.command ⟨.request request fresh, clock⟩ =
          some call.command := by
        simp [Daemon.command, responded, Except.toOption]
      obtain ⟨principal, credits, known, made⟩ := made_of_respond responded
      have done : daemon.service.serve db clock fresh request =
          (Api.wording daemon.codecs call.command
              (db.perform daemon.sha256 ⟨call.command, clock⟩).1,
            (db.perform daemon.sha256 ⟨call.command, clock⟩).2) := by
        simp only [Service.serve, responded, made.worded]
        rfl
      rw [done]
      rcases db.perform_cases daemon.sha256 ⟨call.command, clock⟩ with
        ⟨failure, executed, performed⟩ | ⟨response, next, moved, performed⟩
      · rw [performed]
        exact .failed asked known made.issues executed
      · rw [performed]
        exact .answered asked credits made.issues performed moved
          (made.issues.shows moved)

/-- A body that words no error was shown by a call that went through. -/
theorem shows_of_said {daemon : Daemon} {event : Event} {body : Api.Body}
    (done : daemon.perform event.before event.call =
      (event.outcome, event.after))
    (said : event.outcome.map Api.Reply.body = some body)
    (worded : ∀ code message retryable,
      body ≠ .error code message retryable) :
    ∃ command response reply, daemon.command event.call = some command ∧
      event.before.perform daemon.sha256 ⟨command, event.call.clock⟩ =
        (.ok response, event.after) ∧
      Api.Shows daemon.codecs command response reply ∧ reply.body = body := by
  have unworded (reply : Api.Reply) (refuses : reply.Refuses) :
      reply.body ≠ body := by
    obtain ⟨code, message, retryable, wording, _⟩ := refuses.worded
    exact fun same => worded code message retryable (same.symm.trans wording)
  obtain ⟨before, ⟨action, clock⟩, outcome, after⟩ := event
  cases action with
  | request request fresh =>
      have served := daemon.serves before clock fresh request
      simp only [perform, Prod.mk.injEq] at done
      obtain ⟨rfl, rfl⟩ := done
      simp only [Option.map_some, Option.some.injEq] at said
      generalize (daemon.service.serve before clock fresh request).1 = reply
        at served said
      generalize (daemon.service.serve before clock fresh request).2 = after
        at served ⊢
      cases served with
      | refused _ blames => exact absurd said (unworded _ blames.1)
      | failed _ _ _ _ =>
          exact absurd said (unworded _ (Api.refuses_wording _ _ _))
      | answered asked _ _ performed _ shows =>
          exact ⟨_, _, _, asked, performed, shows, said⟩
  | sweep =>
      simp only [perform, Prod.mk.injEq] at done
      simp [← done.1] at said
  | outside command apart =>
      simp only [perform, Prod.mk.injEq] at done
      simp [← done.1] at said

end Daemon

end Control

end EffectLatch
