import EffectLatch.AuthenticationExactness
import EffectLatch.ControlRequests

/-!
# Requests stay within their principal's role

Only the operator's principal file gives authority.  Whatever a request says of
itself, it changes the store only on behalf of the record whose token it
carries, only in the tenants of that record, and only what its role is for.
-/

namespace EffectLatch

namespace Control

/-- The tenants a principal acts in. -/
def Auth.Principal.Covers (principal : Auth.Principal) (tenant : Uuid) :
    Prop :=
  match principal.authority with
  | .owner own | .invoker own _ => tenant = own
  | .worker _ tenants => tenant ∈ tenants

namespace Auth.Principal

variable {principal : Principal} {tenant : Uuid}

theorem authority_of_ownerTenant
    (acts : principal.ownerTenant = some tenant) :
    principal.authority = .owner tenant := by
  unfold ownerTenant at acts
  split at acts
  next own given => rw [given, Option.some.inj acts]
  next => simp at acts

theorem authority_of_tenant (acts : principal.tenant = some tenant) :
    principal.authority = .owner tenant ∨
      ∃ grants, principal.authority = .invoker tenant grants := by
  unfold Principal.tenant at acts
  split at acts
  next own given => exact .inl (by rw [given, Option.some.inj acts])
  next own grants given =>
      exact .inr ⟨grants, by rw [given, Option.some.inj acts]⟩
  next => simp at acts

theorem authority_of_workerTenants {worker : String}
    {tenants : OrderedSet Uuid}
    (acts : principal.workerTenants worker = some tenants) :
    principal.authority = .worker worker tenants := by
  unfold workerTenants at acts
  split at acts
  next configured allowed given =>
      split at acts
      next same => rw [given, same, Option.some.inj acts]
      next => simp at acts
  next => simp at acts

theorem covers_of_tenant (acts : principal.tenant = some tenant)
    (other : Uuid) : principal.Covers other ↔ other = tenant := by
  unfold Covers
  rcases authority_of_tenant acts with given | ⟨grants, given⟩
  · rw [given]
  · rw [given]

theorem covers_of_ownerTenant (acts : principal.ownerTenant = some tenant)
    (other : Uuid) : principal.Covers other ↔ other = tenant := by
  rw [Covers, authority_of_ownerTenant acts]

theorem covers_of_workerTenants {worker : String} {tenants : OrderedSet Uuid}
    (acts : principal.workerTenants worker = some tenants) (other : Uuid) :
    principal.Covers other ↔ other ∈ tenants.toList := by
  rw [Covers, authority_of_workerTenants acts]
  rfl

end Auth.Principal

/-- A request reaches into the tenants of its principal only. -/
theorem Api.Issues.scope {service : Service} {fresh : Uuid}
    {principal : Auth.Principal} {command : Command} {tenant : Uuid}
    (issues : Api.Issues service fresh principal command)
    (within : command.Scope tenant) : principal.Covers tenant := by
  cases issues with
  | uploaded acts valid => exact (principal.covers_of_tenant acts _).mpr within
  | submitted acts _ _ _ => exact (principal.covers_of_tenant acts _).mpr within
  | delegated acts _ =>
      exact (principal.covers_of_ownerTenant acts _).mpr within
  | inspected acts _ => exact (principal.covers_of_tenant acts _).mpr within
  | revoked acts _ _ _ =>
      exact (principal.covers_of_ownerTenant acts _).mpr within
  | claimed acts => exact (principal.covers_of_workerTenants acts _).mpr within
  | renewed acts => exact (principal.covers_of_workerTenants acts _).mpr within
  | started acts => exact (principal.covers_of_workerTenants acts _).mpr within
  | finished acts _ =>
      exact (principal.covers_of_workerTenants acts _).mpr within

/-- Runs are only added, each for the tenant and under a permitted grant. -/
structure RunsAdded (tenant : Uuid) (permitted : Uuid → Prop)
    (before after : Database) : Prop where
  kept : ∀ row ∈ before.runs.rows, row ∈ after.runs.rows
  added : ∀ row ∈ after.runs.rows, row ∉ before.runs.rows →
    row.tenantId = tenant ∧ permitted row.grantId
  tenants : after.tenants = before.tenants
  scheduler : after.schedulerState = before.schedulerState

/-- Runs are only rewritten: those the worker's lease is on, and queued ones
that are leased to it or fail for want of a live grant. -/
structure RunsWorked (worker : String) (tenants : OrderedSet Uuid)
    (before after : Database) : Prop where
  worked : ∀ row ∈ after.runs.rows, row ∈ before.runs.rows ∨
    ∃ old ∈ before.runs.rows, old.id = row.id ∧ old.tenantId ∈ tenants ∧
      (old.leaseOwner = some worker ∨
        (old.state = .queued ∧
          (row.leaseOwner = some worker ∨ row.state = .failed)))
  modules : after.modules = before.modules

/-- What a role may change in one request. -/
def Auth.Authority.Permits (authority : Auth.Authority)
    (before after : Database) : Prop :=
  match authority with
  | .owner tenant => RunsAdded tenant (fun _ => True) before after
  | .invoker tenant grants =>
      RunsAdded tenant (· ∈ grants) before after ∧
        after.grants = before.grants ∧
        after.operatorEvents = before.operatorEvents
  | .worker workerId tenants =>
      RunsWorked workerId tenants before after ∧
        after.grants = before.grants ∧
        after.operatorEvents = before.operatorEvents

section Roles

variable {service : Service} {fresh : Uuid} {principal : Auth.Principal}
  {db next : Database} {clock : Clock} {command : Command}
  {response : Response} {tenant : Uuid}

theorem RunsAdded.of_same {permitted : Uuid → Prop}
    (runs : next.runs = db.runs) (tenants : next.tenants = db.tenants)
    (scheduler : next.schedulerState = db.schedulerState) :
    RunsAdded tenant permitted db next :=
  ⟨fun _ member => runs ▸ member,
    fun _ member new => absurd (runs ▸ member) new, tenants, scheduler⟩

/-- What an owner and an invoker may both do. -/
theorem permits_of_tenant (acts : principal.tenant = some tenant)
    (added : RunsAdded tenant
      (fun grant => principal.permitsGrant tenant grant = true) db next)
    (grants : next.grants = db.grants)
    (events : next.operatorEvents = db.operatorEvents) :
    principal.authority.Permits db next := by
  rcases Auth.Principal.authority_of_tenant acts with given | ⟨allowed, given⟩
  · rw [given]
    exact ⟨added.kept, fun row member new =>
      ⟨(added.added row member new).1, trivial⟩, added.tenants,
      added.scheduler⟩
  · rw [given]
    refine ⟨⟨added.kept, ?_, added.tenants, added.scheduler⟩, grants, events⟩
    intro row member new
    obtain ⟨owned, permitted⟩ := added.added row member new
    simp only [Auth.Principal.permitsGrant, given, Bool.and_eq_true,
      decide_eq_true_eq] at permitted
    exact ⟨owned, permitted.2⟩

theorem RunsWorked.of_replaced {worker : String} {tenants : OrderedSet Uuid}
    {old new : RunRow} (replaced : Table.Replaced db.runs next.runs old new)
    (sameId : new.id = old.id) (allowed : old.tenantId ∈ tenants)
    (modules : next.modules = db.modules)
    (reason : old.leaseOwner = some worker ∨
      (old.state = .queued ∧
        (new.leaseOwner = some worker ∨ new.state = .failed))) :
    RunsWorked worker tenants db next := by
  refine ⟨?_, modules⟩
  intro row member
  rcases replaced.mem_iff.mp member with rfl | ⟨stored, _⟩
  · exact .inr ⟨old, replaced.member, sameId.symm, allowed, reason⟩
  · exact .inl stored

theorem RunsWorked.of_same {worker : String} {tenants : OrderedSet Uuid}
    (runs : next.runs = db.runs) (modules : next.modules = db.modules) :
    RunsWorked worker tenants db next :=
  ⟨fun _ member => .inl (runs ▸ member), modules⟩

/-- A command a request issues does what the principal's role permits, and
never touches an effect. -/
theorem Api.Issues.permits
    (issues : Api.Issues service fresh principal command)
    (moved : Database.Transition service.sha256 db clock command response
      next) :
    principal.authority.Permits db next ∧ next.effects = db.effects ∧
      next.effectReservations = db.effectReservations := by
  cases issues with
  | uploaded acts valid =>
      cases moved with
      | unchanged _ =>
          exact ⟨permits_of_tenant acts (.of_same rfl rfl rfl) rfl rfl, rfl,
            rfl⟩
      | moduleCreated _ _ =>
          exact ⟨permits_of_tenant acts (.of_same rfl rfl rfl) rfl rfl, rfl,
            rfl⟩
  | submitted acts _ _ permitted =>
      cases moved with
      | unchanged _ =>
          exact ⟨permits_of_tenant acts (.of_same rfl rfl rfl) rfl rfl, rfl,
            rfl⟩
      | admitted _ _ _ _ _ _ _ inserted _ _ =>
          refine ⟨permits_of_tenant acts ⟨?_, ?_, rfl, rfl⟩ rfl rfl, rfl, rfl⟩
          · exact fun row member => inserted.mem_iff.mpr (.inl member)
          · intro row member new
            obtain rfl := (inserted.mem_iff.mp member).resolve_left new
            exact ⟨rfl, permitted⟩
  | delegated acts _ =>
      rw [Auth.Principal.authority_of_ownerTenant acts]
      cases moved with
      | unchanged observed => cases observed
      | grantCreated _ _ _ _ _ => exact ⟨RunsAdded.of_same rfl rfl rfl, rfl, rfl⟩
  | inspected acts _ =>
      cases moved with
      | unchanged _ =>
          exact ⟨permits_of_tenant acts (.of_same rfl rfl rfl) rfl rfl, rfl,
            rfl⟩
  | revoked acts _ _ _ =>
      rw [Auth.Principal.authority_of_ownerTenant acts]
      cases moved with
      | unchanged _ => exact ⟨RunsAdded.of_same rfl rfl rfl, rfl, rfl⟩
      | grantRevoked _ _ _ => exact ⟨RunsAdded.of_same rfl rfl rfl, rfl, rfl⟩
  | claimed acts =>
      rw [Auth.Principal.authority_of_workerTenants acts]
      cases moved with
      | unchanged _ => exact ⟨⟨.of_same rfl rfl, rfl, rfl⟩, rfl, rfl⟩
      | leased selected _ _ _ _ _ recorded _ =>
          have allowed :=
            (Database.claimCandidate_eq_some selected.candidate).2.1
          exact ⟨⟨.of_replaced recorded.replaced rfl (selected.owned ▸ allowed) rfl
            (.inr ⟨selected.queued, .inl rfl⟩), rfl, rfl⟩, rfl, rfl⟩
      | denied selected _ recorded =>
          have allowed :=
            (Database.claimCandidate_eq_some selected.candidate).2.1
          exact ⟨⟨.of_replaced recorded.replaced rfl (selected.owned ▸ allowed) rfl
            (.inr ⟨selected.queued, .inr rfl⟩), rfl, rfl⟩, rfl, rfl⟩
  | renewed acts =>
      rw [Auth.Principal.authority_of_workerTenants acts]
      cases moved with
      | unchanged observed => cases observed
      | renewed lease _ _ _ _ _ _ _ replaced =>
          exact ⟨⟨.of_replaced replaced rfl
            lease.permitted rfl (.inl lease.owner), rfl, rfl⟩, rfl, rfl⟩
  | started acts =>
      rw [Auth.Principal.authority_of_workerTenants acts]
      cases moved with
      | unchanged _ => exact ⟨⟨.of_same rfl rfl, rfl, rfl⟩, rfl, rfl⟩
      | started lease _ recorded =>
          exact ⟨⟨.of_replaced recorded.replaced rfl lease.permitted rfl
            (.inl lease.owner), rfl, rfl⟩, rfl, rfl⟩
  | finished acts _ =>
      rw [Auth.Principal.authority_of_workerTenants acts]
      cases moved with
      | unchanged observed => cases observed
      | finished lease _ _ _ _ _ recorded =>
          exact ⟨⟨.of_replaced recorded.replaced rfl lease.permitted rfl
            (.inl lease.owner), rfl, rfl⟩, rfl, rfl⟩

end Roles

namespace Daemon

/-- The only credential of the headers is the token of a record of the
principal file, and the record describes the principal. -/
def Credits (daemon : Daemon) (headers : Api.Headers)
    (principal : Auth.Principal) : Prop :=
  ∃ bytes file record value text,
    Auth.Principals.parse daemon.codecs daemon.fromSlice bytes =
      .ok daemon.principals ∧
    daemon.fromSlice bytes = some file ∧ record ∈ file.principals ∧
    headers.authorization = [value] ∧ Api.toStr value = some text ∧
    record.Accepts daemon.sha256 text ∧ record.Gives daemon.codecs principal

theorem credits_of_authenticate {daemon : Daemon} {headers : Api.Headers}
    {principal : Auth.Principal}
    (authenticated : Api.authenticate daemon.service headers =
      .ok principal) : daemon.Credits headers principal := by
  simp only [Api.authenticate, Except.fetch_eq_ok_iff, Option.bind_eq_bind,
    Option.bind_eq_some_iff] at authenticated
  obtain ⟨value, given, text, read, found⟩ := authenticated
  have accepted := Except.eq_ok_of_toOption found
  obtain ⟨bytes, mapped⟩ := daemon.mapped
  obtain ⟨_, file, listed, _, loaded, entries⟩ :=
    Auth.Principals.parse_eq_ok_iff.mp mapped
  change daemon.principals.authenticate daemon.sha256 text = _ at accepted
  rw [entries, Auth.Principals.authenticate_eq_ok_iff loaded] at accepted
  obtain ⟨record, member, gives, accepts⟩ := accepted
  have once : headers.authorization = [value] := by
    unfold Api.single at given
    split at given
    next only => rw [only, Option.some.inj given]
    next => simp at given
  exact ⟨bytes, file, record, value, text, mapped, listed, member, once, read,
    accepts, gives⟩

/-- A request that changed the store issued a command for its principal. -/
theorem request_cases (daemon : Daemon) (db : Database) (clock : Clock)
    (request : Api.Request) (fresh : Uuid) :
    (daemon.perform db ⟨.request request fresh, clock⟩).2 = db ∨
      ∃ principal command response next,
        daemon.Credits request.headers principal ∧
        Api.Issues daemon.service fresh principal command ∧
        Database.Transition daemon.sha256 db clock command response next ∧
        (daemon.perform db ⟨.request request fresh, clock⟩).2 = next := by
  cases responded : Api.respond daemon.service fresh request with
  | error reply => exact .inl (by simp [perform, Service.serve, responded])
  | ok call =>
      obtain ⟨principal, authenticated, made⟩ := Api.respond_eq_ok responded
      have served : (daemon.perform db ⟨.request request fresh, clock⟩).2 =
          (db.perform daemon.sha256 ⟨call.command, clock⟩).2 := by
        simp only [perform, Service.serve, responded]
        rfl
      rcases db.perform_cases daemon.sha256 ⟨call.command, clock⟩ with
        ⟨_, _, performed⟩ | ⟨response, next, moved, performed⟩
      · exact .inl (served.trans (by rw [performed]))
      · exact .inr ⟨principal, call.command, response, next,
          credits_of_authenticate authenticated, made.issues, moved,
          served.trans (by rw [performed])⟩

end Daemon

/-- A request that changes anything carries, as its only credential, the token
of a record of the principal file.  It leaves the rows of every tenant outside
that record alone, stays within what the record's role permits, and touches no
effect. -/
theorem requests_act_within_roles {daemon : Daemon}
    {history : List Daemon.Event} {db : Database}
    (run : daemon.Run history db) :
    ∀ event ∈ history, ∀ request fresh,
      event.call.action = .request request fresh →
      event.after = event.before ∨
        ∃ principal, daemon.Credits request.headers principal ∧
          (∀ tenant, ¬ principal.Covers tenant →
            Database.SameRows tenant event.before event.after) ∧
          principal.authority.Permits event.before event.after ∧
          event.after.effects = event.before.effects ∧
          event.after.effectReservations = event.before.effectReservations := by
  intro event member request fresh asked
  obtain ⟨_, _, _, _, done, _⟩ := run.split_mem member
  obtain ⟨before, ⟨action, clock⟩, outcome, after⟩ := event
  simp only at asked done
  subst asked
  have reached : (daemon.perform before ⟨.request request fresh, clock⟩).2 =
      after := by rw [done]
  rcases daemon.request_cases before clock request fresh with
    same | ⟨principal, command, response, next, credits, issues, moved, ends⟩
  · exact .inl (reached.symm.trans same)
  · obtain rfl := reached.symm.trans ends
    obtain ⟨permitted, effects, reservations⟩ := issues.permits moved
    refine .inr ⟨principal, credits, ?_, permitted, effects, reservations⟩
    intro tenant outside
    exact moved.sameRows fun within => outside (issues.scope within)

theorem requests_act_within_roles_claim :
    ∃ principal,
      Sample.daemon.Credits (Sample.headers Sample.workerToken) principal ∧
      (∀ tenant, ¬ principal.Covers tenant →
        Database.SameRows tenant Sample.claiming.before
          Sample.claiming.after) ∧
      principal.authority.Permits Sample.claiming.before
        Sample.claiming.after := by
  have dispatched : Sample.claiming.before.schedulerState = some 0 ∧
      Sample.claiming.after.schedulerState = some 1 := by
    decide +kernel
  rcases requests_act_within_roles Sample.served_run Sample.claiming
    Sample.claiming_mem _ 0 rfl with same | ⟨principal, credits, others,
      permitted, _⟩
  · rw [same, dispatched.1] at dispatched
    simp at dispatched
  · exact ⟨principal, credits, others, permitted⟩

end Control

end EffectLatch
