import EffectLatch.RoleConfinement

/-!
# The operator events are an exact audit trail

Creating a grant and revoking one for the first time each leave one operator
event, and nothing else does.  So the events mirror the grants table, and they
are what the accepted requests of owners did, in order.
-/

namespace EffectLatch

namespace Database

/-- The event of an answered call, if it leaves one. -/
def auditOf (sha256 : Sha256) (db : Database) (command : Command)
    (response : Response) : Option OperatorEventRow :=
  match command, response with
  | .createGrant id tenant parent actorId authority, .grant _ =>
      some ⟨tenant, actorId, "grant.created", id,
        Hash.grant sha256 parent authority⟩
  | .revokeGrant tenant id actorId reason, .revocation _ =>
      if (db.findGrant tenant id).any (fun row => row.revokedAt.isNone) then
        some ⟨tenant, actorId, "grant.revoked", id,
          Hash.grantRevocation sha256 id reason⟩
      else none
  | _, _ => none

variable {sha256 : Sha256} {db next : Database} {clock : Clock}
  {command : Command} {response : Response}

theorem auditOf_of_outside (apart : command.outside = true) :
    db.auditOf sha256 command response = none := by
  cases command with
  | createGrant _ _ _ _ _ => simp [Command.outside] at apart
  | revokeGrant _ _ _ _ => simp [Command.outside] at apart
  | _ => simp [auditOf]

theorem Transition.operatorEvents
    (moved : Transition sha256 db clock command response next) :
    next.operatorEvents = db.operatorEvents ++
      (db.auditOf sha256 command response).toList := by
  cases moved with
  | unchanged observed =>
      cases observed with
      | revokedBefore found revoked =>
          simp [auditOf, found, revoked]
      | _ => simp [auditOf]
  | grantCreated _ _ _ _ _ => simp [auditOf]
  | grantRevoked found unrevoked _ => simp [auditOf, found, unrevoked]
  | _ => simp [auditOf]

/-- How often an action is on record for a grant. -/
def auditCount (db : Database) (action : String) (tenant id : Uuid) : Nat :=
  db.operatorEvents.countP fun row =>
    decide (row.tenantId = tenant ∧ row.objectId = id ∧ row.action = action)

/-- The grants with this identity, revoked or not. -/
def grantCount (db : Database) (tenant id : Uuid) : Nat :=
  db.grants.rows.countP fun row =>
    decide (row.tenantId = tenant ∧ row.id = id)

def revokedCount (db : Database) (tenant id : Uuid) : Nat :=
  db.grants.rows.countP fun row =>
    decide (row.tenantId = tenant ∧ row.id = id ∧ row.revokedAt ≠ none)

/-- Every grant has one creation on record and, when it is revoked, one
revocation; nothing else is on record. -/
structure Audited (db : Database) : Prop where
  created : ∀ tenant id,
    db.auditCount "grant.created" tenant id = db.grantCount tenant id
  revoked : ∀ tenant id,
    db.auditCount "grant.revoked" tenant id = db.revokedCount tenant id
  actions : ∀ row ∈ db.operatorEvents,
    row.action = "grant.created" ∨ row.action = "grant.revoked"

theorem audited_migrated : migrated.Audited := by
  constructor <;> simp [migrated, auditCount, grantCount, revokedCount,
    Table.empty]

theorem auditCount_append {row : OperatorEventRow}
    (logged : next.operatorEvents = db.operatorEvents ++ [row])
    (action : String) (tenant id : Uuid) :
    next.auditCount action tenant id = db.auditCount action tenant id +
      if row.tenantId = tenant ∧ row.objectId = id ∧ row.action = action then 1
      else 0 := by
  simp [auditCount, logged, List.countP_append, List.countP_singleton]

/-- A change of the grants table that keeps identities and revocations. -/
theorem Audited.of_same (audited : db.Audited)
    (events : next.operatorEvents = db.operatorEvents)
    (same : next.grants.rows.map
        (fun row => (row.tenantId, row.id, row.revokedAt)) =
      db.grants.rows.map fun row => (row.tenantId, row.id, row.revokedAt)) :
    next.Audited := by
  have counts (counted : Uuid × Uuid × Option Timestamp → Bool) :
      next.grants.rows.countP (fun row =>
          counted (row.tenantId, row.id, row.revokedAt)) =
        db.grants.rows.countP fun row =>
          counted (row.tenantId, row.id, row.revokedAt) := by
    have mapped := congrArg (List.countP counted) same
    rw [List.countP_map, List.countP_map] at mapped
    exact mapped
  constructor
  · intro tenant id
    rw [auditCount, events]
    exact (audited.created tenant id).trans
      (counts fun row => decide (row.1 = tenant ∧ row.2.1 = id)).symm
  · intro tenant id
    rw [auditCount, events]
    exact (audited.revoked tenant id).trans
      (counts fun row =>
        decide (row.1 = tenant ∧ row.2.1 = id ∧ row.2.2 ≠ none)).symm
  · rw [events]
    exact audited.actions

theorem Transition.audited
    (moved : Transition sha256 db clock command response next)
    (audited : db.Audited) : next.Audited := by
  cases moved with
  | @grantCreated fresh owner _ _ _ _ _ _ _ _ _ _ _ inserted =>
      constructor
      · intro tenant id
        rw [auditCount_append rfl, audited.created, grantCount, grantCount,
          inserted.rows, List.countP_append, List.countP_singleton]
        by_cases same : owner = tenant ∧ fresh = id <;>
          simp [createdGrantRow, same]
      · intro tenant id
        rw [auditCount_append rfl, audited.revoked, revokedCount, revokedCount,
          inserted.rows, List.countP_append, List.countP_singleton]
        simp [createdGrantRow]
      · intro row member
        rcases List.mem_append.mp member with stored | new
        · exact audited.actions row stored
        · rw [List.mem_singleton.mp new]
          exact .inl rfl
  | @grantRevoked owner grant _ _ old _ found unrevoked replaced =>
      obtain ⟨_, owned, named⟩ := findGrant_eq_some_iff.mp found
      constructor
      · intro tenant id
        rw [auditCount_append rfl, audited.created, grantCount, grantCount,
          replaced.countP_eq _ rfl]
        simp
      · intro tenant id
        have moved := replaced.countP_add fun row =>
          decide (row.tenantId = tenant ∧ row.id = id ∧ row.revokedAt ≠ none)
        rw [auditCount_append rfl, audited.revoked, revokedCount, revokedCount]
        simpa [GrantRow.revokedFrom, unrevoked, owned, named] using moved.symm
      · intro row member
        rcases List.mem_append.mp member with stored | new
        · exact audited.actions row stored
        · rw [List.mem_singleton.mp new]
          exact .inr rfl
  | reserved _ _ _ _ _ _ _ charged _ _ =>
      refine audited.of_same rfl ?_
      rw [charged, List.map_map]
      apply List.map_congr_left
      intro row _
      simp only [Function.comp_apply, GrantRow.charged]
      split <;> rfl
  | unchanged _ => exact audited
  | _ => exact audited.of_same rfl rfl

end Database

namespace Control

/-- The operator event a served request leaves, read off its reply: a grant was
shown as created, or a revocation confirmed that was not there before. -/
def Daemon.audit (daemon : Daemon) (event : Daemon.Event) :
    Option OperatorEventRow :=
  match daemon.command event.call, event.outcome.map Api.Reply.body with
  | some (.createGrant id tenant parent actorId authority),
      some (.grant _) =>
      some ⟨tenant, actorId, "grant.created", id,
        Hash.grant daemon.sha256 parent authority⟩
  | some (.revokeGrant tenant id actorId reason), some (.revocation _ _) =>
      if (event.before.findGrant tenant id).any
          (fun row => row.revokedAt.isNone) then
        some ⟨tenant, actorId, "grant.revoked", id,
          Hash.grantRevocation daemon.sha256 id reason⟩
      else none
  | _, _ => none

namespace Api

theorem grantStoreError_body (failure : Error) :
    ∃ code message retryable,
      (grantStoreError failure).body = .error code message retryable := by
  cases failure <;> exact ⟨_, _, _, rfl⟩

end Api

namespace Daemon

variable {daemon : Daemon} {db : Database} {clock : Clock}

/-- A step that asks for neither a grant nor a revocation is not audited. -/
theorem audit_eq_none {event : Daemon.Event}
    (created : ∀ id tenant parent actorId authority, daemon.command event.call ≠
      some (.createGrant id tenant parent actorId authority))
    (revoked : ∀ tenant id actorId reason, daemon.command event.call ≠
      some (.revokeGrant tenant id actorId reason)) :
    daemon.audit event = none := by
  unfold audit
  split
  next given _ => exact absurd given (created _ _ _ _ _)
  next given _ => exact absurd given (revoked _ _ _ _)
  next => rfl

theorem audit_of_outside {command : Command} (apart : command.outside = true)
    {before after : Database} {outcome : Option Api.Reply} :
    daemon.audit ⟨before, ⟨.outside command apart, clock⟩, outcome, after⟩ =
      none := by
  apply audit_eq_none
  · rintro _ _ _ _ _ asked
    rw [Daemon.command, Option.some.injEq] at asked
    simp [asked, Command.outside] at apart
  · rintro _ _ _ _ asked
    rw [Daemon.command, Option.some.injEq] at asked
    simp [asked, Command.outside] at apart

/-- A served request is audited as its store call says. -/
theorem audit_request (db : Database) {request : Api.Request} {fresh : Uuid}
    {call : StoreCall} {principal : Auth.Principal}
    (responded : Api.respond daemon.service fresh request = .ok call)
    (made : Api.Made daemon.service fresh principal request.route call)
    (outcome : Except Error Response) (after : Database)
    (answers : outcome = (db.perform daemon.sha256 ⟨call.command, clock⟩).1) :
    (daemon.audit ⟨db, ⟨.request request fresh, clock⟩,
        some (call.reply outcome), after⟩).toList =
      (outcome.toOption.bind
        (db.auditOf daemon.sha256 call.command)).toList := by
  have asked : daemon.command ⟨.request request fresh, clock⟩ =
      some call.command := by
    simp [Daemon.command, responded, Except.toOption]
  rcases db.perform_cases daemon.sha256 ⟨call.command, clock⟩ with
    ⟨failure, _, performed⟩ | ⟨response, next, moved, performed⟩
  · obtain rfl : outcome = .error failure := by rw [answers, performed]
    obtain ⟨command, reply⟩ := call
    obtain ⟨issues, worded, _⟩ := made
    simp only at asked issues worded
    subst worded
    cases issues with
    | delegated =>
        obtain ⟨code, message, retryable, body⟩ :=
          Api.grantStoreError_body failure
        simp [audit, asked, Api.wording, Api.grantReply, body, Except.toOption]
    | revoked =>
        obtain ⟨code, message, retryable, body⟩ :=
          Api.grantStoreError_body failure
        simp [audit, asked, Api.wording, Api.revocationReply, body,
          Except.toOption]
    | _ =>
        rw [audit_eq_none (by simp [asked]) (by simp [asked])]
        rfl
  · obtain rfl : outcome = .ok response := by rw [answers, performed]
    obtain ⟨command, reply⟩ := call
    obtain ⟨issues, worded, _⟩ := made
    simp only at asked moved issues worded
    subst worded
    cases issues with
    | delegated =>
        cases moved with
        | unchanged observed => cases observed
        | grantCreated _ _ _ _ _ =>
            simp [audit, asked, Api.wording, Api.grantReply, Except.toOption,
              Database.auditOf]
    | revoked =>
        cases moved with
        | unchanged observed =>
            cases observed with
            | revokedBefore _ _ =>
                simp [audit, asked, Api.wording, Api.revocationReply,
                  Except.toOption, Database.auditOf]
        | grantRevoked _ _ _ =>
            simp [audit, asked, Api.wording, Api.revocationReply,
              Except.toOption, Database.auditOf]
    | _ =>
        rw [audit_eq_none (by simp [asked]) (by simp [asked])]
        simp [Except.toOption, Database.auditOf]

/-- A step adds the event it is audited as. -/
theorem operatorEvents_step (daemon : Daemon) (db : Database) (step : Step) :
    (daemon.perform db step).2.operatorEvents = db.operatorEvents ++
      (daemon.audit ⟨db, step, (daemon.perform db step).1,
        (daemon.perform db step).2⟩).toList := by
  obtain ⟨action, clock⟩ := step
  cases action with
  | request request fresh =>
      cases responded : Api.respond daemon.service fresh request with
      | error reply =>
          rw [audit_eq_none
            (by simp [Daemon.command, responded, Except.toOption])
            (by simp [Daemon.command, responded, Except.toOption])]
          simp [perform, Service.serve, responded]
      | ok call =>
          obtain ⟨principal, _, made⟩ := Api.respond_eq_ok responded
          have served : daemon.perform db ⟨.request request fresh, clock⟩ =
              (some (call.reply
                (db.perform daemon.sha256 ⟨call.command, clock⟩).1),
                (db.perform daemon.sha256 ⟨call.command, clock⟩).2) := by
            simp only [perform, Service.serve, responded]
            rfl
          rw [served]
          simp only
          rw [audit_request db responded made _ _ rfl]
          rcases db.perform_cases daemon.sha256 ⟨call.command, clock⟩ with
            ⟨failure, _, performed⟩ | ⟨response, next, moved, performed⟩
          · simp [performed, Except.toOption]
          · simp only [performed, Except.toOption, Option.bind_some]
            exact moved.operatorEvents
  | sweep =>
      rw [audit_eq_none (by simp [Daemon.command]) (by simp [Daemon.command])]
      rcases db.perform_cases daemon.sha256
          ⟨.reapOne daemon.config.reapPolicy, clock⟩ with
        ⟨failure, _, performed⟩ | ⟨response, next, moved, performed⟩
      · simp [perform, performed]
      · simpa [perform, performed, Database.auditOf] using
          moved.operatorEvents
  | outside command apart =>
      rw [audit_of_outside apart]
      rcases db.perform_cases daemon.sha256 ⟨command, clock⟩ with
        ⟨failure, _, performed⟩ | ⟨response, next, moved, performed⟩
      · simp [perform, performed]
      · simpa [perform, performed, Database.auditOf_of_outside apart] using
          moved.operatorEvents

/-- What is audited was asked by an owner, in its own name and tenant. -/
theorem owner_of_audit {event : Daemon.Event} {row : OperatorEventRow}
    (audited : daemon.audit event = some row) :
    ∃ request fresh principal, event.call.action = .request request fresh ∧
      daemon.Credits request.headers principal ∧
      principal.authority = .owner row.tenantId ∧
      row.actorId = principal.id := by
  obtain ⟨before, ⟨action, clock⟩, outcome, after⟩ := event
  cases action with
  | request request fresh =>
      cases responded : Api.respond daemon.service fresh request with
      | error reply =>
          rw [audit_eq_none
            (by simp [Daemon.command, responded, Except.toOption])
            (by simp [Daemon.command, responded, Except.toOption])] at audited
          simp at audited
      | ok call =>
          obtain ⟨principal, authenticated, made⟩ :=
            Api.respond_eq_ok responded
          refine ⟨request, fresh, principal, rfl,
            credits_of_authenticate authenticated, ?_⟩
          have asked : daemon.command ⟨.request request fresh, clock⟩ =
              some call.command := by
            simp [Daemon.command, responded, Except.toOption]
          have issues := made.issues
          generalize call.command = command at asked issues
          cases issues with
          | delegated acts _ =>
              simp only [audit, asked] at audited
              split at audited
              next =>
                simp only [Option.some.injEq] at audited
                subst audited
                rename_i same _
                simp only [Option.some.injEq, Command.createGrant.injEq] at same
                obtain ⟨_, rfl, _, rfl, _⟩ := same
                exact ⟨Auth.Principal.authority_of_ownerTenant acts, rfl⟩
              next same _ => simp at same
              next => simp at audited
          | revoked acts _ _ _ =>
              simp only [audit, asked] at audited
              split at audited
              next same _ => simp at same
              next same _ =>
                simp only [Option.some.injEq, Command.revokeGrant.injEq] at same
                obtain ⟨rfl, _, rfl, _⟩ := same
                split at audited
                · simp only [Option.some.injEq] at audited
                  subst audited
                  exact ⟨Auth.Principal.authority_of_ownerTenant acts, rfl⟩
                · simp at audited
              next => simp at audited
          | _ =>
              rw [audit_eq_none (by simp [asked]) (by simp [asked])] at audited
              simp at audited
  | sweep =>
      rw [audit_eq_none (by simp [Daemon.command]) (by simp [Daemon.command])]
        at audited
      simp at audited
  | outside command apart =>
      rw [audit_of_outside apart] at audited
      simp at audited

end Daemon

/-- In every run of the daemon the operator events are those its accepted owner
requests left, in order, each in the name and tenant of the owner whose token
the request carried; and they mirror the grants: one creation for each grant,
one revocation for each revoked one, and nothing else. -/
theorem audit_trail_exact {daemon : Daemon} {history : List Daemon.Event}
    {db : Database} (run : daemon.Run history db) :
    db.operatorEvents = history.filterMap daemon.audit ∧
    (∀ event ∈ history, ∀ row, daemon.audit event = some row →
      ∃ request fresh principal, event.call.action = .request request fresh ∧
        daemon.Credits request.headers principal ∧
        principal.authority = .owner row.tenantId ∧
        row.actorId = principal.id) ∧
    db.Audited := by
  refine ⟨?_, fun _ _ _ audited => Daemon.owner_of_audit audited, ?_⟩
  · refine run.historyInvariant
      (fun history db => db.operatorEvents = history.filterMap daemon.audit)
      rfl ?_
    intro history db step _ holds _
    rw [daemon.operatorEvents_step, holds, List.filterMap_append]
    simp only [List.filterMap_cons, List.filterMap_nil]
    cases daemon.audit _ <;> rfl
  · exact Reachable.invariant Database.Audited Database.audited_migrated
      (fun _ _ _ _ holds _ moved => moved.audited holds)
      ⟨_, run.project daemon.projects⟩

theorem audit_trail_exact_sample :
    Sample.served.operatorEvents =
        Sample.history.filterMap Sample.daemon.audit ∧
      Sample.served.auditCount "grant.created" 1 10 = 1 := by
  have mirrored := audit_trail_exact Sample.served_run
  refine ⟨mirrored.1, ?_⟩
  rw [mirrored.2.2.created]
  decide +kernel

end Control

end EffectLatch
