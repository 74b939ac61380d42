import EffectLatch.GrantForestInvariant
import EffectLatch.TenantSlices

/-!
# Isolation of tenants

An operation changes rows of the tenants in its scope only.  What a tenant is
answered depends on its own rows and, for an admission, on how many runs are
pending altogether.  A worker cannot tell a run of a tenant it does not serve
from a run that is not there.
-/

namespace EffectLatch

/-- The tenants whose rows a command may change. -/
def Command.Scope : Command → Uuid → Prop
  | .putModule tenant _ _ => (· = tenant)
  | .admitRun _ tenant _ _ _ _ => (· = tenant)
  | .createGrant _ tenant _ _ _ => (· = tenant)
  | .getGrant tenant _ => (· = tenant)
  | .revokeGrant tenant _ _ _ => (· = tenant)
  | .reserveGrantChain request => (· = request.tenant)
  | .claimRun _ allowedTenants _ _ => (· ∈ allowedTenants)
  | .heartbeatRun _ _ allowedTenants _ _ => (· ∈ allowedTenants)
  | .markRunStarted _ _ allowedTenants _ => (· ∈ allowedTenants)
  | .reapOne _ => fun _ => True
  | .finishRun _ _ allowedTenants _ _ _ => (· ∈ allowedTenants)
  | .provisionTenant id _ _ => (· = id)
  | .requestCancel tenant _ => (· = tenant)
  | .prepareEffect intent => (· = intent.tenantId)
  | .moveEffect tenant _ _ _ => (· = tenant)

/-- The tenant an operation of the control plane is issued for. -/
def Command.issuedFor : Command → Option Uuid
  | .putModule tenant _ _ => some tenant
  | .admitRun _ tenant _ _ _ _ => some tenant
  | .createGrant _ tenant _ _ _ => some tenant
  | .getGrant tenant _ => some tenant
  | .revokeGrant tenant _ _ _ => some tenant
  | _ => none

/-- The allowlist a worker operation carries. -/
def Command.allowlist : Command → Option (List Uuid)
  | .claimRun _ allowedTenants _ _ => some allowedTenants
  | .heartbeatRun _ _ allowedTenants _ _ => some allowedTenants
  | .markRunStarted _ _ allowedTenants _ => some allowedTenants
  | .finishRun _ _ allowedTenants _ _ _ => some allowedTenants
  | _ => none

/-- The run a worker operation names. -/
def Command.leasedRun : Command → Option Uuid
  | .heartbeatRun run _ _ _ _ => some run
  | .markRunStarted run _ _ _ => some run
  | .finishRun run _ _ _ _ _ => some run
  | _ => none

theorem Command.scope_of_issuedFor {command : Command} {tenant other : Uuid}
    (issued : command.issuedFor = some tenant) :
    command.Scope other ↔ other = tenant := by
  cases command <;> simp_all [Command.issuedFor, Command.Scope]

theorem Command.scope_of_allowlist {command : Command} {other : Uuid}
    {allowedTenants : List Uuid}
    (listed : command.allowlist = some allowedTenants) :
    command.Scope other ↔ other ∈ allowedTenants := by
  cases command <;> simp_all [Command.allowlist, Command.Scope]

namespace Database

variable {sha256 : Sha256} {db next other : Database} {clock : Clock}
  {command : Command} {response : Response} {tenant : Uuid}

/-- The UUID drawn for a new run is not one of another tenant's runs. -/
def FreshRunId (db : Database) (command : Command) : Prop :=
  match command with
  | .admitRun runId tenant _ _ _ _ =>
      ∀ row ∈ db.runs.rows, row.id = runId → row.tenantId = tenant
  | _ => True

/-- Recording a run leaves the event rows of other tenants alone. -/
theorem sameOn_logged {events : Table RunEventRow.schema} {row : RunRow}
    {entries : List (String × List UInt8)}
    (logged : events.rows = db.runEvents.rows ++ row.emitted sha256 entries)
    (outside : row.tenantId ≠ tenant) :
    Table.SameOn (fun event => event.tenantId = tenant) db.runEvents
      events := by
  apply Table.SameOn.of_append logged
  intro event emitted owned
  exact outside ((RunRow.mem_emitted emitted).1.symm.trans owned)

/-- A rewritten and recorded run touches the rows of its tenant only. -/
theorem Recorded.sameRows {runs : Table RunRow.schema}
    {events : Table RunEventRow.schema} {row new : RunRow}
    {entries : List (String × List UInt8)}
    (recorded : Recorded sha256 db runs events row new entries)
    (outside : row.tenantId ≠ tenant) :
    SameRows tenant db { db with runs := runs, runEvents := events } := by
  have newOutside : new.tenantId ≠ tenant := by
    have kept := recorded.replaced.sameKey
    simp only [RunRow.schema, RunRow.advance, Prod.mk.injEq] at kept
    rw [kept.1]
    exact outside
  exact { SameRows.refl tenant db with
    runs := recorded.replaced.sameOn outside newOutside
    runEvents := sameOn_logged recorded.logged newOutside }

/-- Charging grants of one tenant leaves the grants of others alone. -/
theorem sameOn_charged {request : GrantReservation} {ids : List Uuid}
    {grants : Table GrantRow.schema}
    (charged : grants.rows = db.grants.rows.map (GrantRow.charged request ids))
    (outside : request.tenant ≠ tenant) :
    Table.SameOn (fun row => row.tenantId = tenant) db.grants grants := by
  intro row owned
  rw [charged, List.mem_map]
  have fixed {source : GrantRow} (same : source.tenantId = tenant) :
      source.charged request ids = source := by
    unfold GrantRow.charged
    rw [if_neg fun hit => outside (hit.1.symm.trans same)]
  constructor
  · intro member
    exact ⟨row, member, fixed owned⟩
  · rintro ⟨source, member, rfl⟩
    have kept : (source.charged request ids).tenantId = source.tenantId := by
      unfold GrantRow.charged
      split <;> rfl
    rw [fixed (kept.symm.trans owned)]
    exact member

/-- Recording reservations leaves those of other tenants alone. -/
theorem sameOn_reserved {request : GrantReservation} {ids : List Uuid}
    {reservations : Table ReservationRow.schema}
    (recorded : reservations.rows =
      db.effectReservations.rows ++ request.rows ids)
    (outside : request.tenant ≠ tenant) :
    Table.SameOn (fun row => row.tenantId = tenant) db.effectReservations
      reservations := by
  apply Table.SameOn.of_append recorded
  intro row added
  obtain ⟨grant, _, rfl⟩ := List.mem_map.mp added
  exact outside

/-- One call leaves the rows of every tenant outside its scope alone. -/
theorem Transition.sameRows
    (moved : Transition sha256 db clock command response next)
    (outside : ¬ command.Scope tenant) : SameRows tenant db next := by
  have same := SameRows.refl tenant db
  cases moved with
  | unchanged _ => exact same
  | moduleCreated _ inserted =>
      exact { same with modules := inserted.sameOn (Ne.symm outside) }
  | admitted _ _ _ _ _ _ _ inserted logged _ =>
      exact { same with
        runs := inserted.sameOn (Ne.symm outside)
        runEvents := sameOn_logged logged (Ne.symm outside) }
  | grantCreated _ _ _ _ inserted =>
      refine { same with
        grants := inserted.sameOn (Ne.symm outside)
        operatorEvents := ?_ }
      simpa using Ne.symm outside
  | grantRevoked found _ replaced =>
      have owned := (findGrant_eq_some_iff.mp found).2.1
      refine { same with
        grants := replaced.sameOn ?_ ?_
        operatorEvents := ?_ }
      · exact fun here => outside (here.symm.trans owned)
      · exact fun here => outside (here.symm.trans owned)
      · simpa using Ne.symm outside
  | reserved _ _ effectFound _ _ _ _ charged recorded marked =>
      have owned := (findEffect_eq_some_iff.mp effectFound).2.1
      exact { same with
        grants := sameOn_charged charged (Ne.symm outside)
        effectReservations := sameOn_reserved recorded (Ne.symm outside)
        effects := marked.sameOn (fun here => outside (here.symm.trans owned))
          fun here => outside (here.symm.trans owned) }
  | leased selected _ _ _ _ served recorded _ =>
      have allowed := (claimCandidate_eq_some selected.candidate).2.1
      have apart : _ ≠ tenant := fun here => outside (here ▸ allowed)
      have runs := recorded.sameRows (selected.owned ▸ apart)
      exact { runs with tenants := served.sameOn apart apart }
  | denied selected _ recorded =>
      have allowed := (claimCandidate_eq_some selected.candidate).2.1
      apply recorded.sameRows
      intro here
      exact outside (here ▸ selected.owned ▸ allowed)
  | renewed lease _ _ _ _ _ _ _ replaced =>
      have apart : _ ≠ tenant := fun here => outside (here ▸ lease.permitted)
      exact { same with runs := replaced.sameOn apart apart }
  | started lease _ recorded =>
      exact recorded.sameRows fun here => outside (here ▸ lease.permitted)
  | promoted => exact absurd trivial outside
  | expired => exact absurd trivial outside
  | finished lease _ tenantFound _ _ released recorded =>
      have owned := (findTenant_eq_some_iff.mp tenantFound).2
      have apart : _ ≠ tenant := fun here => outside (here ▸ lease.permitted)
      have tenantApart : _ ≠ tenant := fun here => apart (owned.symm.trans here)
      exact { recorded.sameRows apart with
        tenants := released.sameOn tenantApart tenantApart }
  | tenantProvisioned inserted =>
      exact { same with tenants := inserted.sameOn (Ne.symm outside) }
  | cancelRequested found replaced =>
      have owned := (findRun_eq_some_iff.mp found).2.1
      exact { same with
        runs := replaced.sameOn (fun here => outside (here.symm.trans owned))
          fun here => outside (here.symm.trans owned) }
  | cancelMissed => exact same
  | effectPrepared _ inserted =>
      exact { same with effects := inserted.sameOn (Ne.symm outside) }
  | effectMoved found replaced =>
      have owned := (findEffect_eq_some_iff.mp found).2.1
      exact { same with
        effects := replaced.sameOn
          (fun here => outside (here.symm.trans owned))
          fun here => outside (here.symm.trans owned) }
  | moveMissed => exact same

/-- The same answer, with the rows of the tenant alike afterwards. -/
structure Alike {Answer : Type} (tenant : Uuid)
    (first second : Answer × Database) : Prop where
  answer : first.1 = second.1
  rows : SameRows tenant first.2 second.2

namespace SameRows

variable (same : SameRows tenant db other)

include same

theorem putModule_agree (digest : Digest) (wasm : List UInt8) :
    Except.Agree (Alike tenant) (db.putModule tenant digest wasm)
      (other.putModule tenant digest wasm) := by
  unfold putModule
  rw [same.findModule_eq]
  apply Except.Agree.bind_same
  intro _ _
  cases other.findModule tenant digest with
  | none =>
      apply Except.Agree.bind (same.insertModule_agree rfl)
      intro inserted otherInserted agree
      exact .pure ⟨rfl, agree⟩
  | some stored =>
      apply Except.Agree.bind_same
      intro _ _
      exact .pure ⟨rfl, same⟩

theorem admitExisting_agree (key : String) (stored requestHash : Digest) :
    Except.Agree (Alike tenant)
      (db.admitExisting tenant key stored requestHash)
      (other.admitExisting tenant key stored requestHash) := by
  unfold admitExisting
  rw [same.fetchRunByKey_eq]
  apply Except.Agree.bind_same
  intro _ _
  apply Except.Agree.bind_same
  intro run _
  exact .pure ⟨rfl, same⟩

theorem admitFresh_agree (clock : Clock) {runId : Uuid}
    (key : String) (request : NormalizedRun)
    (fresh : ∀ row ∈ db.runs.rows, row.id = runId → row.tenantId = tenant)
    (otherFresh : ∀ row ∈ other.runs.rows, row.id = runId →
      row.tenantId = tenant) :
    Except.Agree (Alike tenant)
      (db.admitFresh sha256 clock runId tenant key request)
      (other.admitFresh sha256 clock runId tenant key request) := by
  unfold admitFresh
  rw [same.findRunByKey_eq]
  cases other.findRunByKey tenant key with
  | some row => exact same.admitExisting_agree key _ _
  | none =>
      apply Except.Agree.bind (same.insertRun_agree rfl fresh otherFresh)
      intro inserted otherInserted sameInserted
      apply Except.Agree.bind (sameInserted.appendEvent_agree sha256 _ _ _)
      intro logged otherLogged sameLogged
      simp only [sameLogged.fetchRunByKey_eq]
      apply Except.Agree.bind_same
      intro run _
      exact .pure ⟨rfl, sameLogged⟩

/-- An admission sees other tenants through the number of pending runs
only. -/
theorem admitRun_agree (clock : Clock) {runId : Uuid}
    (key : String) (request : NormalizedRun)
    (maxPendingGlobal maxPendingTenant : Nat)
    (scheduler : db.schedulerState ≠ none)
    (otherScheduler : other.schedulerState ≠ none)
    (pending : db.pendingCount (fun _ => true) =
      other.pendingCount fun _ => true)
    (fresh : ∀ row ∈ db.runs.rows, row.id = runId → row.tenantId = tenant)
    (otherFresh : ∀ row ∈ other.runs.rows, row.id = runId →
      row.tenantId = tenant) :
    Except.Agree (Alike tenant)
      (db.admitRun sha256 clock runId tenant key request maxPendingGlobal
        maxPendingTenant)
      (other.admitRun sha256 clock runId tenant key request maxPendingGlobal
        maxPendingTenant) := by
  unfold admitRun
  simp only [beginScheduler, Except.require_of scheduler,
    Except.require_of otherScheduler, same.findTenant_eq, same.findRunByKey_eq,
    same.findModule_eq, same.grantLive_eq, same.pendingCount_eq, pending]
  apply Except.Agree.bind_same
  intro _ _
  apply Except.Agree.bind_same
  intro _ _
  apply Except.Agree.bind_same
  intro tenantRow _
  cases other.findRunByKey tenant key with
  | some row => exact same.admitExisting_agree key _ _
  | none =>
      apply Except.Agree.bind_same
      intro _ _
      apply Except.Agree.bind_same
      intro _ _
      apply Except.Agree.bind_same
      intro _ _
      exact same.admitFresh_agree clock key request fresh otherFresh

section Grants

variable (forest : db.GrantForest) (otherForest : other.GrantForest)

include forest otherForest

theorem creationAncestry_eq (parent : Option Uuid) :
    db.creationAncestry tenant parent =
      other.creationAncestry tenant parent := by
  cases parent with
  | none => simp only [creationAncestry, same.findTenant_eq]
  | some parent => exact same.loadGrantChainLocked_eq forest otherForest parent

theorem createGrant_agree (clock : Clock) (id : Uuid) (parent : Option Uuid)
    (actorId : String) (authority : Authority) :
    Except.Agree (Alike tenant)
      (db.createGrant sha256 clock id tenant parent actorId authority)
      (other.createGrant sha256 clock id tenant parent actorId authority) := by
  unfold createGrant
  rw [same.creationAncestry_eq forest otherForest]
  apply Except.Agree.bind_same
  intro _ _
  apply Except.Agree.bind_same
  intro ancestry _
  apply Except.Agree.bind_same
  intro nowMs _
  apply Except.Agree.bind_same
  intro _ _
  apply Except.Agree.bind_same
  intro _ _
  apply Except.Agree.bind_same
  intro _ _
  apply Except.Agree.bind (same.insertGrant_agree rfl)
  intro inserted otherInserted sameInserted
  apply Except.Agree.bind (sameInserted.insertOperatorEvent_agree rfl)
  intro logged otherLogged sameLogged
  rw [sameLogged.fetchGrantRecord_eq]
  apply Except.Agree.bind_same
  intro _ _
  apply Except.Agree.bind_same
  intro record _
  exact .pure ⟨rfl, sameLogged⟩

theorem getGrant_agree (id : Uuid) :
    Except.Agree (Alike tenant) (db.getGrant tenant id)
      (other.getGrant tenant id) := by
  unfold getGrant
  simp only [same.loadGrantChainLocked_eq forest otherForest,
    same.fetchGrantRecord_eq]
  apply Except.Agree.bind_same
  intro ancestry _
  apply Except.Agree.bind_same
  intro record _
  exact .pure ⟨rfl, same⟩

theorem revokeGrant_agree (clock : Clock) (id : Uuid)
    (actorId reason : String) :
    Except.Agree (Alike tenant)
      (db.revokeGrant sha256 clock tenant id actorId reason)
      (other.revokeGrant sha256 clock tenant id actorId reason) := by
  unfold revokeGrant
  simp only [same.loadGrantChainLocked_eq forest otherForest,
    same.findGrant_eq]
  apply Except.Agree.bind_same
  intro _ _
  apply Except.Agree.bind_same
  intro _ _
  apply Except.Agree.bind_same
  intro row _
  cases row.revokedAt with
  | some existing => exact .pure ⟨rfl, same⟩
  | none =>
      apply Except.Agree.bind (same.updateGrants_agree _ _ _)
      · intro revoked otherRevoked sameRevoked
        apply Except.Agree.bind (sameRevoked.insertOperatorEvent_agree rfl)
        intro logged otherLogged sameLogged
        exact .pure ⟨rfl, sameLogged⟩
      · intro row chosen
        exact (of_decide_eq_true chosen).1

/-- An operation issued for the tenant answers alike. -/
theorem execute_agree {call : Call}
    (issued : call.command.issuedFor = some tenant)
    (scheduler : db.schedulerState ≠ none)
    (otherScheduler : other.schedulerState ≠ none)
    (pending : db.pendingCount (fun _ => true) =
      other.pendingCount fun _ => true)
    (fresh : db.FreshRunId call.command)
    (otherFresh : other.FreshRunId call.command) :
    Except.Agree (Alike tenant) (db.execute sha256 call)
      (other.execute sha256 call) := by
  obtain ⟨command, clock⟩ := call
  have wrapped {Answer : Type} (wrap : Answer → Response)
      {first second : Except Error (Answer × Database)}
      (agree : Except.Agree (Alike tenant) first second) :
      Except.Agree (Alike tenant) (first.map (Prod.map wrap id))
        (second.map (Prod.map wrap id)) :=
    agree.map fun _ _ alike => ⟨congrArg wrap alike.answer, alike.rows⟩
  cases command with
  | putModule owner digest wasm =>
      obtain rfl := Option.some.inj issued
      exact wrapped _ (same.putModule_agree digest wasm)
  | admitRun runId owner key request maxPendingGlobal maxPendingTenant =>
      obtain rfl := Option.some.inj issued
      exact wrapped _ (same.admitRun_agree clock key request maxPendingGlobal
        maxPendingTenant scheduler otherScheduler pending fresh otherFresh)
  | createGrant id owner parent actorId authority =>
      obtain rfl := Option.some.inj issued
      exact wrapped _ (same.createGrant_agree forest otherForest clock id
        parent actorId authority)
  | getGrant owner grant =>
      obtain rfl := Option.some.inj issued
      exact wrapped _ (same.getGrant_agree forest otherForest grant)
  | revokeGrant owner grant actorId reason =>
      obtain rfl := Option.some.inj issued
      exact wrapped _ (same.revokeGrant_agree forest otherForest clock grant
        actorId reason)
  | _ => exact absurd issued (by simp [Command.issuedFor])

end Grants

end SameRows

/-- The outcome of a performed call. -/
theorem perform_outcome_eq {call : Call}
    (agree : Except.Agree (Alike tenant) (db.execute sha256 call)
      (other.execute sha256 call)) :
    (db.perform sha256 call).1 = (other.perform sha256 call).1 := by
  unfold perform
  generalize db.execute sha256 call = first at agree ⊢
  generalize other.execute sha256 call = second at agree ⊢
  cases agree with
  | error failure => rfl
  | ok alike => exact congrArg Except.ok alike.answer

theorem perform_sameRows (sha256 : Sha256) (call : Call)
    (outside : ¬ call.command.Scope tenant) :
    SameRows tenant db (db.perform sha256 call).2 := by
  rcases db.perform_cases sha256 call with
    ⟨_, _, performed⟩ | ⟨response, next, moved, performed⟩
  · rw [performed]
    exact SameRows.refl tenant db
  · rw [performed]
    exact moved.sameRows outside

/-- No run of this identity belongs to a tenant the worker serves. -/
def HiddenRun (db : Database) (run : Uuid) (allowedTenants : List Uuid) :
    Prop :=
  ∀ row, db.findRunById run = some row → row.tenantId ∉ allowedTenants

/-- The lookup of a hidden run fails, whatever was to follow. -/
theorem HiddenRun.lookup_eq {run : Uuid} {allowedTenants : List Uuid}
    {Answer : Type} (hidden : db.HiddenRun run allowedTenants)
    (continued : RunRow → Unit → Except Error Answer) :
    (do
      let found ← Except.fetch (db.findRunById run) Error.runNotFound
      let done ← Except.require (found.tenantId ∈ allowedTenants)
        Error.runNotFound
      continued found done) = .error .runNotFound := by
  cases found : db.findRunById run with
  | none => rfl
  | some row =>
      rw [Except.fetch_some, Except.ok_bind_eq, Except.require,
        if_neg (hidden row found)]
      rfl

/-- What a worker operation on a hidden run answers depends on its arguments
and the scheduler row only. -/
theorem execute_hidden (sha256 : Sha256) {call : Call} {run : Uuid}
    {allowedTenants : List Uuid}
    (named : call.command.leasedRun = some run)
    (listed : call.command.allowlist = some allowedTenants)
    (hidden : db.HiddenRun run allowedTenants)
    (otherHidden : other.HiddenRun run allowedTenants)
    (scheduler : other.schedulerState = db.schedulerState) :
    ∃ failure, db.execute sha256 call = .error failure ∧
      other.execute sha256 call = .error failure := by
  obtain ⟨command, clock⟩ := call
  have alike : other.execute sha256 ⟨command, clock⟩ =
      db.execute sha256 ⟨command, clock⟩ ∧
        ∀ result, db.execute sha256 ⟨command, clock⟩ ≠ .ok result := by
    cases command with
    | heartbeatRun named worker listed epoch leaseMs =>
        obtain rfl := Option.some.inj named
        obtain rfl := Option.some.inj listed
        simp [execute, heartbeatRun, hidden.lookup_eq, otherHidden.lookup_eq]
    | markRunStarted named worker listed epoch =>
        obtain rfl := Option.some.inj named
        obtain rfl := Option.some.inj listed
        simp [execute, markRunStarted, hidden.lookup_eq, otherHidden.lookup_eq]
    | finishRun named worker listed epoch output errorCode =>
        obtain rfl := Option.some.inj named
        obtain rfl := Option.some.inj listed
        simp [execute, finishRun, beginScheduler, scheduler, hidden.lookup_eq,
          otherHidden.lookup_eq]
    | _ => exact absurd named (by simp [Command.leasedRun])
  cases done : db.execute sha256 ⟨command, clock⟩ with
  | error failure => exact ⟨failure, rfl, alike.1.trans done⟩
  | ok result => exact absurd done (alike.2 result)

end Database

/-- Operations issued for a tenant change no row of another tenant and answer
the same over any rows of other tenants, as long as equally many runs are
pending and the UUID of a new run is not in use by another tenant.  Worker
operations change rows of the tenants on their allowlist only, and cannot tell
a run of any other tenant from an absent one. -/
theorem tenants_isolated {sha256 : Sha256}
    {allowed : Database → Call → Prop} {db : Database}
    (reached : Reachable sha256 allowed db) (call : Call) :
    (∀ tenant, call.command.issuedFor = some tenant →
      (∀ other ≠ tenant,
        Database.SameRows other db (db.perform sha256 call).2) ∧
      ∀ permitted twin, Reachable sha256 permitted twin →
        Database.SameRows tenant db twin →
        db.pendingCount (fun _ => true) = twin.pendingCount (fun _ => true) →
        db.FreshRunId call.command → twin.FreshRunId call.command →
        (db.perform sha256 call).1 = (twin.perform sha256 call).1) ∧
    ∀ allowedTenants, call.command.allowlist = some allowedTenants →
      (∀ other ∉ allowedTenants,
        Database.SameRows other db (db.perform sha256 call).2) ∧
      ∀ run row, call.command.leasedRun = some run →
        db.findRunById run = some row → row.tenantId ∉ allowedTenants →
        ∀ absent : Database, absent.findRunById run = none →
          absent.schedulerState = db.schedulerState →
          ∃ failure, db.perform sha256 call = (.error failure, db) ∧
            absent.perform sha256 call = (.error failure, absent) := by
  constructor
  · intro tenant issued
    constructor
    · intro other apart
      apply Database.perform_sameRows
      rw [Command.scope_of_issuedFor issued]
      exact apart
    · intro permitted twin twinReached same pending fresh twinFresh
      apply Database.perform_outcome_eq
      exact same.execute_agree reached.grantForest twinReached.grantForest
        issued reached.references.scheduler twinReached.references.scheduler
        pending fresh twinFresh
  · intro allowedTenants listed
    constructor
    · intro other unlisted
      apply Database.perform_sameRows
      rw [Command.scope_of_allowlist listed]
      exact unlisted
    · intro run row named found unlisted absent missing scheduler
      have hidden : db.HiddenRun run allowedTenants := by
        intro stored storedFound
        rw [found] at storedFound
        exact Option.some.inj storedFound ▸ unlisted
      have absentHidden : absent.HiddenRun run allowedTenants := by
        intro stored storedFound
        rw [missing] at storedFound
        exact absurd storedFound (by simp)
      obtain ⟨failure, done, absentDone⟩ := Database.execute_hidden sha256
        named listed hidden absentHidden scheduler
      refine ⟨failure, ?_, ?_⟩
      · simp [Database.perform, done]
      · simp [Database.perform, absentDone]

theorem tenants_isolated_admission :
    ((Sample.after Sample.admission).perform Sample.sha256
        ⟨.admitRun 21 1 "other" Sample.request 10 10, fun _ => 5⟩).1 =
      ((Sample.after (Sample.admission ++ [.provisionTenant 2 10 1])).perform
        Sample.sha256
        ⟨.admitRun 21 1 "other" Sample.request 10 10, fun _ => 5⟩).1 ∧
    ∃ failure,
      (Sample.after Sample.admission).perform Sample.sha256
          ⟨.heartbeatRun 20 "worker" [2] 1 6000, fun _ => 5⟩ =
        (.error failure, Sample.after Sample.admission) ∧
      (Sample.after Sample.delegation).perform Sample.sha256
          ⟨.heartbeatRun 20 "worker" [2] 1 6000, fun _ => 5⟩ =
        (.error failure, Sample.after Sample.delegation) := by
  have reached : Reachable Sample.sha256 (fun _ _ => True)
      (Sample.after Sample.admission) :=
    Sample.reachable_after fun _ _ _ => trivial
  have grown : Reachable Sample.sha256 (fun _ _ => True)
      (Sample.after (Sample.admission ++ [.provisionTenant 2 10 1])) :=
    Sample.reachable_after fun _ _ _ => trivial
  have same : Database.SameRows 1 (Sample.after Sample.admission)
      (Sample.after (Sample.admission ++ [.provisionTenant 2 10 1])) := by
    apply Database.perform_sameRows Sample.sha256
      ⟨.provisionTenant 2 10 1, fun _ => 5⟩
    change ¬ (1 : Uuid) = 2
    decide
  have fresh : ∀ row ∈ (Sample.after Sample.admission).runs.rows,
      row.id = 21 → row.tenantId = 1 := by decide +kernel
  have grownFresh : ∀ row ∈ (Sample.after
      (Sample.admission ++ [.provisionTenant 2 10 1])).runs.rows,
      row.id = 21 → row.tenantId = 1 := by decide +kernel
  constructor
  · exact ((tenants_isolated reached _).1 1 rfl).2 _ _ grown same
      (by decide +kernel) fresh grownFresh
  · have found : ((Sample.after Sample.admission).findRunById 20).map
        RunRow.tenantId = some 1 := by decide +kernel
    obtain ⟨row, stored, owner⟩ := Option.map_eq_some_iff.mp found
    exact ((tenants_isolated reached _).2 [2] rfl).2 20 row rfl stored
      (by rw [owner]; decide) (Sample.after Sample.delegation)
      (by decide +kernel) (by decide +kernel)

end EffectLatch
