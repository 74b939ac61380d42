import EffectLatch.DomainHashingLaws
import EffectLatch.StoreReferences

/-!
# Idempotent admission

The first answered submission of a key creates the run, every later one finds
it, and nothing that happens to the run in between changes the request it
carries into its leases.
-/

namespace EffectLatch

/-- The run carries the request, with its hash. -/
structure RunRow.Requested (sha256 : Sha256) (row : RunRow)
    (request : NormalizedRun) : Prop where
  requestHash : row.requestHash = Hash.run sha256 request
  moduleDigest : row.moduleDigest = request.moduleDigest
  grantId : row.grantId = request.grantId
  inputBytes : row.inputBytes = some request.input
  limits : row.limits = request.limits

theorem RunRow.Requested.of_same {sha256 : Sha256} {row new : RunRow}
    {request : NormalizedRun} (requested : row.Requested sha256 request)
    (same : row.SameRequest new) : new.Requested sha256 request :=
  ⟨same.requestHash.trans requested.requestHash,
    same.moduleDigest.trans requested.moduleDigest,
    same.grantId.trans requested.grantId,
    same.inputBytes.trans requested.inputBytes,
    same.limits.trans requested.limits⟩

/-- The arguments `admitRun` accepts besides the request. -/
def AdmissionAccepted (key : String)
    (maxPendingGlobal maxPendingTenant : Nat) : Prop :=
  (utf8 key).length ≠ 0 ∧ (utf8 key).length ≤ 128 ∧
    (utf8 key).all isAsciiGraphic = true ∧
    maxPendingGlobal ≠ 0 ∧ maxPendingGlobal ≤ 1000 ∧
    maxPendingTenant ≠ 0 ∧ maxPendingTenant ≤ 100 ∧
    maxPendingTenant ≤ maxPendingGlobal

/-- The request a call submits. -/
def Command.request : Command → Option NormalizedRun
  | .admitRun _ _ _ request _ _ => some request
  | _ => none

/-- Every request submitted along a history. -/
def submitted (history : List Event) : List NormalizedRun :=
  history.filterMap fun event => event.call.command.request

namespace Event

/-- An answered submission of the request under the key. -/
def Admits (event : Event) (tenant : Uuid) (key : String)
    (request : NormalizedRun) (result : Admission) : Prop :=
  ∃ runId maxPendingGlobal maxPendingTenant,
    event.Records
      (.admitRun runId tenant key request maxPendingGlobal maxPendingTenant)
      (.admission result)

/-- The submission that created the run of the key. -/
def creates (tenant : Uuid) (key : String) (event : Event) : Bool :=
  match event.call.command, event.outcome with
  | .admitRun _ owner given _ _ _, .ok (.admission ⟨.created, _⟩) =>
      decide (owner = tenant ∧ given = key)
  | _, _ => false

theorem Admits.mem_submitted {event : Event} {tenant : Uuid} {key : String}
    {request : NormalizedRun} {result : Admission} {history : List Event}
    (admits : event.Admits tenant key request result)
    (member : event ∈ history) : request ∈ submitted history := by
  obtain ⟨runId, maxPendingGlobal, maxPendingTenant, recorded⟩ := admits
  exact List.mem_filterMap.mpr
    ⟨event, member, by simp [recorded.command, Command.request]⟩

end Event

namespace Database

variable {sha256 : Sha256} {db next : Database} {clock : Clock}
  {command : Command} {response : Response} {tenant : Uuid} {key : String}

theorem Extends.findRunByKey_eq_some {row : RunRow}
    (extended : db.Extends next)
    (found : db.findRunByKey tenant key = some row) :
    ∃ new, next.findRunByKey tenant key = some new ∧ row.SameRequest new := by
  obtain ⟨member, tenantEq, keyEq⟩ := findRunByKey_eq_some_iff.mp found
  obtain ⟨new, newMember, same⟩ := extended.runs row member
  exact ⟨new, findRunByKey_eq_some_iff.mpr ⟨newMember,
    same.tenantId.trans tenantEq, same.idempotencyKey.trans keyEq⟩, same⟩

theorem id_of_fetchRunByKey {row : RunRow} {record : RunRecord}
    (described : db.fetchRunByKey tenant key = .ok record)
    (found : db.findRunByKey tenant key = some row) : record.id = row.id := by
  simp only [fetchRunByKey, found, Except.fetch_some, Except.ok_bind_eq,
    Except.pure_eq_ok_iff] at described
  rw [← described]

/-- A run submitted first carries its request. -/
theorem requested_admittedRow (clock : Clock) (runId tenant : Uuid)
    (key : String) (request : NormalizedRun)
    (entries : List (String × List UInt8)) :
    ((admittedRow sha256 clock runId tenant key request).advance sha256
      entries).Requested sha256 request :=
  ⟨rfl, rfl, rfl, rfl, rfl⟩

/-- An answered submission names the stored run of its key, which has the hash
of its request. -/
theorem Transition.admission_row {runId : Uuid} {request : NormalizedRun}
    {maxPendingGlobal maxPendingTenant : Nat} {result : Admission}
    (moved : Transition sha256 db clock
      (.admitRun runId tenant key request maxPendingGlobal maxPendingTenant)
      (.admission result) next) :
    ∃ row, next.findRunByKey tenant key = some row ∧
      row.id = result.run.id ∧ row.requestHash = Hash.run sha256 request := by
  cases moved with
  | unchanged observed =>
      cases observed with
      | admittedBefore found sameRequest described =>
          exact ⟨_, found, (id_of_fetchRunByKey described found).symm,
            sameRequest⟩
  | @admitted _ _ _ _ _ _ _ runs events _ _ _ _ _ _ _ _ inserted _
      described =>
      have found : ({ db with runs := runs, runEvents := events } :
          Database).findRunByKey tenant key =
            some ((admittedRow sha256 clock runId tenant key request).advance
              sha256 [("run.admitted", statePayload .queued)]) :=
        findRunByKey_eq_some_iff.mpr ⟨inserted.new_mem, rfl, rfl⟩
      exact ⟨_, found, (id_of_fetchRunByKey described found).symm, rfl⟩

theorem Transition.exists_admission {runId : Uuid} {request : NormalizedRun}
    {maxPendingGlobal maxPendingTenant : Nat}
    (moved : Transition sha256 db clock
      (.admitRun runId tenant key request maxPendingGlobal maxPendingTenant)
      response next) : ∃ result, response = .admission result := by
  cases moved with
  | unchanged observed =>
      cases observed
      exact ⟨_, rfl⟩
  | admitted _ _ _ _ _ _ _ _ _ _ => exact ⟨_, rfl⟩

/-- The lease of a run carries the columns of the run and the stored module. -/
theorem Transition.leased_row {lease : Lease}
    (moved : Transition sha256 db clock command (.lease (some lease)) next) :
    ∃ row stored, row ∈ db.runs.rows ∧ row.id = lease.run ∧
      db.findModule row.tenantId row.moduleDigest = some stored ∧
      lease.moduleDigest = row.moduleDigest ∧ lease.module = stored.wasm ∧
      lease.input = row.inputBytes.getD [] ∧ lease.limits = row.limits := by
  cases moved with
  | unchanged observed => cases observed
  | leased selected _ _ _ _ _ _ moduleFound =>
      rw [← selected.owned] at moduleFound
      exact ⟨_, _, selected.member, rfl, moduleFound, rfl, rfl, rfl, rfl⟩

theorem isSome_findRunByKey (db : Database) (tenant : Uuid) (key : String) :
    (db.findRunByKey tenant key).isSome =
      decide ((tenant, key) ∈
        db.runs.rows.map fun row => (row.tenantId, row.idempotencyKey)) := by
  rw [Bool.eq_iff_iff, findRunByKey, List.find?_isSome]
  simp

/-- Only an admission changes the keys of the runs. -/
theorem Transition.keys_eq
    (moved : Transition sha256 db clock command response next)
    (other : ∀ row, ¬ RunAdmission sha256 db clock command row) :
    (next.runs.rows.map fun row => (row.tenantId, row.idempotencyKey)) =
      db.runs.rows.map fun row => (row.tenantId, row.idempotencyKey) := by
  rcases moved.runs_cases with ⟨same, _⟩ | ⟨row, admission, _⟩ |
    ⟨old, new, entries, _, recorded⟩
  · rw [same]
  · exact absurd admission (other row)
  · apply recorded.replaced.map_eq
    have keyEq := recorded.replaced.sameKey
    simp only [RunRow.schema, Prod.mk.injEq] at keyEq
    rw [keyEq.1, keyEq.2.2]

/-- A call creates the run of one free key, or leaves the keys as they are. -/
theorem Transition.runKeys
    (moved : Transition sha256 db clock command response next) :
    (∃ runId owner given request maxPendingGlobal maxPendingTenant record,
      command = .admitRun runId owner given request maxPendingGlobal
        maxPendingTenant ∧
      response = .admission ⟨.created, record⟩ ∧
      db.findRunByKey owner given = none ∧
      ∀ tenant key, (next.findRunByKey tenant key).isSome =
        (decide (owner = tenant ∧ given = key) ||
          (db.findRunByKey tenant key).isSome)) ∨
    ((∀ record, response ≠ .admission ⟨.created, record⟩) ∧
      ∀ tenant key, (next.findRunByKey tenant key).isSome =
        (db.findRunByKey tenant key).isSome) := by
  have kept := moved.keys_eq
  cases moved with
  | unchanged observed =>
      exact .inr ⟨by cases observed <;> simp, fun _ _ => rfl⟩
  | @admitted runId owner given request maxPendingGlobal maxPendingTenant _ _ _
      record _ keyFree _ _ _ _ _ inserted _ _ =>
      refine .inl ⟨runId, owner, given, request, maxPendingGlobal,
        maxPendingTenant, record, rfl, rfl, keyFree, ?_⟩
      intro tenant key
      have keys : (tenant, key) = (owner, given) ↔
          owner = tenant ∧ given = key := by
        rw [Prod.mk.injEq, eq_comm, @eq_comm _ key]
      simp only [isSome_findRunByKey, inserted.rows, List.map_append,
        List.map_cons, List.map_nil, List.mem_append, List.mem_singleton,
        RunRow.advance, admittedRow, keys, Bool.decide_or, Bool.or_comm]
  | _ =>
      have same := kept fun _ admission => by cases admission
      refine .inr ⟨by simp, fun tenant key => ?_⟩
      exact (isSome_findRunByKey _ tenant key).trans
        (same ▸ (isSome_findRunByKey db tenant key).symm)

end Database

/-- The history accounts for the runs: each key that has one was created once,
and each run carries the request of an answered submission. -/
structure AdmissionsLogged (sha256 : Sha256) (history : List Event)
    (db : Database) : Prop where
  created : ∀ tenant key, history.countP (Event.creates tenant key) =
    (db.findRunByKey tenant key).isSome.toNat
  origin : ∀ row ∈ db.runs.rows, ∃ event ∈ history, ∃ request result,
    event.Admits row.tenantId row.idempotencyKey request result ∧
      row.Requested sha256 request

variable {sha256 : Sha256} {history : List Event} {db : Database}

theorem Event.creates_eq {event : Event} {tenant owner : Uuid}
    {key given : String} {runId : Uuid} {request : NormalizedRun}
    {maxPendingGlobal maxPendingTenant : Nat} {record : RunRecord}
    (recorded : event.Records
      (.admitRun runId owner given request maxPendingGlobal maxPendingTenant)
      (.admission ⟨.created, record⟩)) :
    event.creates tenant key = decide (owner = tenant ∧ given = key) := by
  simp [Event.creates, recorded.command, recorded.outcome]

theorem Event.creates_eq_false {event : Event} {command : Command}
    {response : Response} (recorded : event.Records command response)
    (other : ∀ record, response ≠ .admission ⟨.created, record⟩)
    (tenant : Uuid) (key : String) : event.creates tenant key = false := by
  unfold Event.creates
  split
  next answered =>
    rw [recorded.outcome] at answered
    exact absurd (Except.ok.inj answered) (other _)
  next => rfl

theorem Database.Transition.admissionsLogged {next : Database} {clock : Clock}
    {command : Command} {response : Response} {event : Event}
    (moved : Transition sha256 db clock command response next)
    (recorded : event.Records command response)
    (logged : AdmissionsLogged sha256 history db) :
    AdmissionsLogged sha256 (history ++ [event]) next where
  created tenant key := by
    rw [List.countP_append, logged.created, List.countP_singleton]
    rcases moved.runKeys with ⟨runId, owner, given, request, maxPendingGlobal,
      maxPendingTenant, record, rfl, rfl, keyFree, keys⟩ | ⟨other, keys⟩
    · rw [Event.creates_eq recorded, keys]
      by_cases same : owner = tenant ∧ given = key
      · obtain ⟨rfl, rfl⟩ := same
        simp [keyFree]
      · simp [same]
    · rw [Event.creates_eq_false recorded other, keys]
      simp
  origin row member := by
    have earlier : ∀ old ∈ db.runs.rows, old.SameRequest row →
        ∃ event' ∈ history ++ [event], ∃ request result,
          event'.Admits row.tenantId row.idempotencyKey request result ∧
            row.Requested sha256 request := by
      intro old stored same
      obtain ⟨source, past, request, result, admits, requested⟩ :=
        logged.origin old stored
      rw [same.tenantId, same.idempotencyKey]
      exact ⟨source, List.mem_append_left _ past, request, result, admits,
        requested.of_same same⟩
    rcases moved.run_origin member with stored | ⟨admitted, admission, rfl⟩ |
      ⟨old, new, entries, stored, step, rfl⟩
    · exact earlier row stored (.refl row)
    · cases admission with
      | @admitted runId tenant key request maxPendingGlobal maxPendingTenant _ _
          _ _ _ _ =>
          obtain ⟨result, rfl⟩ := moved.exists_admission
          exact ⟨event, List.mem_append_right _ List.mem_cons_self, request,
            result, ⟨runId, maxPendingGlobal, maxPendingTenant, recorded⟩,
            requested_admittedRow clock runId tenant key request _⟩
    · exact earlier old stored (.of_step step sha256)

theorem admissionsLogged_of_execution {allowed : Database → Call → Prop}
    (execution : StoreExecution sha256 allowed history db) :
    AdmissionsLogged sha256 history db := by
  refine execution.historyInvariant (AdmissionsLogged sha256) ?_ ?_
  · constructor
    · simp [Database.findRunByKey, Database.migrated, Table.empty]
    · simp [Database.migrated, Table.empty]
  · intro history state call _ logged _
    rcases state.perform_cases sha256 call with
      ⟨failure, _, performed⟩ | ⟨response, next, moved, performed⟩
    · rw [performed]
      constructor
      · intro tenant key
        rw [List.countP_append, logged.created, List.countP_singleton]
        simp [Event.creates]
      · intro row member
        obtain ⟨event, past, rest⟩ := logged.origin row member
        exact ⟨event, List.mem_append_left _ past, rest⟩
    · rw [performed]
      exact moved.admissionsLogged ⟨rfl, rfl⟩ logged

namespace Database

variable {tenant : Uuid} {key : String} {row : RunRow}

/-- A submission whose key is bound is answered by the stored hash alone. -/
theorem References.admitRun_eq (refers : db.References)
    (found : db.findRunByKey tenant key = some row) (clock : Clock)
    (runId : Uuid) (request : NormalizedRun)
    {maxPendingGlobal maxPendingTenant : Nat}
    (accepted : AdmissionAccepted key maxPendingGlobal maxPendingTenant) :
    db.admitRun sha256 clock runId tenant key request maxPendingGlobal
        maxPendingTenant =
      db.admitExisting tenant key row.requestHash
        (Hash.run sha256 request) := by
  obtain ⟨member, tenantEq, _⟩ := findRunByKey_eq_some_iff.mp found
  have known := (refers.runs row member).tenant
  rw [tenantEq] at known
  obtain ⟨owner, ownerFound⟩ := Option.ne_none_iff_exists'.mp known
  rw [AdmissionAccepted] at accepted
  simp only [admitRun, beginScheduler, Except.require_of accepted,
    Except.require_of refers.scheduler, ownerFound, Except.fetch_some,
    Except.ok_bind_eq, found]

/-- The same request finds the run, whatever became of it since. -/
theorem References.perform_admitRun_same (refers : db.References)
    (found : db.findRunByKey tenant key = some row) (clock : Clock)
    (runId : Uuid) {request : NormalizedRun}
    {maxPendingGlobal maxPendingTenant : Nat}
    (accepted : AdmissionAccepted key maxPendingGlobal maxPendingTenant)
    (same : row.requestHash = Hash.run sha256 request) :
    ∃ record, record.id = row.id ∧
      db.perform sha256 ⟨.admitRun runId tenant key request maxPendingGlobal
        maxPendingTenant, clock⟩ =
          (.ok (.admission ⟨.existing, record⟩), db) := by
  obtain ⟨record, described⟩ : ∃ record,
      db.fetchRunByKey tenant key = .ok record := by
    simp [fetchRunByKey, found]
  have answered : db.admitRun sha256 clock runId tenant key request
      maxPendingGlobal maxPendingTenant = .ok (⟨.existing, record⟩, db) := by
    rw [refers.admitRun_eq found clock runId request accepted, admitExisting,
      Except.require_of same, described]
    rfl
  refine ⟨record, id_of_fetchRunByKey described found, ?_⟩
  simp [perform, execute, answered, Except.map]

/-- Another request is refused and changes nothing. -/
theorem References.perform_admitRun_other (refers : db.References)
    (found : db.findRunByKey tenant key = some row) (clock : Clock)
    (runId : Uuid) {request : NormalizedRun}
    {maxPendingGlobal maxPendingTenant : Nat}
    (accepted : AdmissionAccepted key maxPendingGlobal maxPendingTenant)
    (other : row.requestHash ≠ Hash.run sha256 request) :
    db.perform sha256 ⟨.admitRun runId tenant key request maxPendingGlobal
      maxPendingTenant, clock⟩ = (.error .idempotencyConflict, db) := by
  have refused : db.admitRun sha256 clock runId tenant key request
      maxPendingGlobal maxPendingTenant = .error .idempotencyConflict := by
    rw [refers.admitRun_eq found clock runId request accepted, admitExisting,
      Except.require, if_neg other]
    rfl
  simp [perform, execute, refused, Except.map]

end Database

/-- What an answered submission of a past event still says of the state. -/
theorem Event.Admits.exists_row {allowed : Database → Call → Prop}
    {event : Event} {tenant : Uuid} {key : String} {request : NormalizedRun}
    {result : Admission}
    (execution : StoreExecution sha256 allowed history db)
    (member : event ∈ history)
    (admits : event.Admits tenant key request result) :
    ∃ row, db.findRunByKey tenant key = some row ∧
      row.id = result.run.id ∧ row.requestHash = Hash.run sha256 request := by
  obtain ⟨runId, maxPendingGlobal, maxPendingTenant, recorded⟩ := admits
  obtain ⟨_, _, _, _, done, continued⟩ := execution.split_mem member
  rw [recorded.outcome] at done
  have moved := Database.transition_of_perform done
  rw [recorded.command] at moved
  obtain ⟨row, found, idEq, hashEq⟩ := moved.admission_row
  obtain ⟨new, newFound, same⟩ :=
    (Database.extends_of_execution continued).findRunByKey_eq_some found
  exact ⟨new, newFound, same.id.trans idEq, same.requestHash.trans hashEq⟩

/-- What a past lease still says of the state. -/
theorem Event.lease_row {allowed : Database → Call → Prop} {event : Event}
    {lease : Lease} (execution : StoreExecution sha256 allowed history db)
    (member : event ∈ history)
    (leased : event.outcome = .ok (.lease (some lease))) :
    ∃ row stored, row ∈ db.runs.rows ∧ row.id = lease.run ∧
      db.findModule row.tenantId row.moduleDigest = some stored ∧
      lease.moduleDigest = row.moduleDigest ∧ lease.module = stored.wasm ∧
      lease.input = row.inputBytes.getD [] ∧ lease.limits = row.limits := by
  obtain ⟨_, _, _, _, done, continued⟩ := execution.split_mem member
  rw [leased] at done
  have moved := Database.transition_of_perform done
  have extended := moved.extends.trans
    (Database.extends_of_execution continued)
  obtain ⟨old, stored, oldMember, oldId, found, digest, wasm, input, limits⟩ :=
    moved.leased_row
  obtain ⟨row, rowMember, same⟩ := extended.runs old oldMember
  refine ⟨row, stored, rowMember, same.id.trans oldId, ?_, ?_, wasm, ?_, ?_⟩
  · rw [same.tenantId, same.moduleDigest]
    exact extended.findModule_eq_some found
  · rw [same.moduleDigest]
    exact digest
  · rw [same.inputBytes]
    exact input
  · rw [same.limits]
    exact limits

/-- In every run of the store in which the submitted requests have different
hashes: no run is ever lost, a tenant's key names at most one, and each stems
from an answered submission.  Of the answered submissions of a key exactly one
created the run, and all agree on the run and the request.  From then on the
same request is answered with the run and another one with a conflict, neither
changing anything, and every lease of the run carries that request with the
stored module. -/
theorem admission_idempotent {allowed : Database → Call → Prop}
    (execution : StoreExecution sha256 allowed history db)
    (distinct : ∀ first ∈ submitted history, ∀ second ∈ submitted history,
      Hash.run sha256 first = Hash.run sha256 second → first = second) :
    (∀ event ∈ history, ∀ row ∈ event.after.runs.rows,
      ∃ new ∈ db.runs.rows, row.SameRequest new) ∧
    (∀ first ∈ db.runs.rows, ∀ second ∈ db.runs.rows,
      first.tenantId = second.tenantId →
      first.idempotencyKey = second.idempotencyKey → first = second) ∧
    (∀ row ∈ db.runs.rows, ∃ event ∈ history, ∃ request result,
      event.Admits row.tenantId row.idempotencyKey request result) ∧
    ∀ tenant key, ∀ event ∈ history, ∀ request result,
      event.Admits tenant key request result →
      history.countP (Event.creates tenant key) = 1 ∧
      (∀ other ∈ history, ∀ otherRequest otherResult,
        other.Admits tenant key otherRequest otherResult →
        otherResult.run.id = result.run.id ∧ otherRequest = request) ∧
      (∀ clock runId maxPendingGlobal maxPendingTenant,
        AdmissionAccepted key maxPendingGlobal maxPendingTenant →
        ∃ record, record.id = result.run.id ∧
          db.perform sha256 ⟨.admitRun runId tenant key request
            maxPendingGlobal maxPendingTenant, clock⟩ =
              (.ok (.admission ⟨.existing, record⟩), db)) ∧
      (∀ clock runId maxPendingGlobal maxPendingTenant different,
        AdmissionAccepted key maxPendingGlobal maxPendingTenant →
        (Hash.run sha256 different = Hash.run sha256 request →
          different = request) → different ≠ request →
        db.perform sha256 ⟨.admitRun runId tenant key different
          maxPendingGlobal maxPendingTenant, clock⟩ =
            (.error .idempotencyConflict, db)) ∧
      ∀ claimed ∈ history, ∀ lease,
        claimed.outcome = .ok (.lease (some lease)) →
        lease.run = result.run.id →
        lease.moduleDigest = request.moduleDigest ∧
          lease.input = request.input ∧ lease.limits = request.limits ∧
          ∃ stored, db.findModule tenant request.moduleDigest = some stored ∧
            lease.module = stored.wasm := by
  have refers := Reachable.references ⟨history, execution⟩
  have logged := admissionsLogged_of_execution execution
  refine ⟨?_, ?_, ?_, ?_⟩
  · intro event member row stored
    obtain ⟨_, _, _, _, _, continued⟩ := execution.split_mem member
    exact (Database.extends_of_execution continued).runs row stored
  · intro first firstMember second secondMember sameTenant sameKey
    exact (db.runs_alone_key second.tenantId second.idempotencyKey).eq
      firstMember secondMember (by simp [sameTenant, sameKey]) (by simp)
  · intro row member
    obtain ⟨event, past, request, result, admits, _⟩ :=
      logged.origin row member
    exact ⟨event, past, request, result, admits⟩
  · intro tenant key event past request result admits
    obtain ⟨row, found, idEq, hashEq⟩ := admits.exists_row execution past
    obtain ⟨member, tenantEq, keyEq⟩ :=
      Database.findRunByKey_eq_some_iff.mp found
    refine ⟨?_, ?_, ?_, ?_, ?_⟩
    · rw [logged.created, found]
      rfl
    · intro other otherPast otherRequest otherResult otherAdmits
      obtain ⟨stored, storedFound, storedId, storedHash⟩ :=
        otherAdmits.exists_row execution otherPast
      obtain rfl := Option.some.inj (found.symm.trans storedFound)
      exact ⟨storedId.symm.trans idEq,
        distinct _ (otherAdmits.mem_submitted otherPast) _
          (admits.mem_submitted past) (storedHash.symm.trans hashEq)⟩
    · intro clock runId maxPendingGlobal maxPendingTenant accepted
      rw [← idEq]
      exact refers.perform_admitRun_same found clock runId accepted hashEq
    · intro clock runId maxPendingGlobal maxPendingTenant different accepted
        collisionFree differs
      refine refers.perform_admitRun_other found clock runId accepted ?_
      intro sameHash
      exact differs (collisionFree (sameHash.symm.trans hashEq))
    · intro claimed claimedPast lease leased leaseOf
      obtain ⟨leasedRow, stored, leasedMember, leasedId, moduleFound, digest,
        wasm, input, limits⟩ :=
          Event.lease_row execution claimedPast leased
      obtain rfl : leasedRow = row := Database.run_eq_of_id leasedMember member
        (leasedId.trans (leaseOf.trans idEq.symm))
      obtain ⟨source, sourcePast, original, _, sourceAdmits, requested⟩ :=
        logged.origin leasedRow member
      obtain rfl : original = request := distinct _
        (sourceAdmits.mem_submitted sourcePast) _ (admits.mem_submitted past)
        (requested.requestHash.symm.trans hashEq)
      rw [tenantEq, requested.moduleDigest] at moduleFound
      refine ⟨digest.trans requested.moduleDigest, ?_,
        limits.trans requested.limits, stored, moduleFound, wasm⟩
      rw [input, requested.inputBytes]
      rfl

namespace Sample

def otherRequest : NormalizedRun := { request with input := [2] }

/-- A tenant with a grant and a module, nothing submitted yet. -/
def uploaded : List Call :=
  calls (delegation ++ [.putModule 1 Digest.zero [0]])

def submission (request : NormalizedRun) : Call :=
  ⟨.admitRun 20 1 "key" request 10 10, fun _ => 5⟩

def checked : Database :=
  (performAll (Database.perform checksum) Database.migrated uploaded).2

/-- The key submitted with one request and then with another. -/
def resubmitted : Database :=
  ((checked.perform checksum (submission request)).2.perform checksum
    (submission otherRequest)).2

/-- The run as the first submission reports it. -/
def admittedRecord : RunRecord where
  id := 20
  state := .queued
  moduleDigest := Digest.zero
  grantId := 11
  createdAt := 5
  updatedAt := 5
  leaseEpoch := 0
  attempt := 0
  cancelRequested := false
  output := none
  errorCode := none
  effects := []

end Sample

theorem admission_idempotent_conflict :
    (performAll (Database.perform Sample.checksum) Database.migrated
      (Sample.uploaded ++ [Sample.submission Sample.request,
        Sample.submission Sample.otherRequest])).1.countP
          (Event.creates 1 "key") = 1 ∧
    (Sample.resubmitted.perform Sample.checksum
      (Sample.submission Sample.otherRequest)).1 =
        .error .idempotencyConflict := by
  have started : StoreExecution Sample.checksum (fun _ _ => True) _
      Sample.checked :=
    Execution.of_performAll (AllPermitted.of_forall fun _ _ _ => trivial)
  have execution := (started.next (Sample.submission Sample.request)
    trivial).next (Sample.submission Sample.otherRequest) trivial
  have answered : (Sample.checked.perform Sample.checksum
      (Sample.submission Sample.request)).1 =
        .ok (.admission ⟨.created, Sample.admittedRecord⟩) :=
    Except.eq_ok_of_toOption (by decide +kernel)
  have refused := (admission_idempotent execution (by decide +kernel)).2.2.2
    1 "key" _ (List.mem_append_left _
      (List.mem_append_right _ List.mem_cons_self)) Sample.request _
    ⟨20, 10, 10, rfl, answered⟩
  have conflict := refused.2.2.2.1 (fun _ => 5) 20 10 10 Sample.otherRequest
    (by unfold AdmissionAccepted; decide) (by decide +kernel)
    (by decide +kernel)
  exact ⟨refused.1, congrArg Prod.fst conflict⟩

end EffectLatch
