import EffectLatch.LeaseContents
import EffectLatch.StoreDevelopment

/-!
# What replies say of one run

Whoever asks, and whatever is called in between, the replies that show one run
tell one story of it: the request is the same in all of them, lease epochs and
attempts never go back, no two leases have one epoch, a run shown at rest stays
as it was shown, and a run asked to stop is leased no more.
-/

namespace EffectLatch

namespace Database

/-- A stored run as `fetch_run_by_key` describes it. -/
def runRecord (db : Database) (row : RunRow) : RunRecord where
  id := row.id
  state := row.state
  moduleDigest := row.moduleDigest
  grantId := row.grantId
  createdAt := row.createdAt
  updatedAt := row.updatedAt
  leaseEpoch := row.leaseEpoch
  attempt := row.attempt
  cancelRequested := row.cancelRequested
  output := row.outputBytes
  errorCode := row.errorCode
  effects := db.effectRecords row.tenantId row.id

variable {db next : Database}

/-- A performed call that answered was executed. -/
theorem execute_of_perform {sha256 : Sha256} {call : Call}
    {response : Response}
    (performed : db.perform sha256 call = (.ok response, next)) :
    db.execute sha256 call = .ok (response, next) := by
  unfold perform at performed
  split at performed
  next executed =>
    obtain ⟨answered, rfl⟩ := Prod.mk.inj performed
    rw [executed, Except.ok.inj answered]
  next => simp at performed

theorem runRecord_of_fetch {tenant : Uuid} {key : String} {record : RunRecord}
    (described : db.fetchRunByKey tenant key = .ok record) :
    ∃ row ∈ db.runs.rows, record = db.runRecord row := by
  simp only [fetchRunByKey, Except.bind_eq_ok_iff, Except.fetch_eq_ok_iff,
    Except.pure_eq_ok_iff] at described
  obtain ⟨row, found, rfl⟩ := described
  obtain ⟨member, rfl, _⟩ := findRunByKey_eq_some_iff.mp found
  exact ⟨row, member, rfl⟩

/-- A finished run is described as it is stored then. -/
theorem described_of_finishRun {sha256 : Sha256} {clock : Clock} {run : Uuid}
    {worker : String} {allowedTenants : List Uuid} {epoch : Int}
    {output : Option (List UInt8)} {errorCode : Option String}
    {record : RunRecord}
    (performed : db.perform sha256
      ⟨.finishRun run worker allowedTenants epoch output errorCode, clock⟩ =
        (.ok (.finished record), next)) :
    ∃ tenant key, next.fetchRunByKey tenant key = .ok record := by
  have done := execute_of_perform performed
  simp only [execute, Except.map_eq_ok_iff, Prod.exists, Prod.map,
    Prod.mk.injEq, Response.finished.injEq, id] at done
  obtain ⟨_, _, done, rfl, rfl⟩ := done
  unfold finishRun at done
  simp only [Except.bind_eq_ok_iff, Except.pure_eq_ok_iff, Prod.mk.injEq]
    at done
  obtain ⟨_, _, _, _, found, _, _, _, _, _, _, _, row, _, _, _, _, _, _, _, _,
    _, logged, _, _, described, rfl, rfl⟩ := done
  exact ⟨found.tenantId, row.idempotencyKey, described⟩

theorem mem_effectRecords {tenant run : Uuid} {record : EffectRecord} :
    record ∈ db.effectRecords tenant run ↔
      ∃ row ∈ db.effects.rows, row.tenantId = tenant ∧ row.runId = run ∧
        record = ⟨row.ordinal, row.state, row.requestHash, row.providerKey,
          row.sendAttempts⟩ := by
  simp only [effectRecords, List.mem_map, List.mem_insertionSort,
    List.mem_filter, decide_eq_true_eq, and_assoc, eq_comm (b := record)]

end Database

namespace Control

namespace Api

/-- A run shown in this state is shown in no other again. -/
def RunView.Rests (view : RunView) : Prop :=
  view.state ∈ ["succeeded", "failed", "cancelled", "needs_reconciliation"]

/-- A view of a run and a later one. -/
structure RunView.Develops (first second : RunView) : Prop where
  id : second.id = first.id
  moduleDigest : second.moduleDigest = first.moduleDigest
  grantId : second.grantId = first.grantId
  createdAt : second.createdAt = first.createdAt
  leaseEpoch : first.leaseEpoch ≤ second.leaseEpoch
  attempt : first.attempt ≤ second.attempt
  cancelRequested : first.cancelRequested = true →
    second.cancelRequested = true
  rested : first.Rests → second =
    { first with
      cancelRequested := second.cancelRequested
      effects := second.effects }
  effects : ∀ effect ∈ first.effects, ∃ later ∈ second.effects,
    later.ordinal = effect.ordinal ∧
      later.requestHash = effect.requestHash ∧
      later.providerKey = effect.providerKey

/-- What a reply may show of the runs an earlier reply showed. -/
structure Body.RunsFollow (first second : Body) : Prop where
  views : ∀ view later, first = .run view → second = .run later →
    later.id = view.id → view.Develops later
  granted : ∀ lease view, first = .lease (some lease) → second = .run view →
    view.id = lease.runId →
    view.moduleDigest = lease.moduleDigest ∧ lease.epoch ≤ view.leaseEpoch
  regranted : ∀ view lease, first = .run view →
    second = .lease (some lease) → lease.runId = view.id →
    lease.moduleDigest = view.moduleDigest ∧ view.leaseEpoch < lease.epoch ∧
      view.cancelRequested = false ∧ ¬ view.Rests
  leases : ∀ lease later, first = .lease (some lease) →
    second = .lease (some later) → later.runId = lease.runId →
    lease.epoch < later.epoch ∧ later =
      { lease with epoch := later.epoch, expiresAt := later.expiresAt }

variable {codecs : TextCodecs} {db next : Database} {row new : RunRow}

theorem rests_of_view (rests : (RunView.of codecs (db.runRecord row)).Rests) :
    row.state.rests = true := by
  simp only [RunView.Rests, RunView.of, Database.runRecord] at rests
  cases state : row.state <;> rw [state] at rests <;> revert rests <;> decide

/-- Views of two versions of a run. -/
theorem RunView.develops (developed : db.Develops next)
    (evolves : row.Evolves new) :
    (RunView.of codecs (db.runRecord row)).Develops
      (RunView.of codecs (next.runRecord new)) where
  id := evolves.request.id
  moduleDigest := by
    simp only [RunView.of, Database.runRecord, evolves.request.moduleDigest]
  grantId := evolves.request.grantId
  createdAt := evolves.request.createdAt
  leaseEpoch := evolves.epoch
  attempt := evolves.attempt
  cancelRequested := evolves.cancelled
  rested rests := by
    obtain ⟨flag, rfl⟩ : ∃ flag, new = { row with cancelRequested := flag } :=
      ⟨_, evolves.rested (rests_of_view rests)⟩
    rfl
  effects := by
    simp only [RunView.of, Database.runRecord, List.forall_mem_map,
      Database.mem_effectRecords]
    rintro record ⟨effect, member, owned, named, rfl⟩
    obtain ⟨later, laterMember, same⟩ := developed.effects effect member
    have shown := Database.mem_effectRecords.mpr
      ⟨later, laterMember, same.tenantId.trans owned,
        same.runId.trans named, rfl⟩
    rw [← evolves.request.tenantId, ← evolves.request.id] at shown
    refine ⟨_, List.mem_map_of_mem shown, same.ordinal, ?_, same.providerKey⟩
    simp only [EffectView.of, same.requestHash]

/-- A lease that is shown: the row it was claimed from, the module it carries
and the row it left. -/
structure Leased (codecs : TextCodecs) (db next : Database)
    (row new : RunRow) (stored : ModuleRow) (view : LeaseView) : Prop where
  member : row ∈ db.runs.rows
  queued : row.state = .queued
  wanted : row.cancelRequested = false
  newMember : new ∈ next.runs.rows
  newEpoch : new.leaseEpoch = row.leaseEpoch + 1
  request : row.SameRequest new
  found : db.findModule row.tenantId row.moduleDigest = some stored
  shown : ∃ expiresAt, view =
    ⟨row.id, row.leaseEpoch + 1, expiresAt, Hash.hex row.moduleDigest.bytes,
      codecs.base64 stored.wasm, codecs.base64 (row.inputBytes.getD []),
      row.limits⟩

end Api

namespace Daemon

open Api

variable {daemon : Daemon} {event : Event}

theorem develops_of_execution {allowed : Database → Step → Prop}
    {origin db : Database} {history : List Event}
    (execution : Execution daemon.perform allowed origin history db) :
    origin.Develops db :=
  Database.develops_of_execution (execution.project daemon.projects)

theorem develops_of_done
    (done : daemon.perform event.before event.call =
      (event.outcome, event.after)) : event.before.Develops event.after := by
  have none : Execution daemon.perform (fun _ _ => True) event.before []
      event.before := .start
  have one := none.next event.call trivial
  rw [done] at one
  exact develops_of_execution one

/-- A run in a reply is stored after the call. -/
theorem run_stored {view : RunView}
    (done : daemon.perform event.before event.call =
      (event.outcome, event.after))
    (said : event.outcome.map Reply.body = some (.run view)) :
    ∃ row ∈ event.after.runs.rows,
      view = RunView.of daemon.codecs (event.after.runRecord row) := by
  obtain ⟨command, response, reply, _, performed, shows, shown⟩ :=
    shows_of_said done said (by simp)
  have moved := Database.transition_of_perform performed
  have described : ∃ tenant key record,
      event.after.fetchRunByKey tenant key = .ok record ∧
        view = RunView.of daemon.codecs record := by
    cases shows with
    | @run _ tenant key _ _ _ admission =>
        refine ⟨tenant, key, admission.run, ?_, (Body.run.inj shown).symm⟩
        generalize event.after = after at moved
        cases moved with
        | unchanged observed =>
            cases observed with
            | admittedBefore _ _ described => exact described
        | admitted _ _ _ _ _ _ _ _ _ described => exact described
    | finished =>
        obtain ⟨tenant, key, described⟩ :=
          Database.described_of_finishRun performed
        exact ⟨tenant, key, _, described, (Body.run.inj shown).symm⟩
    | _ => simp at shown
  obtain ⟨tenant, key, record, fetched, rfl⟩ := described
  obtain ⟨row, member, rfl⟩ := Database.runRecord_of_fetch fetched
  exact ⟨row, member, rfl⟩

/-- A lease in a reply was claimed by its call. -/
theorem lease_claimed {view : LeaseView}
    (done : daemon.perform event.before event.call =
      (event.outcome, event.after))
    (said : event.outcome.map Reply.body = some (.lease (some view))) :
    ∃ row new stored, Leased daemon.codecs event.before event.after row new
      stored view := by
  obtain ⟨_, _, _, _, lease, moved, rfl⟩ := lease_of_said done said
  generalize event.after = after at moved ⊢
  cases moved with
  | unchanged observed => cases observed
  | leased selected _ _ _ _ _ recorded moduleFound =>
      refine ⟨_, _, _, selected.member, selected.queued, selected.notCancelled,
        recorded.replaced.new_mem, rfl,
        ⟨rfl, rfl, rfl, rfl, rfl, rfl, rfl, rfl, rfl⟩, ?_, ⟨_, rfl⟩⟩
      rw [selected.owned]
      exact moduleFound

end Daemon

open Api

/-- In every run of the daemon, what its replies show of the runs agrees: every
reply follows each earlier one, whoever asked for the two. -/
theorem run_replies_follow {daemon : Daemon} {history : List Daemon.Event}
    {db : Database} (run : daemon.Run history db) :
    (history.filterMap fun event => event.outcome.map Reply.body).Pairwise
      Body.RunsFollow := by
  rw [List.pairwise_filterMap]
  refine run.pairwise _ ?_
  intro _ _ _ first second _ firstDone continued _ secondDone body said later
    saidLater
  have before : first.before.Develops first.after :=
    Daemon.develops_of_done firstDone
  have between : first.after.Develops second.before :=
    Daemon.develops_of_execution continued
  have after : first.after.Develops second.after :=
    between.trans (Daemon.develops_of_done secondDone)
  constructor
  · rintro view later rfl rfl sameId
    obtain ⟨row, member, rfl⟩ := Daemon.run_stored firstDone said
    obtain ⟨new, newMember, rfl⟩ := Daemon.run_stored secondDone saidLater
    exact RunView.develops after (after.evolves member newMember sameId)
  · rintro lease view rfl rfl sameId
    obtain ⟨row, new, stored, leased⟩ := Daemon.lease_claimed firstDone said
    obtain ⟨_, rfl⟩ := leased.shown
    obtain ⟨last, member, rfl⟩ := Daemon.run_stored secondDone saidLater
    have evolves := after.evolves leased.newMember member
      (sameId.trans leased.request.id.symm)
    have epoch := evolves.epoch
    rw [leased.newEpoch] at epoch
    refine ⟨?_, epoch⟩
    simp only [RunView.of, Database.runRecord, evolves.request.moduleDigest,
      leased.request.moduleDigest]
  · rintro view lease rfl rfl sameId
    obtain ⟨first, member, rfl⟩ := Daemon.run_stored firstDone said
    obtain ⟨row, new, stored, leased⟩ :=
      Daemon.lease_claimed secondDone saidLater
    obtain ⟨_, rfl⟩ := leased.shown
    have evolves := between.evolves member leased.member sameId
    refine ⟨?_, Int.lt_add_one_of_le evolves.epoch, ?_, ?_⟩
    · simp only [RunView.of, Database.runRecord, evolves.request.moduleDigest]
    · by_contra cancelled
      have stays := evolves.cancelled (Bool.not_eq_false _ ▸ cancelled)
      simp [leased.wanted] at stays
    · intro rests
      have resting := rests_of_view rests
      rw [← evolves.state_eq resting, leased.queued] at resting
      exact absurd resting (by decide)
  · rintro lease later rfl rfl sameId
    obtain ⟨row, new, stored, leased⟩ := Daemon.lease_claimed firstDone said
    obtain ⟨again, _, held, leasedLater⟩ :=
      Daemon.lease_claimed secondDone saidLater
    obtain ⟨_, rfl⟩ := leased.shown
    obtain ⟨_, rfl⟩ := leasedLater.shown
    have evolves := between.evolves leased.newMember leasedLater.member
      (sameId.trans leased.request.id.symm)
    have epoch := evolves.epoch
    rw [leased.newEpoch] at epoch
    have request := leased.request.trans evolves.request
    have found := (before.trans between).extended.findModule_eq_some leased.found
    have same : held = stored := by
      have foundLater := leasedLater.found
      rw [request.tenantId, request.moduleDigest, found] at foundLater
      exact (Option.some.inj foundLater).symm
    refine ⟨Int.lt_add_one_of_le epoch, ?_⟩
    simp only [request.id, request.moduleDigest, request.inputBytes,
      request.limits, same]

namespace Sample

/-- The run and the lease that the third and fourth replies show. -/
def runAndLease (bodies : List Body) : Option (RunView × LeaseView) :=
  match bodies with
  | [_, _, .run view, .lease (some lease)] => some (view, lease)
  | _ => none

theorem runAndLease_history :
    (runAndLease (history.filterMap fun event =>
      event.outcome.map Reply.body)).map
        (fun shown => (shown.1.id, shown.2.runId)) = some (20, 20) := by
  decide +kernel

end Sample

/-- The lease shown after the submission is of a later epoch. -/
theorem run_replies_follow_claim :
    ∃ grant module view lease,
      (Sample.history.filterMap fun event => event.outcome.map Reply.body) =
        [grant, module, .run view, .lease (some lease)] ∧
      view.leaseEpoch < lease.epoch := by
  have follow := run_replies_follow Sample.served_run
  have shown := Sample.runAndLease_history
  generalize (Sample.history.filterMap fun event =>
    event.outcome.map Reply.body) = bodies at follow shown
  unfold Sample.runAndLease at shown
  split at shown
  next grant module view lease =>
    simp only [Option.map_some, Option.some.injEq, Prod.mk.injEq] at shown
    have last : (Body.run view).RunsFollow (.lease (some lease)) := by
      simp only [List.pairwise_cons, List.mem_cons, List.not_mem_nil] at follow
      exact follow.2.2.1 _ (.inl rfl)
    have later := last.regranted view lease rfl rfl
      (shown.2.trans shown.1.symm)
    exact ⟨grant, module, view, lease, rfl, later.2.1⟩
  next => simp at shown

end Control

end EffectLatch
