import EffectLatch.ControlReplies
import EffectLatch.FrameRoundTrips

/-!
# What a lease carries can be executed

Modules are stored under their digest once they were validated, and a run keeps
the input and the limits it was admitted with.  So whatever a claim of a worker
is answered, a supervisor with the same caps takes the limits, its start frame
fits, and the runner reads it back and finds a valid module.
-/

namespace EffectLatch

/-- The run has its input, within bounds, and limits within the caps. -/
structure RunRow.Runnable (caps : Limits) (row : RunRow) : Prop where
  input : ∃ bytes, row.inputBytes = some bytes ∧ bytes.length ≤ payloadBytes
  limits : row.limits.Within caps

/-- A normal form has a bounded input and limits within the caps. -/
theorem RunCreate.bounded_of_normalize {codecs : TextCodecs}
    {request : RunCreate} {caps : Limits} {run : NormalizedRun}
    (normalized : request.normalize codecs caps = .ok run) :
    run.input.length ≤ payloadBytes ∧ run.limits.Within caps := by
  simp only [RunCreate.normalize, Except.bind_eq_ok_iff,
    Except.require_eq_ok_iff, Except.mapError_eq_ok_iff,
    Except.pure_eq_ok_iff, Limits.validate_eq_ok_iff] at normalized
  obtain ⟨_, _, _, _, _, _, _, _, input, _, _, ⟨small, _⟩, limits, ⟨within, same⟩,
    rfl⟩ := normalized
  exact ⟨small, same ▸ within⟩

/-- No call rewrites the input or the limits of a run. -/
theorem Database.RunStep.runnable {db : Database} {clock : Clock}
    {command : Command} {old new : RunRow}
    {entries : List (String × List UInt8)} {caps : Limits}
    (step : db.RunStep clock command old new entries)
    (before : old.Runnable caps) : new.Runnable caps := by
  cases step <;> exact ⟨before.input, before.limits⟩

namespace Control

namespace Daemon

/-- The caps of the configuration. -/
def caps (daemon : Daemon) : EffectLatch.Limits :=
  (ApiState.new daemon.config).caps

/-- Every module is one of a tenant, valid and stored under its digest, and
every run can be run. -/
structure Stocked (daemon : Daemon) (db : Database) : Prop where
  owned : ∀ row ∈ db.modules.rows, db.findTenant row.tenantId ≠ none
  modules : ∀ row ∈ db.modules.rows,
    Wasm.validate daemon.reader row.wasm = .ok () ∧
      row.digest = daemon.sha256 row.wasm
  runs : ∀ row ∈ db.runs.rows, row.Runnable daemon.caps

variable {daemon : Daemon} {db next : Database} {clock : Clock}
  {command : Command} {response : Response}

theorem stocked_migrated (daemon : Daemon) :
    daemon.Stocked Database.migrated := by
  constructor <;> simp [Database.migrated, Table.empty]

/-- An admission of the daemon is of a normalized request. -/
theorem Makes.runnable {row : RunRow} (made : daemon.Makes command)
    (admission : Database.RunAdmission daemon.sha256 db clock command row) :
    row.Runnable daemon.caps := by
  cases admission with
  | admitted _ _ _ _ _ =>
      cases made with
      | requested _ issues =>
          cases issues with
          | submitted _ _ normalized _ =>
              obtain ⟨small, within⟩ := RunCreate.bounded_of_normalize normalized
              exact ⟨⟨_, rfl, small⟩, within⟩
      | outside apart => simp [Command.outside] at apart

theorem Stocked.transition (stocked : daemon.Stocked db)
    (made : daemon.Makes command)
    (moved : Database.Transition daemon.sha256 db clock command response
      next) : daemon.Stocked next where
  owned := by
    have kept : ∀ row ∈ db.modules.rows,
        next.findTenant row.tenantId ≠ none := fun row member =>
      moved.extends.findTenant_ne_none (stocked.owned row member)
    cases moved with
    | moduleCreated known inserted =>
        intro row member
        rcases inserted.mem_iff.mp member with stored | rfl
        · exact kept row stored
        · exact known
    | _ => exact kept
  modules := by
    cases moved with
    | moduleCreated _ inserted =>
        intro row member
        rcases inserted.mem_iff.mp member with stored | rfl
        · exact stocked.modules row stored
        · cases made with
          | requested _ issues =>
              cases issues with
              | uploaded _ valid => exact ⟨valid, rfl⟩
          | outside apart => simp [Command.outside] at apart
    | _ => exact stocked.modules
  runs := by
    refine moved.runs_keep (fun _ admission => ?_)
      (fun _ _ _ step before => ?_) stocked.runs
    · have fresh := made.runnable admission
      exact ⟨fresh.input, fresh.limits⟩
    · have kept := step.runnable before
      exact ⟨kept.input, kept.limits⟩

theorem Run.stocked {history : List Daemon.Event}
    (run : daemon.Run history db) : daemon.Stocked db :=
  run.reachable.invariant daemon.Stocked daemon.stocked_migrated
    fun _ _ _ _ holds made moved => holds.transition made moved

/-- A lease in a reply is the one a claim was answered. -/
theorem lease_of_said {event : Event} {view : Api.LeaseView}
    (done : daemon.perform event.before event.call =
      (event.outcome, event.after))
    (said : event.outcome.map Api.Reply.body = some (.lease (some view))) :
    ∃ worker tenants slots policy lease,
      Database.Transition daemon.sha256 event.before event.call.clock
        (.claimRun worker tenants slots policy) (.lease (some lease))
        event.after ∧
      view = Api.LeaseView.of daemon.codecs lease := by
  obtain ⟨command, response, reply, _, performed, shows, shown⟩ :=
    shows_of_said done said (by simp)
  have moved := Database.transition_of_perform performed
  cases shows with
  | @lease worker tenants slots policy lease =>
      cases lease with
      | none => simp at shown
      | some lease =>
          simp only [Option.map_some, Api.Body.lease.injEq,
            Option.some.injEq] at shown
          exact ⟨worker, tenants, slots, policy, lease, moved, shown.symm⟩
  | _ => simp at shown

/-- What a supervisor under the caps makes of a lease: the limits are taken, the
start frame is read back by the runner, and the runner finds the module
valid. -/
structure Executable (daemon : Daemon) (codec : Ipc.StartCodec)
    (lease : Lease) : Prop where
  digest : daemon.sha256 lease.module = lease.moduleDigest
  valid : Wasm.validate daemon.reader lease.module = .ok ()
  limits : lease.limits.validate daemon.caps = .ok lease.limits
  start : Ipc.Returns
    (codec.startFrameText
      (Ipc.startOf codec.toCodec lease.module lease.input lease.limits))
    Ipc.startFrameBytes (Ipc.readStart codec)
    (Ipc.startOf codec.toCodec lease.module lease.input lease.limits)

theorem length_of_validate {reader : Wasm.Reader} {bytes : List UInt8}
    (valid : Wasm.validate reader bytes = .ok ()) :
    bytes ≠ [] ∧ bytes.length ≤ moduleBytes := by
  simp only [Wasm.validate, Except.bind_eq_ok_iff, Except.require_eq_ok_iff,
    not_or, not_lt] at valid
  obtain ⟨_, sized, _⟩ := valid
  exact sized

theorem Stocked.executable {codec : Ipc.StartCodec}
    (standard : codec.Standard) (stocked : daemon.Stocked db)
    {worker : String} {tenants : List Uuid} {slots : Nat}
    {policy : ClaimPolicy} {lease : Lease}
    (moved : Database.Transition daemon.sha256 db clock
      (.claimRun worker tenants slots policy) (.lease (some lease)) next) :
    daemon.Executable codec lease := by
  cases moved with
  | unchanged observed => cases observed
  | leased selected _ _ _ _ _ _ moduleFound =>
      obtain ⟨stored, _, named⟩ := Database.findModule_eq_some_iff.mp moduleFound
      obtain ⟨valid, digest⟩ := stocked.modules _ stored
      obtain ⟨⟨bytes, given, small⟩, within⟩ :=
        stocked.runs _ selected.member
      refine ⟨digest.symm.trans named, valid,
        Limits.validate_eq_ok_iff.mpr ⟨within, rfl⟩, ?_⟩
      exact Ipc.start_returns standard (length_of_validate valid).2
        (by simpa [given] using small) _

end Daemon

/-- In every run of the daemon, a lease in a reply is executable, and it is the
lease the store holds: the run is leased under that epoch until that time, with
the input and the limits the worker was given. -/
theorem leases_executable {daemon : Daemon} {codec : Ipc.StartCodec}
    (standard : codec.Standard) {history : List Daemon.Event} {db : Database}
    (run : daemon.Run history db) :
    ∀ event ∈ history, ∀ view,
      event.outcome.map Api.Reply.body = some (.lease (some view)) →
      ∃ lease, view = Api.LeaseView.of daemon.codecs lease ∧
        daemon.Executable codec lease ∧
        ∃ row ∈ event.after.runs.rows, row.tenantId = lease.tenant ∧
          row.id = lease.run ∧ row.state = .leased ∧
          row.leaseEpoch = lease.epoch ∧
          row.leaseExpiresAt = some lease.expiresAt ∧
          row.moduleDigest = lease.moduleDigest ∧
          row.inputBytes = some lease.input ∧ row.limits = lease.limits := by
  intro event member view shown
  obtain ⟨_, _, earlier, _, done, _⟩ := run.split_mem member
  obtain ⟨_, _, _, _, lease, moved, same⟩ := Daemon.lease_of_said done shown
  have stocked := Daemon.Run.stocked earlier
  refine ⟨lease, same, stocked.executable standard moved, ?_⟩
  generalize event.after = after at moved
  cases moved with
  | unchanged observed => cases observed
  | leased selected _ _ _ _ _ recorded _ =>
      obtain ⟨⟨bytes, given, _⟩, _⟩ := stocked.runs _ selected.member
      exact ⟨_, recorded.replaced.new_mem, selected.owned, rfl, rfl, rfl,
        rfl, rfl, by simp [RunRow.advance, RunRow.leasedBy, given], rfl⟩

namespace Sample

/-- The run whose lease a reply shows. -/
def leased (reply : Option Api.Reply) : Option Uuid :=
  match reply.map Api.Reply.body with
  | some (.lease (some view)) => some view.runId
  | _ => none

theorem leased_claiming : leased claiming.outcome = some 20 := by
  decide +kernel

end Sample

theorem leases_executable_claim :
    ∃ lease, Sample.daemon.Executable EffectLatch.Sample.startCodec lease ∧
      lease.run = 20 := by
  have leased := Sample.leased_claiming
  unfold Sample.leased at leased
  split at leased
  next view shown =>
    obtain ⟨lease, same, executable, _⟩ :=
      leases_executable EffectLatch.Sample.startCodec_standard
        Sample.served_run Sample.claiming Sample.claiming_mem view shown
    refine ⟨lease, executable, ?_⟩
    rw [same, Option.some.injEq] at leased
    exact leased
  next => simp at leased

end Control

end EffectLatch
