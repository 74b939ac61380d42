import EffectLatch.StoreProgress

/-!
# A live lease is its holder's alone

Until a lease expires, only calls made with it move its run.  Whatever everybody
else does, in whatever order, the holder finds the run as it left it, and its
start and its finish go through.
-/

namespace EffectLatch

/-- The call is made with this lease. -/
def Command.Uses (run : Uuid) (worker : String) (epoch : Int) :
    Command → Prop
  | .heartbeatRun id name _ number _ =>
      id = run ∧ name = worker ∧ number = epoch
  | .markRunStarted id name _ number =>
      id = run ∧ name = worker ∧ number = epoch
  | .finishRun id name _ number _ _ =>
      id = run ∧ name = worker ∧ number = epoch
  | _ => False

namespace Database

variable {sha256 : Sha256} {db next : Database} {clock : Clock}
  {command : Command} {response : Response} {row old new : RunRow}
  {worker : String} {expiresAt : Timestamp}

/-- The run is stored, leased to the worker until then. -/
structure Holding (db : Database) (row : RunRow) (worker : String)
    (expiresAt : Timestamp) : Prop where
  member : row ∈ db.runs.rows
  held : row.activeSlotHeld = true
  owner : row.leaseOwner = some worker
  expiry : row.leaseExpiresAt = some expiresAt

theorem Holding.live (holding : db.Holding row worker expiresAt)
    {now : Timestamp} (inTime : now < expiresAt) : row.live now = true := by
  simp [RunRow.live, holding.expiry, inTime]

/-- A run under a live lease is rewritten by a call with that lease, or by a
request to cancel it. -/
theorem RunStep.cancels {entries : List (String × List UInt8)}
    (step : RunStep db clock command old new entries)
    (holding : db.Holding old worker expiresAt)
    (other : ¬ command.Uses old.id worker old.leaseEpoch)
    (inTime : ∀ reading, clock reading < expiresAt) :
    new = old.cancelAsked ∧ entries = [] := by
  have held := holding.held
  have same : ∀ name, old.leaseOwner = some name → name = worker :=
    fun name owned => Option.some.inj (owned.symm.trans holding.owner)
  cases step with
  | leased selected _ _ => simp [selected.free] at held
  | denied selected _ => simp [selected.free] at held
  | renewed lease _ =>
      exact absurd ⟨lease.identity.symm, same _ lease.owner,
        lease.current.symm⟩ other
  | started lease _ =>
      exact absurd ⟨lease.identity.symm, same _ lease.owner,
        lease.current.symm⟩ other
  | promoted _ free => simp [free] at held
  | expired _ _ overdue =>
      simp only [RunRow.expired, holding.expiry, decide_eq_true_eq] at overdue
      exact absurd (inTime 1) (not_lt.mpr overdue)
  | finished lease _ _ =>
      exact absurd ⟨lease.identity.symm, same _ lease.owner,
        lease.current.symm⟩ other
  | cancelRequested => exact ⟨rfl, rfl⟩

/-- One call of somebody else leaves all but the cancel flag alone. -/
theorem Transition.holding
    (moved : Transition sha256 db clock command response next)
    (holding : db.Holding row worker expiresAt)
    (other : ¬ command.Uses row.id worker row.leaseEpoch)
    (inTime : ∀ reading, clock reading < expiresAt) :
    ∃ still, next.Holding still worker expiresAt ∧
      still = { row with cancelRequested := still.cancelRequested } := by
  obtain ⟨member, held, owner, expiry⟩ := holding
  rcases moved.runs_cases with ⟨same, _⟩ | ⟨_, _, inserted, _⟩ |
    ⟨old, new, entries, step, recorded⟩
  · exact ⟨row, ⟨same ▸ member, held, owner, expiry⟩, rfl⟩
  · exact ⟨row, ⟨inserted.mem_iff.mpr (.inl member), held, owner, expiry⟩, rfl⟩
  · by_cases rewritten : row = old
    · subst rewritten
      obtain ⟨rfl, rfl⟩ := step.cancels ⟨member, held, owner, expiry⟩ other
        inTime
      have stored := recorded.replaced.new_mem
      rw [RunRow.advance_nil] at stored
      exact ⟨row.cancelAsked, ⟨stored, held, owner, expiry⟩, rfl⟩
    · exact ⟨row, ⟨recorded.replaced.mem_iff.mpr (.inr ⟨member, rewritten⟩),
        held, owner, expiry⟩, rfl⟩

/-- The start of a leased run goes through under its live lease. -/
theorem Sound.exists_markRunStarted (sound : db.Sound) (sha256 : Sha256)
    {allowedTenants : List Uuid} {epoch : Int}
    (holding : db.Holding row worker expiresAt)
    (current : row.leaseEpoch = epoch)
    (named : workerIdentifier worker = true ∧ 0 < epoch)
    (permitted : row.tenantId ∈ allowedTenants) (inTime : clock 0 < expiresAt)
    (waiting : row.state = .leased) :
    ∃ next, db.markRunStarted sha256 clock row.id worker allowedTenants
      epoch = .ok next := by
  have found : db.findRunById row.id = some row :=
    findRunById_eq_some_iff.mpr ⟨holding.member, rfl⟩
  have runFound : db.findRun row.tenantId row.id = some row :=
    findRun_eq_some_iff.mpr ⟨holding.member, rfl, rfl⟩
  have leased : row.leaseOwner = some worker ∧ row.leaseEpoch = epoch ∧
      row.live (clock 0) = true ∧ row.activeSlotHeld = true ∧
      (row.state = .leased ∨ row.state = .running) :=
    ⟨holding.owner, current, holding.live inTime, holding.held, .inl waiting⟩
  obtain ⟨runs, updated, room⟩ := sound.heads.exists_updateRun runFound
    (fun row => { row with state := .running, updatedAt := clock 1 })
    (fun _ => rfl) (fun _ checked => checked) rfl
  obtain ⟨_, _, appended, _⟩ := room.exists_appendEvent sha256
    "runner.started" (statePayload .running) (by decide)
  simp only [markRunStarted, Except.require_of named, found, Except.fetch_some,
    Except.require_of permitted, runFound, Except.ok_bind_eq,
    Except.require_of leased, if_pos waiting, updated]
  exact ⟨_, appended⟩

/-- Nor do any number of calls. -/
theorem holding_of_execution {allowed : Database → Call → Prop}
    {last : Database} {later : List Event}
    (holding : db.Holding row worker expiresAt)
    (continued : Execution (perform sha256) allowed db later last)
    (others : ∀ event ∈ later,
      ¬ event.call.command.Uses row.id worker row.leaseEpoch)
    (inTime : ∀ event ∈ later, ∀ reading,
      event.call.clock reading < expiresAt) :
    ∃ still, last.Holding still worker expiresAt ∧
      still = { row with cancelRequested := still.cancelRequested } := by
  induction continued with
  | start => exact ⟨row, holding, rfl⟩
  | @next history state call before permitted ih =>
      obtain ⟨still, kept, same⟩ := ih
        (fun event member => others event (List.mem_append_left _ member))
        (fun event member => inTime event (List.mem_append_left _ member))
      have other := others _ (List.mem_append_right _ (List.mem_singleton_self _))
      have early := inTime _ (List.mem_append_right _ (List.mem_singleton_self _))
      rcases state.perform_cases sha256 call with
        ⟨failure, _, performed⟩ | ⟨response, next, moved, performed⟩
      · rw [performed]
        exact ⟨still, kept, same⟩
      · rw [performed]
        have identity : still.id = row.id := by rw [same]
        have epoch : still.leaseEpoch = row.leaseEpoch := by rw [same]
        obtain ⟨newer, holds, copied⟩ :=
          moved.holding kept (by rw [identity, epoch]; exact other) early
        exact ⟨newer, holds, by rw [copied, same]⟩

end Database

open Database

/-- In every continuation of a reachable state by calls before a lease expires,
none of them made with the lease: the run stands as it stood, but for the cancel
flag; and then the holder starts it, if it was leased, and finishes it, if it
was running and its effects are resolved. -/
theorem live_lease_undisturbed {sha256 : Sha256}
    {allowed : Database → Call → Prop} {db last : Database} {row : RunRow}
    {worker : String} {expiresAt : Timestamp} {later : List Event}
    (reached : Reachable sha256 allowed db)
    (holding : db.Holding row worker expiresAt)
    (continued : Execution (Database.perform sha256) allowed db later last)
    (others : ∀ event ∈ later,
      ¬ event.call.command.Uses row.id worker row.leaseEpoch)
    (inTime : ∀ event ∈ later, ∀ reading,
      event.call.clock reading < expiresAt) :
    (∃ still ∈ last.runs.rows,
      still = { row with cancelRequested := still.cancelRequested }) ∧
    ∀ (clock : Clock) (allowedTenants : List Uuid), clock 0 < expiresAt →
      row.tenantId ∈ allowedTenants →
      workerIdentifier worker = true ∧ 0 < row.leaseEpoch →
      (row.state = .leased → ∃ next, last.perform sha256
        ⟨.markRunStarted row.id worker allowedTenants row.leaseEpoch, clock⟩ =
          (.ok .started, next)) ∧
      (row.state = .running →
        last.unfinished row.tenantId row.id = false →
        ∀ output errorCode,
          FinishAccepted worker row.leaseEpoch output errorCode →
          ∃ record next, last.perform sha256
            ⟨.finishRun row.id worker allowedTenants row.leaseEpoch output
              errorCode, clock⟩ = (.ok (.finished record), next)) := by
  obtain ⟨still, kept, same⟩ := Database.holding_of_execution holding continued
    others inTime
  obtain ⟨history, execution⟩ := reached
  have sound : last.Sound :=
    Reachable.sound ⟨_, execution.append continued⟩
  have identity : still.id = row.id := by rw [same]
  have tenant : still.tenantId = row.tenantId := by rw [same]
  have epoch : still.leaseEpoch = row.leaseEpoch := by rw [same]
  have state : still.state = row.state := by rw [same]
  refine ⟨⟨still, kept.member, same⟩, ?_⟩
  intro clock allowedTenants early permitted named
  constructor
  · intro waiting
    obtain ⟨next, started⟩ := sound.exists_markRunStarted sha256 kept epoch
      named (tenant ▸ permitted) early (state.trans waiting)
    rw [identity] at started
    refine ⟨next, ?_⟩
    simp [perform, execute, started, Except.map]
  · intro running resolved output errorCode accepted
    obtain ⟨owner, tenantFound⟩ := Option.ne_none_iff_exists'.mp
      (sound.references.runs still kept.member).tenant
    have asked : last.FinishAsked row.id worker allowedTenants row.leaseEpoch
        output errorCode still owner :=
      ⟨accepted, findRunById_eq_some_iff.mpr ⟨kept.member, identity⟩,
        tenant ▸ permitted, tenantFound⟩
    obtain ⟨record, next, finished⟩ := sound.exists_finishRun sha256 asked
      ⟨state.trans running, kept.owner, epoch, kept.live early, kept.held⟩
      (tenant ▸ resolved)
    refine ⟨record, next, ?_⟩
    simp [perform, execute, finished, Except.map]

namespace Sample

/-- A sweep, a request to cancel and the revocation of the grant. -/
def interference : List Command :=
  [.reapOne reapPolicy, .requestCancel 1 20, .revokeGrant 1 11 "owner" "leaked"]

end Sample

theorem live_lease_undisturbed_revoked :
    ∃ next, (performAll (perform Sample.sha256) (Sample.after Sample.lease)
        (Sample.calls Sample.interference)).2.perform Sample.sha256
        ⟨.markRunStarted 20 "worker" [1] 1, fun _ => 5⟩ =
      (.ok .started, next) := by
  have reached : Reachable Sample.sha256 (fun _ _ => True)
      (Sample.after Sample.lease) :=
    Sample.reachable_after fun _ _ _ => trivial
  have continued : Execution (perform Sample.sha256) (fun _ _ => True)
      (Sample.after Sample.lease) _ _ :=
    Execution.of_performAll (AllPermitted.of_forall
      (show ∀ state, ∀ call ∈ Sample.calls Sample.interference, True from
        fun _ _ _ => trivial))
  obtain ⟨row, stored, identity, tenant, epoch, state, held, owner, expiry⟩ :
      ∃ row ∈ (Sample.after Sample.lease).runs.rows, row.id = 20 ∧
        row.tenantId = 1 ∧ row.leaseEpoch = 1 ∧ row.state = .leased ∧
        row.activeSlotHeld = true ∧ row.leaseOwner = some "worker" ∧
        row.leaseExpiresAt = some 1000000 := by
    decide +kernel
  have made : ∀ event ∈ (performAll (perform Sample.sha256)
      (Sample.after Sample.lease) (Sample.calls Sample.interference)).1,
      ∃ command ∈ Sample.interference,
        (⟨command, fun _ => 5⟩ : Call) = event.call :=
    fun event member => List.mem_map.mp (call_mem_of_performAll member)
  have undisturbed := live_lease_undisturbed reached
    ⟨stored, held, owner, expiry⟩ continued
    (fun event member => by
      obtain ⟨command, listed, same⟩ := made event member
      simp only [Sample.interference, List.mem_cons, List.not_mem_nil,
        or_false] at listed
      rw [← same]
      rcases listed with rfl | rfl | rfl <;> exact id)
    (fun event member reading => by
      obtain ⟨command, _, same⟩ := made event member
      rw [← same]
      exact (by decide : (5 : Timestamp) < 1000000))
  have started := (undisturbed.2 (fun _ => 5) [1] (by decide)
    (by simp [tenant]) ⟨by decide, by rw [epoch]; decide⟩).1 state
  rwa [identity, epoch] at started

end EffectLatch
