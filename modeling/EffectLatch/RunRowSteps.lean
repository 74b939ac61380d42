import EffectLatch.StoreSchedulerSoundness

/-!
# How one call changes the runs table

A call leaves the runs and their events alone, admits one run, or rewrites one
run and records events for it.  Properties of single runs are proved against
`RunAdmission` and `RunStep`, and `Transition.runs_keep` lifts them to the
whole table.
-/

namespace EffectLatch

namespace Database

/-- The run a successful first admission stores. -/
inductive RunAdmission (sha256 : Sha256) (db : Database) (clock : Clock) :
    Command → RunRow → Prop
  | admitted {runId tenant : Uuid} {key : String} {request : NormalizedRun}
      {maxPendingGlobal maxPendingTenant : Nat} {tenantRow : TenantRow}
      (tenantFound : db.findTenant tenant = some tenantRow)
      (keyFree : db.findRunByKey tenant key = none)
      (moduleFound : db.findModule tenant request.moduleDigest ≠ none)
      (grantFound : db.findGrant tenant request.grantId ≠ none)
      (live : db.grantLive tenant request.grantId (clock 0) = true) :
      RunAdmission sha256 db clock
        (.admitRun runId tenant key request maxPendingGlobal maxPendingTenant)
        (admittedRow sha256 clock runId tenant key request)

/-- The rewrite of one run, before its event head moves past the recorded
entries. -/
inductive RunStep (db : Database) (clock : Clock) :
    Command → RunRow → RunRow → List (String × List UInt8) → Prop
  | leased {worker : String} {allowedTenants : List Uuid}
      {availableSlots : Nat} {policy : ClaimPolicy} {tenant : TenantRow}
      {row : RunRow} {chain : List Grant} {expiresAt : Timestamp}
      (selected : db.Selected worker allowedTenants policy tenant row chain)
      (live : db.ChainLive tenant.id chain (clock 0))
      (bounded : expiresAt =
        leaseExpiry (clock 1 + (policy.leaseMs : Int) * 1000)
          (db.grantRows tenant.id (chain.map Grant.id))) :
      RunStep db clock (.claimRun worker allowedTenants availableSlots policy)
        row (row.leasedBy worker expiresAt (clock 2))
        [("lease.claimed", claimPayload (row.leaseEpoch + 1) worker)]
  | denied {worker : String} {allowedTenants : List Uuid}
      {availableSlots : Nat} {policy : ClaimPolicy} {tenant : TenantRow}
      {row : RunRow} {chain : List Grant}
      (selected : db.Selected worker allowedTenants policy tenant row chain)
      (dead : ¬ db.ChainLive tenant.id chain (clock 0)) :
      RunStep db clock (.claimRun worker allowedTenants availableSlots policy)
        row (row.deniedAt (clock 1))
        [("grant.denied", utf8 "\x7b\"reason\":\"inactive\"\x7d"),
          ("run.failed",
            utf8 "\x7b\"state\":\"failed\",\"error_code\":\"GRANT_DENIED\"\x7d")]
  | renewed {run : Uuid} {worker : String} {allowedTenants : List Uuid}
      {epoch : Int} {leaseMs : Nat} {row : RunRow} {expiresAt : Timestamp}
      (lease : row.LeasedTo db run worker allowedTenants epoch (clock 0))
      (active : row.state = .leased ∨ row.state = .running) :
      RunStep db clock (.heartbeatRun run worker allowedTenants epoch leaseMs)
        row (row.renewedUntil expiresAt (clock 3)) []
  | started {run : Uuid} {worker : String} {allowedTenants : List Uuid}
      {epoch : Int} {row : RunRow}
      (lease : row.LeasedTo db run worker allowedTenants epoch (clock 0))
      (waiting : row.state = .leased) :
      RunStep db clock (.markRunStarted run worker allowedTenants epoch)
        row (row.startedAt (clock 1))
        [("runner.started", statePayload .running)]
  | promoted {policy : ReapPolicy} {row : RunRow}
      (waiting : row.state = .retryWait) (free : row.activeSlotHeld = false) :
      RunStep db clock (.reapOne policy) row
        (row.movedTo (db.promotionVerdict policy row).1 (clock 0))
        [((db.promotionVerdict policy row).2.2,
          statePayload (db.promotionVerdict policy row).1)]
  | expired {policy : ReapPolicy} {row : RunRow} {queueLimit : Int}
      (held : row.activeSlotHeld = true)
      (active : row.state = .leased ∨ row.state = .running)
      (overdue : row.expired (clock 1) = true) :
      RunStep db clock (.reapOne policy) row
        (row.releasedTo (db.expiryVerdict policy queueLimit row).1 (clock 2))
        [("lease.expired", utf8 "\x7b\"expired\":true\x7d"),
          ((db.expiryVerdict policy queueLimit row).2.2,
            statePayload (db.expiryVerdict policy queueLimit row).1)]
  | finished {run : Uuid} {worker : String} {allowedTenants : List Uuid}
      {epoch : Int} {output : Option (List UInt8)} {errorCode : Option String}
      {row : RunRow}
      (lease : row.LeasedTo db run worker allowedTenants epoch (clock 0))
      (running : row.state = .running)
      (resolved : db.unfinished row.tenantId run = false) :
      RunStep db clock
        (.finishRun run worker allowedTenants epoch output errorCode) row
        (row.finishedAs (row.finalVerdict errorCode).1 output errorCode
          (clock 1))
        [((row.finalVerdict errorCode).2,
          statePayload (row.finalVerdict errorCode).1)]
  | cancelRequested {tenant run : Uuid} {row : RunRow} :
      RunStep db clock (.requestCancel tenant run) row row.cancelAsked []

variable {sha256 : Sha256} {db next : Database} {clock : Clock}
  {command : Command} {response : Response}

/-- A rewrite without events is a recording of none. -/
theorem recorded_nil {runs : Table RunRow.schema} {old new : RunRow}
    (replaced : Table.Replaced db.runs runs old new) :
    Recorded sha256 db runs db.runEvents old new [] := by
  refine ⟨?_, by simp [RunRow.emitted, RunRow.chainEvents]⟩
  rw [RunRow.advance_nil]
  exact replaced

theorem Transition.runs_cases
    (moved : Transition sha256 db clock command response next) :
    (next.runs = db.runs ∧ next.runEvents = db.runEvents) ∨
      (∃ row, RunAdmission sha256 db clock command row ∧
        Table.Inserted db.runs next.runs
          (row.advance sha256 [("run.admitted", statePayload .queued)]) ∧
        next.runEvents.rows = db.runEvents.rows ++
          row.emitted sha256 [("run.admitted", statePayload .queued)]) ∨
      ∃ old new entries, RunStep db clock command old new entries ∧
        Recorded sha256 db next.runs next.runEvents old new entries := by
  cases moved with
  | unchanged _ => exact .inl ⟨rfl, rfl⟩
  | moduleCreated _ _ => exact .inl ⟨rfl, rfl⟩
  | admitted tenantFound keyFree moduleFound grantFound live _ _ inserted
      logged _ =>
      exact .inr (.inl ⟨_, .admitted tenantFound keyFree moduleFound
        grantFound live, inserted, logged⟩)
  | grantCreated _ _ _ _ _ => exact .inl ⟨rfl, rfl⟩
  | grantRevoked _ _ _ => exact .inl ⟨rfl, rfl⟩
  | reserved _ _ _ _ _ _ _ _ _ _ => exact .inl ⟨rfl, rfl⟩
  | leased selected live _ _ bounded _ recorded _ =>
      exact .inr (.inr ⟨_, _, _, .leased selected live bounded, recorded⟩)
  | denied selected dead recorded =>
      exact .inr (.inr ⟨_, _, _, .denied selected dead, recorded⟩)
  | renewed lease active _ _ _ _ _ _ replaced =>
      exact .inr (.inr ⟨_, _, _, .renewed lease active,
        recorded_nil replaced⟩)
  | started lease waiting recorded =>
      exact .inr (.inr ⟨_, _, _, .started lease waiting, recorded⟩)
  | promoted _ _ _ _ _ waiting free recorded =>
      exact .inr (.inr ⟨_, _, _, .promoted waiting free, recorded⟩)
  | expired _ _ _ _ _ held active overdue _ recorded =>
      exact .inr (.inr ⟨_, _, _, .expired held active overdue, recorded⟩)
  | finished lease running _ _ resolved _ recorded =>
      exact .inr (.inr ⟨_, _, _, .finished lease running resolved, recorded⟩)
  | tenantProvisioned _ => exact .inl ⟨rfl, rfl⟩
  | cancelRequested _ replaced =>
      exact .inr (.inr ⟨_, _, _, .cancelRequested, recorded_nil replaced⟩)
  | cancelMissed => exact .inl ⟨rfl, rfl⟩
  | effectPrepared _ _ => exact .inl ⟨rfl, rfl⟩
  | effectMoved _ _ => exact .inl ⟨rfl, rfl⟩
  | moveMissed => exact .inl ⟨rfl, rfl⟩

/-- A property of single runs that admission establishes and every rewrite
keeps holds of every run after the call. -/
theorem Transition.runs_keep {Holds : RunRow → Prop}
    (moved : Transition sha256 db clock command response next)
    (fresh : ∀ row, RunAdmission sha256 db clock command row →
      Holds (row.advance sha256 [("run.admitted", statePayload .queued)]))
    (kept : ∀ old new entries, RunStep db clock command old new entries →
      Holds old → Holds (new.advance sha256 entries))
    (before : ∀ row ∈ db.runs.rows, Holds row) :
    ∀ row ∈ next.runs.rows, Holds row := by
  intro row member
  rcases moved.runs_cases with ⟨same, _⟩ | ⟨admitted, admission, inserted, _⟩ |
    ⟨old, new, entries, step, recorded⟩
  · exact before row (same ▸ member)
  · rcases inserted.mem_iff.mp member with stored | rfl
    · exact before row stored
    · exact fresh admitted admission
  · rcases recorded.replaced.mem_iff.mp member with rfl | ⟨stored, _⟩
    · exact kept old new entries step
        (before old recorded.replaced.member)
    · exact before row stored

/-- Every run after the call was there before it, rewritten or not, or was
admitted by it. -/
theorem Transition.run_origin {row : RunRow}
    (moved : Transition sha256 db clock command response next)
    (member : row ∈ next.runs.rows) :
    row ∈ db.runs.rows ∨
      (∃ admitted, RunAdmission sha256 db clock command admitted ∧
        row = admitted.advance sha256
          [("run.admitted", statePayload .queued)]) ∨
      ∃ old new entries, old ∈ db.runs.rows ∧
        RunStep db clock command old new entries ∧
        row = new.advance sha256 entries := by
  rcases moved.runs_cases with ⟨same, _⟩ | ⟨admitted, admission, inserted, _⟩ |
    ⟨old, new, entries, step, recorded⟩
  · exact .inl (same ▸ member)
  · rcases inserted.mem_iff.mp member with stored | rfl
    · exact .inl stored
    · exact .inr (.inl ⟨admitted, admission, rfl⟩)
  · rcases recorded.replaced.mem_iff.mp member with rfl | ⟨stored, _⟩
    · exact .inr (.inr ⟨old, new, entries, recorded.replaced.member, step, rfl⟩)
    · exact .inl stored

end Database

namespace Database

/-- Where a deferred retry goes, and when. -/
theorem promotionVerdict_cases (db : Database) (policy : ReapPolicy)
    (row : RunRow) :
    (db.uncertain row.tenantId row.id = true ∧
        db.promotionVerdict policy row = reconcileVerdict) ∨
      (db.uncertain row.tenantId row.id = false ∧ row.cancelRequested = true ∧
        db.promotionVerdict policy row = cancelVerdict) ∨
      (db.uncertain row.tenantId row.id = false ∧
        db.promotionVerdict policy row = failVerdict) ∨
      (db.uncertain row.tenantId row.id = false ∧
        row.attempt < policy.maxAttempts ∧
        db.promotionVerdict policy row = requeueVerdict) := by
  unfold promotionVerdict
  by_cases unsure : db.uncertain row.tenantId row.id = true
  · simp [unsure]
  rw [Bool.not_eq_true] at unsure
  by_cases cancelled : row.cancelRequested = true
  · simp [unsure, cancelled]
  by_cases spent : (policy.maxAttempts : Int) ≤ row.attempt
  · simp [unsure, cancelled, spent]
  · have left : row.attempt < policy.maxAttempts := not_le.mp spent
    simp [unsure, cancelled, spent, left]

/-- Where an expired run goes, and when. -/
theorem expiryVerdict_cases (db : Database) (policy : ReapPolicy)
    (queueLimit : Int) (row : RunRow) :
    (db.uncertain row.tenantId row.id = true ∧
        db.expiryVerdict policy queueLimit row = reconcileVerdict) ∨
      (db.uncertain row.tenantId row.id = false ∧ row.cancelRequested = true ∧
        db.expiryVerdict policy queueLimit row = cancelVerdict) ∨
      (db.uncertain row.tenantId row.id = false ∧
        db.expiryVerdict policy queueLimit row = failVerdict) ∨
      (db.uncertain row.tenantId row.id = false ∧
        row.attempt < policy.maxAttempts ∧
        (db.expiryVerdict policy queueLimit row = waitVerdict ∨
          db.expiryVerdict policy queueLimit row = requeueVerdict)) := by
  unfold expiryVerdict
  by_cases unsure : db.uncertain row.tenantId row.id = true
  · simp [unsure]
  rw [Bool.not_eq_true] at unsure
  by_cases cancelled : row.cancelRequested = true
  · simp [unsure, cancelled]
  by_cases spent : (policy.maxAttempts : Int) ≤ row.attempt
  · simp [unsure, cancelled, spent]
  · have left : row.attempt < policy.maxAttempts := not_le.mp spent
    refine .inr (.inr (.inr ⟨unsure, left, ?_⟩))
    simp only [unsure, cancelled, spent, Bool.false_eq_true, if_false]
    split
    · exact .inl rfl
    · exact .inr rfl

/-- The ways out of a deferred retry. -/
def promotionVerdicts : List Verdict :=
  [reconcileVerdict, cancelVerdict, failVerdict, requeueVerdict]

/-- The ways out of an expired run. -/
def reapVerdicts : List Verdict := waitVerdict :: promotionVerdicts

theorem promotionVerdict_mem (db : Database) (policy : ReapPolicy)
    (row : RunRow) : db.promotionVerdict policy row ∈ promotionVerdicts := by
  rcases db.promotionVerdict_cases policy row with
    ⟨_, same⟩ | ⟨_, _, same⟩ | ⟨_, same⟩ | ⟨_, _, same⟩ <;>
  · rw [same]
    decide

theorem promotionVerdict_mem_reap (db : Database) (policy : ReapPolicy)
    (row : RunRow) : db.promotionVerdict policy row ∈ reapVerdicts :=
  List.mem_cons_of_mem _ (db.promotionVerdict_mem policy row)

theorem expiryVerdict_mem_reap (db : Database) (policy : ReapPolicy)
    (queueLimit : Int) (row : RunRow) :
    db.expiryVerdict policy queueLimit row ∈ reapVerdicts := by
  rcases db.expiryVerdict_cases policy queueLimit row with
    ⟨_, same⟩ | ⟨_, _, same⟩ | ⟨_, same⟩ | ⟨_, _, same | same⟩ <;>
  · rw [same]
    decide

/-- A promoted run waits no longer. -/
theorem promotionVerdict_leaves (db : Database) (policy : ReapPolicy)
    (row : RunRow) : (db.promotionVerdict policy row).1 ≠ .retryWait := by
  have leaves : ∀ verdict ∈ promotionVerdicts, verdict.1 ≠ .retryWait := by
    decide
  exact leaves _ (db.promotionVerdict_mem policy row)

/-- No reaped run is active. -/
theorem idle_of_mem_reap {verdict : Verdict} (reaped : verdict ∈ reapVerdicts) :
    ¬ (verdict.1 = .leased ∨ verdict.1 = .running) := by
  revert verdict
  decide

end Database

theorem RunRow.finalVerdict_cases (row : RunRow) (errorCode : Option String) :
    (row.finalVerdict errorCode).1 = .cancelled ∨
      (row.finalVerdict errorCode).1 = .failed ∨
      (row.finalVerdict errorCode).1 = .succeeded := by
  unfold RunRow.finalVerdict
  split
  · exact .inl rfl
  split
  · exact .inr (.inl rfl)
  · exact .inr (.inr rfl)

/-- The columns of a run that admission fixes for good. -/
structure RunRow.SameRequest (first second : RunRow) : Prop where
  tenantId : second.tenantId = first.tenantId
  id : second.id = first.id
  idempotencyKey : second.idempotencyKey = first.idempotencyKey
  requestHash : second.requestHash = first.requestHash
  moduleDigest : second.moduleDigest = first.moduleDigest
  grantId : second.grantId = first.grantId
  inputBytes : second.inputBytes = first.inputBytes
  limits : second.limits = first.limits
  createdAt : second.createdAt = first.createdAt

namespace RunRow.SameRequest

theorem refl (row : RunRow) : row.SameRequest row :=
  ⟨rfl, rfl, rfl, rfl, rfl, rfl, rfl, rfl, rfl⟩

theorem trans {first second third : RunRow}
    (left : first.SameRequest second) (right : second.SameRequest third) :
    first.SameRequest third :=
  ⟨right.tenantId.trans left.tenantId, right.id.trans left.id,
    right.idempotencyKey.trans left.idempotencyKey,
    right.requestHash.trans left.requestHash,
    right.moduleDigest.trans left.moduleDigest,
    right.grantId.trans left.grantId, right.inputBytes.trans left.inputBytes,
    right.limits.trans left.limits, right.createdAt.trans left.createdAt⟩

/-- No rewrite of a run touches the request. -/
theorem of_step {db : Database} {clock : Clock} {command : Command}
    {old new : RunRow} {entries : List (String × List UInt8)}
    (step : db.RunStep clock command old new entries) (sha256 : Sha256) :
    old.SameRequest (new.advance sha256 entries) := by
  cases step <;> exact ⟨rfl, rfl, rfl, rfl, rfl, rfl, rfl, rfl, rfl⟩

end RunRow.SameRequest

end EffectLatch
