import EffectLatch.DrainingLoops
import EffectLatch.QueueCapacity
import EffectLatch.SchedulerCorruption

/-!
# Sweeps drain

A deferred retry is promoted in one sweep call, an expired slot takes at most
two: it may become a deferred retry first.  Repeated under a standing clock the
calls therefore end, and they end only when no lease is overdue and every
deferred retry is held back by a full queue.
-/

namespace EffectLatch

/-- A sweep call under a clock that stands still. -/
def reapCall (policy : ReapPolicy) (now : Timestamp) : Call :=
  ⟨.reapOne policy, fun _ => now⟩

/-- How many sweep calls can still reap the run. -/
def RunRow.reapWeight (row : RunRow) (now : Timestamp) : Nat :=
  2 * (if (row.activeSlotHeld && row.expired now) = true then 1 else 0) +
    if (row.state == .retryWait) = true then 1 else 0

/-- A run without a slot takes at most one call. -/
theorem RunRow.reapWeight_le_one {row : RunRow} {now : Timestamp}
    (free : row.activeSlotHeld = false) : row.reapWeight now ≤ 1 := by
  by_cases deferred : (row.state == .retryWait) = true <;>
  · simp [reapWeight, free, deferred]

theorem RunRow.one_lt_reapWeight {row : RunRow} {now : Timestamp}
    (held : row.activeSlotHeld = true) (past : row.expired now = true) :
    1 < row.reapWeight now := by
  simp only [reapWeight, held, past, Bool.and_self, if_true]
  omega

namespace Database

/-- The number of held slots whose lease expired. -/
def overdueCount (db : Database) (now : Timestamp) : Nat :=
  db.runs.rows.countP fun row => row.activeSlotHeld && row.expired now

/-- The number of deferred retries. -/
def deferredCount (db : Database) : Nat :=
  db.runs.rows.countP fun row => row.state == .retryWait

/-- How many sweep calls can still reap a run. -/
def reapWeight (db : Database) (now : Timestamp) : Nat :=
  2 * db.overdueCount now + db.deferredCount

/-- The database after some sweep calls in a row. -/
def swept (sha256 : Sha256) (policy : ReapPolicy) (now : Timestamp)
    (count : Nat) (db : Database) : Database :=
  (fun db => (db.perform sha256 (reapCall policy now)).2)^[count] db

/-- No held slot is overdue, and only a full queue holds a retry back. -/
structure Drained (policy : ReapPolicy) (now : Timestamp) (db : Database) :
    Prop where
  slots : ∀ row ∈ db.runs.rows,
    ¬ (row.activeSlotHeld = true ∧ row.expired now = true)
  waiting : ∀ row ∈ db.runs.rows, row.state = .retryWait →
    policy.maxPendingGlobal ≤ db.queuedCount (fun _ => true) ∨
      ∃ tenant ∈ db.tenants.rows, tenant.id = row.tenantId ∧
        min tenant.queueLimit policy.maxPendingTenant ≤
          (db.queuedCount (RunRow.ofTenant row.tenantId) : Int)

variable {sha256 : Sha256} {db next : Database} {clock : Clock}
  {policy : ReapPolicy} {now : Timestamp} {row : RunRow}

/-! ## A candidate is always reaped -/

/-- The event of a verdict is within the limits of an event. -/
theorem sized_verdict : ∀ verdict ∈ reapVerdicts,
    (utf8 verdict.2.2).length ≠ 0 ∧ (utf8 verdict.2.2).length ≤ 128 ∧
      (statePayload verdict.1).length ≤ 16384 := by
  decide

/-- A slot that is counted can be released. -/
theorem exists_releaseSlot {tenant : TenantRow}
    (found : db.findTenant row.tenantId = some tenant)
    (counted : 0 < tenant.activeCount) :
    ∃ tenants, db.releaseSlot row.tenantId =
      .ok { db with tenants := tenants } := by
  obtain ⟨tenants, updated⟩ : ∃ tenants, db.tenants.update
      (fun other => decide (other.id = row.tenantId ∧ 0 < other.activeCount))
      (fun other => { other with activeCount := other.activeCount - 1 })
      (fun _ => rfl) = some tenants := by
    apply Table.exists_update
    intro other stored chosen
    have checked := db.tenants.checked other stored
    simp only [TenantRow.schema, decide_eq_true_eq] at checked chosen ⊢
    omega
  refine ⟨tenants, ?_⟩
  simp only [releaseSlot, updateTenants, updated, Except.fetch_some,
    Except.ok_bind_eq, Except.require_of (countP_releasable found counted)]
  rfl

namespace Sound

variable (sound : db.Sound)

include sound

theorem exists_promote
    (candidate : db.waitingCandidate policy = some row) :
    ∃ result next, db.promote sha256 clock policy row.tenantId row.id =
      .ok (some result, next) := by
  obtain ⟨member, waiting, found⟩ := waitingCandidate_found candidate
  have free : row.activeSlotHeld = false := by
    have consistent := (sound.slots.runs row member).state
    simpa [waiting] using consistent
  obtain ⟨tenant, tenantFound⟩ := Option.ne_none_iff_exists'.mp
    (sound.references.runs row member).tenant
  obtain ⟨_, updated, room⟩ := sound.heads.exists_updateRun found
    (fun other => { other with
      state := (db.promotionVerdict policy row).1
      updatedAt := clock 0 })
    (fun _ => rfl) (fun _ checked => checked) rfl
  obtain ⟨runs, events, appended, _⟩ := room.exists_appendEvent sha256 _ _
    (sized_verdict _ (db.promotionVerdict_mem_reap policy row))
  refine ⟨(row.id, (db.promotionVerdict policy row).2.1),
    { db with runs := runs, runEvents := events }, ?_⟩
  simp only [promote, tenantFound, found, Except.fetch_some,
    Except.ok_bind_eq, Except.require_of (And.intro waiting free)]
  rw [updated, Except.ok_bind_eq, appended]
  rfl

theorem exists_expire
    (candidate : db.expiredCandidate (clock 0) = some row)
    (overdue : row.expired (clock 1) = true) :
    ∃ result next, db.expire sha256 clock policy row.tenantId row.id =
      .ok (some result, next) := by
  obtain ⟨member, held, _, _, found⟩ := expiredCandidate_found candidate
  obtain ⟨tenant, tenantFound⟩ := Option.ne_none_iff_exists'.mp
    (sound.references.runs row member).tenant
  have counted := sound.activeCount_pos member held tenantFound
  obtain ⟨tenants, released⟩ := exists_releaseSlot tenantFound counted
  have heads : ({ db with tenants := tenants } : Database).EventHeads :=
    ⟨sound.heads.heads, sound.heads.events⟩
  obtain ⟨_, updated, room⟩ := heads.exists_updateRun found
    (fun other => { other with
      state := (db.expiryVerdict policy tenant.queueLimit row).1
      activeSlotHeld := false
      leaseOwner := none
      leaseExpiresAt := none
      updatedAt := clock 2 })
    (fun _ => rfl) (fun _ checked => checked) rfl
  obtain ⟨_, _, noted, left⟩ := room.exists_appendEvent sha256 "lease.expired"
    (utf8 "\x7b\"expired\":true\x7d") (by decide)
  obtain ⟨runs, events, appended, _⟩ := left.exists_appendEvent sha256 _ _
    (sized_verdict _
      (db.expiryVerdict_mem_reap policy tenant.queueLimit row))
  refine ⟨(row.id, (db.expiryVerdict policy tenant.queueLimit row).2.1),
    { db with tenants := tenants, runs := runs, runEvents := events }, ?_⟩
  simp only [expire, tenantFound, found, Except.fetch_some, Except.ok_bind_eq,
    Except.require_of counted, Except.require_of held, overdue, released,
    Bool.true_eq_false, if_false]
  rw [updated, Except.ok_bind_eq, noted, Except.ok_bind_eq, appended]
  rfl

/-- No candidate is left only when the sweeps have drained. -/
theorem drained
    (waiting : (if db.queuedCount (fun _ => true) < policy.maxPendingGlobal then
      db.waitingCandidate policy else none) = none)
    (expired : db.expiredCandidate now = none) : Drained policy now db where
  slots := by
    rintro other stored ⟨held, overdue⟩
    have unselected :=
      List.filter_eq_nil_iff.mp (List.first_eq_none_iff.mp expired) other stored
    have active := (sound.slots.runs other stored).state.mp held
    simp [held, active, overdue] at unselected
  waiting := by
    intro other stored deferred
    by_cases room : db.queuedCount (fun _ => true) < policy.maxPendingGlobal
    · right
      rw [if_pos room] at waiting
      have unselected := List.filter_eq_nil_iff.mp
        (List.first_eq_none_iff.mp waiting) other stored
      obtain ⟨tenant, found⟩ := Option.ne_none_iff_exists'.mp
        (sound.references.runs other stored).tenant
      obtain ⟨tenantStored, idEq⟩ := findTenant_eq_some_iff.mp found
      refine ⟨tenant, tenantStored, idEq, not_lt.mp fun less => ?_⟩
      apply unselected
      simp only [deferred, beq_self_eq_true, Bool.true_and, List.any_eq_true,
        decide_eq_true_eq]
      exact ⟨tenant, tenantStored, idEq, less⟩
    · exact .inl (not_lt.mp room)

/-- A sweep call under a standing clock reaps a run, or there is nothing left
to reap. -/
theorem reapOne_cases (sha256 : Sha256) (valid : policy.Valid)
    (now : Timestamp) :
    (∃ result next, db.reapOne sha256 (fun _ => now) policy =
      .ok (some result, next)) ∨
    (db.reapOne sha256 (fun _ => now) policy = .ok (none, db) ∧
      Drained policy now db) := by
  have accepted : (1 ≤ policy.maxAttempts ∧ policy.maxAttempts ≤ 3) ∧
      (1 ≤ policy.maxPendingGlobal ∧ policy.maxPendingGlobal ≤ 1000) ∧
      (1 ≤ policy.maxPendingTenant ∧ policy.maxPendingTenant ≤ 100) ∧
      policy.maxPendingTenant ≤ policy.maxPendingGlobal :=
    ⟨valid.attempts, valid.global, valid.tenant, valid.ordered⟩
  simp only [reapOne, beginScheduler, Except.require_of accepted,
    Except.require_of sound.references.scheduler, Except.ok_bind_eq]
  cases waiting : (if db.queuedCount (fun _ => true) <
      policy.maxPendingGlobal then db.waitingCandidate policy else none) with
  | some row =>
      split at waiting
      next => exact .inl (sound.exists_promote waiting)
      next => simp at waiting
  | none =>
      cases candidate : db.expiredCandidate now with
      | some row =>
          obtain ⟨_, _, _, overdue, _⟩ := expiredCandidate_found candidate
          exact .inl (sound.exists_expire candidate overdue)
      | none => exact .inr ⟨rfl, sound.drained waiting candidate⟩

theorem reaped {response : Response}
    (moved : Transition sha256 db clock (.reapOne policy) response next) :
    next.Sound where
  references := moved.references sound.references
  forest := moved.grantForest sound.forest
  slots := moved.slotsAccounted (fun _ _ _ _ asked => by simp at asked)
    sound.references sound.slots
  heads := moved.eventHeads sound.heads

end Sound

/-! ## Every reaped run lowers the weight -/

/-- A rewrite that makes a run lighter makes the database lighter. -/
theorem reapWeight_lt_of_replaced {old new : RunRow}
    (replaced : Table.Replaced db.runs next.runs old new)
    (lighter : new.reapWeight now < old.reapWeight now) :
    next.reapWeight now < db.reapWeight now := by
  have overdue := replaced.countP_add fun row =>
    row.activeSlotHeld && row.expired now
  have deferred := replaced.countP_add fun row => row.state == .retryWait
  simp only [RunRow.reapWeight] at lighter
  simp only [reapWeight, overdueCount, deferredCount]
  omega

/-- A promotion takes a run out of the deferred retries; an expiry takes one
out of the overdue slots and adds at most one deferred retry. -/
theorem Transition.reapWeight_lt {result : Uuid × Reaped}
    (moved : Transition sha256 db (fun _ => now) (.reapOne policy)
      (.reaped (some result)) next) :
    next.reapWeight now < db.reapWeight now := by
  cases moved with
  | unchanged observed => cases observed
  | @promoted _ row _ _ _ _ _ _ _ _ waiting free recorded =>
      refine reapWeight_lt_of_replaced recorded.replaced ?_
      have leaves := db.promotionVerdict_leaves policy row
      simp [RunRow.reapWeight, RunRow.advance, RunRow.movedTo, waiting, free,
        leaves]
  | @expired _ row tenant _ _ _ _ _ _ _ _ held _ past _ recorded =>
      exact reapWeight_lt_of_replaced recorded.replaced
        (Nat.lt_of_le_of_lt (RunRow.reapWeight_le_one rfl)
          (RunRow.one_lt_reapWeight held past))

/-! ## Draining -/

/-- The call reaps a run. -/
def Reaps (sha256 : Sha256) (policy : ReapPolicy) (now : Timestamp)
    (db : Database) : Prop :=
  ∃ result, (db.perform sha256 (reapCall policy now)).1 =
    .ok (.reaped (some result))

theorem Sound.perform_cases (sound : db.Sound) (sha256 : Sha256)
    (valid : policy.Valid) (now : Timestamp) :
    (∃ result next,
      db.perform sha256 (reapCall policy now) =
        (.ok (.reaped (some result)), next) ∧
      next.Sound ∧ next.reapWeight now < db.reapWeight now) ∨
    (db.perform sha256 (reapCall policy now) = (.ok (.reaped none), db) ∧
      Drained policy now db) := by
  rcases sound.reapOne_cases sha256 valid now with
    ⟨result, next, done⟩ | ⟨done, drained⟩
  · left
    have performed : db.perform sha256 (reapCall policy now) =
        (.ok (.reaped (some result)), next) := by
      simp [perform, execute, reapCall, done, Except.map]
    have moved := transition_of_perform performed
    exact ⟨result, next, performed, sound.reaped moved, moved.reapWeight_lt⟩
  · right
    exact ⟨by simp [perform, execute, reapCall, done, Except.map], drained⟩

/-- An idle call answers that nothing is left, and it is right. -/
theorem Sound.idle (sound : db.Sound) (sha256 : Sha256) (valid : policy.Valid)
    (idle : ¬ db.Reaps sha256 policy now) :
    db.perform sha256 (reapCall policy now) = (.ok (.reaped none), db) ∧
      Drained policy now db := by
  rcases sound.perform_cases sha256 valid now with
    ⟨result, _, performed, _, _⟩ | drained
  · exact absurd ⟨result, by rw [performed]⟩ idle
  · exact drained

theorem draining (sha256 : Sha256) (valid : policy.Valid) (now : Timestamp) :
    Draining (fun db => (db.perform sha256 (reapCall policy now)).2) Sound
      (Reaps sha256 policy now) fun db => db.reapWeight now where
  keeps db sound := by
    rcases sound.perform_cases sha256 valid now with
      ⟨_, _, performed, kept, _⟩ | ⟨performed, _⟩
    · rw [performed]
      exact kept
    · rw [performed]
      exact sound
  lowers db sound busy := by
    rcases sound.perform_cases sha256 valid now with
      ⟨_, _, performed, _, less⟩ | ⟨performed, _⟩
    · rw [performed]
      exact less
    · obtain ⟨_, reaped⟩ := busy
      rw [performed] at reaped
      simp at reaped
  rests db sound idle := by
    obtain ⟨performed, _⟩ := sound.idle sha256 valid idle
    rw [performed]

end Database

/-- From every reachable state, sweep calls with a valid policy under a
standing clock reap a run each, at most twice for an expired slot and once for
a deferred retry; then they answer that nothing is left and change nothing, with
no lease overdue and every deferred retry behind a full queue. -/
theorem reaping_drains {sha256 : Sha256} {allowed : Database → Call → Prop}
    {db : Database} {policy : ReapPolicy}
    (reached : Reachable sha256 allowed db) (valid : policy.Valid)
    (now : Timestamp) :
    ∃ count ≤ 2 * db.overdueCount now + db.deferredCount,
      (∀ turn < count, ∃ result,
        ((db.swept sha256 policy now turn).perform sha256
          (reapCall policy now)).1 = .ok (.reaped (some result))) ∧
      (∀ turn, count ≤ turn →
        (db.swept sha256 policy now turn).perform sha256
            (reapCall policy now) =
          (.ok (.reaped none), db.swept sha256 policy now count)) ∧
      (db.swept sha256 policy now count).Drained policy now := by
  have loop := Database.draining sha256 valid now
  obtain ⟨count, within, busy, idle, last⟩ := loop.exists_count reached.sound
  have sound := loop.holds_iterate reached.sound count
  obtain ⟨answered, drained⟩ := sound.idle sha256 valid idle
  refine ⟨count, within, busy, ?_, drained⟩
  intro turn after
  rw [Database.swept, last turn after]
  exact answered

theorem reaping_drains_lease :
    (Sample.after Sample.lease).overdueCount 1000000000 = 1 ∧
      ∃ count ≤ 2 * (Sample.after Sample.lease).overdueCount 1000000000 +
          (Sample.after Sample.lease).deferredCount,
        ((Sample.after Sample.lease).swept Sample.sha256 Sample.reapPolicy
          1000000000 count).Drained Sample.reapPolicy 1000000000 := by
  have reached : Reachable Sample.sha256 (fun _ _ => True)
      (Sample.after Sample.lease) :=
    Sample.reachable_after fun _ _ _ => trivial
  have valid : Sample.reapPolicy.Valid := by constructor <;> decide
  obtain ⟨count, within, _, _, drained⟩ :=
    reaping_drains reached valid 1000000000
  exact ⟨by decide +kernel, count, within, drained⟩

end EffectLatch
