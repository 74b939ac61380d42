import EffectLatch.ClaimProgress
import EffectLatch.DaemonCalls
import EffectLatch.ReapDraining
import Mathlib.Data.Prod.Lex

/-!
# An overdue lease is reaped in its turn

A sweep promotes a deferred retry, or it reassesses the slot whose lease expired
first.  While a lease is overdue nobody gets a lease that expires before it and
nobody defers a retry but the sweeper, so the lease waits for what was there
before it, whatever else is called in between.
-/

namespace EffectLatch

/-- The rank `ORDER BY lease_expires_at,id` gives a run. -/
def RunRow.expiryRank (row : RunRow) : Timestamp ×ₗ Uuid :=
  toLex (row.leaseExpiresAt.getD 0, row.id)

/-- The run holds a slot whose lease expires before this rank. -/
def RunRow.ahead (rank : Timestamp ×ₗ Uuid) (row : RunRow) : Bool :=
  row.activeSlotHeld && decide (row.expiryRank < rank)

/-- How many sweeps the run can take before the lease of this rank. -/
def RunRow.delay (rank : Timestamp ×ₗ Uuid) (row : RunRow) : Nat :=
  2 * (if row.ahead rank = true then 1 else 0) +
    if (row.state == .retryWait) = true then 1 else 0

/-- The command is a sweep. -/
def Command.sweeps (command : Command) : Bool :=
  match command with
  | .reapOne _ => true
  | _ => false

/-- The call reaped the run. -/
def Event.Reaps (event : Event) (run : Uuid) : Prop :=
  ∃ outcome, event.outcome = .ok (.reaped (some (run, outcome)))

namespace Database

/-- How many sweeps the lease of this rank can have to wait. -/
def delay (db : Database) (rank : Timestamp ×ₗ Uuid) : Nat :=
  2 * db.runs.rows.countP (RunRow.ahead rank) + db.deferredCount

/-- The run is stored with a slot held under a lease that expires then. -/
def Leased (db : Database) (run : Uuid) (expiry : Timestamp) : Prop :=
  ∃ row ∈ db.runs.rows, row.id = run ∧ row.activeSlotHeld = true ∧
    row.leaseExpiresAt = some expiry

variable {sha256 : Sha256} {db next : Database} {clock : Clock}
  {command : Command} {response : Response} {policy : ReapPolicy}
  {row old new : RunRow} {run : Uuid} {expiry : Timestamp}
  {rank : Timestamp ×ₗ Uuid}

/-! ## The delay of a rank -/

theorem lt_leaseExpiry {bound limit : Timestamp} {rows : List GrantRow}
    (below : bound < limit) (all : ∀ row ∈ rows, bound < row.expiresAt) :
    bound < leaseExpiry limit rows := by
  induction rows generalizing limit with
  | nil => exact below
  | cons row rows ih =>
      rw [List.forall_mem_cons] at all
      have next := ih (lt_min below all.1) all.2
      simpa only [leaseExpiry, List.map_cons, List.foldl_cons] using next

/-- A rewrite of a run changes the delay as it changes that run's. -/
theorem delay_of_replaced
    (replaced : Table.Replaced db.runs next.runs old new)
    (rank : Timestamp ×ₗ Uuid) :
    next.delay rank + old.delay rank = db.delay rank + new.delay rank := by
  have ahead := replaced.countP_add (RunRow.ahead rank)
  have deferred := replaced.countP_add fun row => row.state == .retryWait
  simp only [delay, deferredCount, RunRow.delay]
  omega

theorem delay_le_of_replaced
    (replaced : Table.Replaced db.runs next.runs old new)
    (lighter : new.delay rank ≤ old.delay rank) :
    next.delay rank ≤ db.delay rank := by
  have moved := delay_of_replaced replaced rank
  omega

theorem delay_lt_of_replaced
    (replaced : Table.Replaced db.runs next.runs old new)
    (lighter : new.delay rank < old.delay rank) :
    next.delay rank < db.delay rank := by
  have moved := delay_of_replaced replaced rank
  omega

/-- A lease that expires later is not ahead. -/
theorem ahead_eq_false {later : Timestamp}
    (expires : row.leaseExpiresAt = some later) (after : expiry < later) :
    row.ahead (toLex (expiry, run)) = false := by
  have behind : ¬ row.expiryRank < toLex (expiry, run) := by
    rw [RunRow.expiryRank, expires, Option.getD_some,
      Prod.Lex.toLex_lt_toLex]
    rintro (sooner | ⟨same, _⟩)
    · exact lt_asymm after sooner
    · exact ne_of_gt after same
  simp [RunRow.ahead, behind]

theorem delay_eq_zero (apart : row.ahead rank = false)
    (undeferred : row.state ≠ .retryWait) : row.delay rank = 0 := by
  simp [RunRow.delay, apart, undeferred]

theorem delay_le_one (free : row.activeSlotHeld = false) :
    row.delay rank ≤ 1 := by
  by_cases deferred : (row.state == .retryWait) = true <;>
  · simp [RunRow.delay, RunRow.ahead, free, deferred]

/-- A lease under which a call is accepted expires later. -/
theorem lease_later {worker : String} {allowedTenants : List Uuid}
    {epoch : Int} (late : expiry < clock 0)
    (lease : row.LeasedTo db run worker allowedTenants epoch (clock 0)) :
    ∃ later, row.leaseExpiresAt = some later ∧ expiry < later := by
  have live := lease.live
  unfold RunRow.live at live
  split at live
  next later expires =>
    exact ⟨later, expires, late.trans (of_decide_eq_true live)⟩
  next => simp at live

/-- No call but a sweep puts anything before an overdue lease. -/
theorem Transition.delay_le
    (moved : Transition sha256 db clock command response next)
    (late : ∀ reading, expiry < clock reading)
    (apart : command.sweeps = false) :
    next.delay (toLex (expiry, run)) ≤ db.delay (toLex (expiry, run)) := by
  have light {old new : RunRow} {last : Database}
      (replaced : Table.Replaced db.runs last.runs old new)
      (behind : new.ahead (toLex (expiry, run)) = false)
      (undeferred : new.state ≠ .retryWait) :
      last.delay (toLex (expiry, run)) ≤ db.delay (toLex (expiry, run)) := by
    refine delay_le_of_replaced replaced ?_
    rw [delay_eq_zero behind undeferred]
    exact Nat.zero_le _
  have extended (reading : Nat) (leaseMs : Nat) :
      expiry < clock reading + (leaseMs : Int) * 1000 :=
    lt_of_lt_of_le (late reading) (Int.le_add_of_nonneg_right
      (Int.mul_nonneg (Int.natCast_nonneg leaseMs) (by decide)))
  cases moved with
  | admitted _ _ _ _ _ _ _ inserted _ _ =>
      simp only [delay, deferredCount, inserted.rows, List.countP_append]
      simp [RunRow.ahead, RunRow.advance, admittedRow]
  | leased selected live _ _ bounded _ recorded _ =>
      refine light recorded.replaced (ahead_eq_false rfl ?_) (by
        simp [RunRow.advance, RunRow.leasedBy])
      rw [bounded]
      exact lt_leaseExpiry (extended 1 _) fun grant member =>
        (late 0).trans (live grant member).2
  | denied selected _ recorded =>
      refine light recorded.replaced ?_ (by
        simp [RunRow.advance, RunRow.deniedAt])
      simp [RunRow.ahead, RunRow.advance, RunRow.deniedAt, selected.free]
  | @renewed _ _ _ _ leaseMs _ _ _ _ lease active _ _ _ fresh _ bounded
      replaced =>
      have later := lt_min (extended 2 leaseMs) ((late 1).trans fresh)
      rw [← bounded] at later
      refine light replaced (ahead_eq_false rfl later) ?_
      rcases active with state | state <;>
      · simp [RunRow.renewedUntil, state]
  | started lease _ recorded =>
      obtain ⟨later, expires, after⟩ := lease_later (late 0) lease
      exact light recorded.replaced (ahead_eq_false expires after) (by
        simp [RunRow.advance, RunRow.startedAt])
  | @finished _ _ _ _ _ errorCode row _ _ _ _ _ _ _ _ _ _ _ recorded =>
      refine light recorded.replaced rfl ?_
      rcases row.finalVerdict_cases errorCode with verdict | verdict | verdict <;>
      · simp [RunRow.advance, RunRow.finishedAs, verdict]
  | cancelRequested _ replaced =>
      exact delay_le_of_replaced replaced (le_refl _)
  | promoted _ _ _ _ _ _ _ _ => simp [Command.sweeps] at apart
  | expired _ _ _ _ _ _ _ _ _ _ => simp [Command.sweeps] at apart
  | _ => exact le_refl _

/-! ## An overdue lease is kept -/

/-- A rewrite that keeps the lease, if it touches it at all. -/
theorem Leased.of_replaced (leased : db.Leased run expiry)
    (replaced : Table.Replaced db.runs next.runs old new)
    (keeps : old.id = run → old.activeSlotHeld = true →
      old.leaseExpiresAt = some expiry →
      new.activeSlotHeld = true ∧ new.leaseExpiresAt = some expiry) :
    next.Leased run expiry := by
  obtain ⟨row, member, rfl, held, expires⟩ := leased
  by_cases touched : row = old
  · subst touched
    obtain ⟨still, same⟩ := keeps rfl held expires
    exact ⟨new, replaced.new_mem, congrArg (fun key => key.2.1)
      replaced.sameKey, still, same⟩
  · exact ⟨row, replaced.mem_iff.mpr (.inr ⟨member, touched⟩), rfl, held,
      expires⟩

/-- Only a sweep ends an overdue lease. -/
theorem Transition.leased_kept
    (moved : Transition sha256 db clock command response next)
    (late : ∀ reading, expiry < clock reading)
    (apart : command.sweeps = false) (leased : db.Leased run expiry) :
    next.Leased run expiry := by
  have unused {row : RunRow} {worker : String} {asked : Uuid}
      {allowedTenants : List Uuid} {epoch : Int}
      (lease : row.LeasedTo db asked worker allowedTenants epoch (clock 0))
      (expires : row.leaseExpiresAt = some expiry) : False := by
    obtain ⟨later, same, after⟩ := lease_later (late 0) lease
    rw [expires, Option.some.injEq] at same
    exact ne_of_lt after same
  rcases moved.runs_cases with ⟨same, _⟩ | ⟨_, _, inserted, _⟩ |
    ⟨old, new, entries, step, recorded⟩
  · rw [Leased, same]
    exact leased
  · obtain ⟨row, member, kept⟩ := leased
    exact ⟨row, inserted.old_mem member, kept⟩
  · refine leased.of_replaced recorded.replaced fun _ held expires => ?_
    cases step with
    | leased selected _ _ => simp [selected.free] at held
    | denied selected _ => simp [selected.free] at held
    | renewed lease _ => exact (unused lease expires).elim
    | started lease _ => exact (unused lease expires).elim
    | finished lease _ _ => exact (unused lease expires).elim
    | cancelRequested => exact ⟨held, expires⟩
    | promoted _ _ => simp [Command.sweeps] at apart
    | expired _ _ _ => simp [Command.sweeps] at apart

/-! ## A sweep while a lease is overdue -/

/-- What a sweep selects does not expire after an overdue lease. -/
theorem Sound.candidate_le (sound : db.Sound) {now : Timestamp}
    (candidate : db.expiredCandidate now = some row)
    (leased : db.Leased run expiry) (late : expiry < now) :
    row.expiryRank ≤ toLex (expiry, run) := by
  obtain ⟨other, member, rfl, held, expires⟩ := leased
  have active := (sound.slots.runs other member).state.mp held
  have ordered (one other : RunRow) :
      decide (one.leaseExpiresAt.getD 0 < other.leaseExpiresAt.getD 0 ∨
        (one.leaseExpiresAt.getD 0 = other.leaseExpiresAt.getD 0 ∧
          one.id < other.id)) = true ↔
        one.expiryRank < other.expiryRank := by
    simp only [decide_eq_true_eq, RunRow.expiryRank, Prod.Lex.toLex_lt_toLex]
  have least := List.first_le RunRow.expiryRank ordered candidate
    (List.mem_filter.mpr ⟨member, by
      simp [held, active, RunRow.expired, expires, late.le]⟩)
  simpa only [RunRow.expiryRank, expires, Option.getD_some] using least

/-- A sweep finds something to reap. -/
theorem Sound.exists_reapOne (sound : db.Sound) (sha256 : Sha256)
    (valid : policy.Valid) (leased : db.Leased run expiry)
    (late : ∀ reading, expiry < clock reading) :
    ∃ result next, db.reapOne sha256 clock policy =
      .ok (some result, next) := by
  have accepted : (1 ≤ policy.maxAttempts ∧ policy.maxAttempts ≤ 3) ∧
      (1 ≤ policy.maxPendingGlobal ∧ policy.maxPendingGlobal ≤ 1000) ∧
      (1 ≤ policy.maxPendingTenant ∧ policy.maxPendingTenant ≤ 100) ∧
      policy.maxPendingTenant ≤ policy.maxPendingGlobal :=
    ⟨valid.attempts, valid.global, valid.tenant, valid.ordered⟩
  simp only [reapOne, beginScheduler, Except.require_of accepted,
    Except.require_of sound.references.scheduler, Except.ok_bind_eq]
  cases waiting : (if db.queuedCount (fun _ => true) <
      policy.maxPendingGlobal then db.waitingCandidate policy else none) with
  | some row =>
      split at waiting
      next => exact sound.exists_promote waiting
      next => simp at waiting
  | none =>
      cases candidate : db.expiredCandidate (clock 0) with
      | none =>
          have drained := sound.drained waiting candidate
          obtain ⟨other, member, _, held, expires⟩ := leased
          refine absurd ⟨held, ?_⟩ (drained.slots other member)
          simp [RunRow.expired, expires, (late 0).le]
      | some row =>
          -- The lease of the candidate expired before the overdue one.
          refine sound.exists_expire candidate ?_
          have least := sound.candidate_le candidate leased (late 0)
          obtain ⟨_, _, _, overdue, _⟩ := expiredCandidate_found candidate
          unfold RunRow.expired at overdue ⊢
          cases expires : row.leaseExpiresAt with
          | none => simp [expires] at overdue
          | some sooner =>
              have before := Prod.Lex.monotone_fst _ _ least
              rw [RunRow.expiryRank, expires, Option.getD_some] at before
              exact decide_eq_true (before.trans (late 1).le)

/-- A sweep reaps the run whose lease is overdue, or one that had to be reaped
before it. -/
theorem Transition.sweep {result : Uuid × Reaped}
    (moved : Transition sha256 db clock (.reapOne policy)
      (.reaped (some result)) next) (sound : db.Sound)
    (leased : db.Leased run expiry) (late : expiry < clock 0) :
    result.1 = run ∨ next.Leased run expiry ∧
      next.delay (toLex (expiry, run)) < db.delay (toLex (expiry, run)) := by
  cases moved with
  | unchanged observed => cases observed
  | @promoted _ row _ _ _ _ _ _ _ _ waiting free recorded =>
      have leaves := db.promotionVerdict_leaves policy row
      refine .inr ⟨leased.of_replaced recorded.replaced ?_,
        delay_lt_of_replaced recorded.replaced ?_⟩
      · intro _ held
        simp [free] at held
      · simp [RunRow.delay, RunRow.ahead, RunRow.advance, RunRow.movedTo,
          waiting, free, leaves]
  | @expired _ row _ _ _ _ _ candidate _ _ _ held _ _ _ recorded =>
      by_cases here : row.id = run
      · exact .inl here
      have before : row.expiryRank < toLex (expiry, run) := by
        refine lt_of_le_of_ne (sound.candidate_le candidate leased late) ?_
        intro same
        exact here (congrArg (fun rank => (ofLex rank).2) same)
      have ahead : row.ahead (toLex (expiry, run)) = true := by
        simp [RunRow.ahead, held, before]
      refine .inr ⟨leased.of_replaced recorded.replaced fun same => ?_,
        delay_lt_of_replaced recorded.replaced ?_⟩
      · exact absurd same here
      · refine Nat.lt_of_le_of_lt (delay_le_one rfl) ?_
        simp only [RunRow.delay, ahead, if_true]
        omega

/-- A call reaps the run, or its lease stays and the delay drops by the sweeps
made. -/
theorem Sound.perform_overdue (sound : db.Sound) (sha256 : Sha256)
    (leased : db.Leased run expiry) {call : Call}
    (late : ∀ reading, expiry < call.clock reading)
    (valid : ∀ policy, call.command = .reapOne policy → policy.Valid) :
    (∃ outcome, (db.perform sha256 call).1 =
      .ok (.reaped (some (run, outcome)))) ∨
    (db.perform sha256 call).2.Sound ∧
      (db.perform sha256 call).2.Leased run expiry ∧
      (db.perform sha256 call).2.delay (toLex (expiry, run)) +
        (if call.command.sweeps = true then 1 else 0) ≤
          db.delay (toLex (expiry, run)) := by
  cases swept : call.command.sweeps with
  | false =>
      right
      rcases db.perform_cases sha256 call with
        ⟨_, _, performed⟩ | ⟨response, next, moved, performed⟩
      · rw [performed]
        exact ⟨sound, leased, le_refl _⟩
      · rw [performed]
        exact ⟨sound.transition moved, moved.leased_kept late swept leased,
          moved.delay_le late swept⟩
  | true =>
      obtain ⟨command, clock⟩ := call
      cases command with
      | reapOne policy =>
          obtain ⟨result, next, done⟩ :=
            sound.exists_reapOne sha256 (valid policy rfl) leased late
          have performed : db.perform sha256 ⟨.reapOne policy, clock⟩ =
              (.ok (.reaped (some result)), next) := by
            simp [perform, execute, done, Except.map]
          have moved := transition_of_perform performed
          rw [performed]
          rcases moved.sweep sound leased (late 0) with rfl | ⟨kept, less⟩
          · exact .inl ⟨result.2, rfl⟩
          · exact .inr ⟨sound.transition moved, kept, less⟩
      | _ => simp [Command.sweeps] at swept

/-- At most three slots can be ahead. -/
theorem Sound.delay_le (sound : db.Sound) (leased : db.Leased run expiry) :
    db.delay (toLex (expiry, run)) ≤ db.deferredCount + 6 := by
  obtain ⟨row, member, rfl, held, expires⟩ := leased
  have slots : (db.runs.rows.countP RunRow.activeSlotHeld : Int) ≤ 4 := by
    have total := sound.slots.heldTotal_eq sound.references
    rw [total]
    exact sound.slots.total
  have split : db.runs.rows.countP RunRow.activeSlotHeld =
      db.runs.rows.countP (RunRow.ahead (toLex (expiry, row.id))) +
        db.runs.rows.countP fun other => other.activeSlotHeld &&
          !other.ahead (toLex (expiry, row.id)) := by
    apply List.countP_eq_add_of_split
    intro other _
    cases taken : other.activeSlotHeld <;>
    cases sooner : decide (other.expiryRank < toLex (expiry, row.id)) <;>
    · simp [RunRow.ahead, taken, sooner]
  have itself : 0 < db.runs.rows.countP fun other =>
      other.activeSlotHeld && !other.ahead (toLex (expiry, row.id)) := by
    refine List.countP_pos_iff.mpr ⟨row, member, ?_⟩
    simp [RunRow.ahead, RunRow.expiryRank, held, expires]
  unfold delay
  omega

end Database

/-! ## Runs -/

section Execution

variable {sha256 : Sha256} {allowed permitted : Database → Call → Prop}
  {db last : Database} {history : List Event} {run : Uuid}
  {expiry : Timestamp}

/-- While nobody reaps the run its lease stays, and the delay left pays for
every sweep made. -/
theorem overdue_waits (sound : db.Sound) (leased : db.Leased run expiry)
    (continued :
      Execution (Database.perform sha256) permitted db history last)
    (late : ∀ event ∈ history, ∀ reading, expiry < event.call.clock reading)
    (valid : ∀ event ∈ history, ∀ policy,
      event.call.command = .reapOne policy → policy.Valid)
    (unreaped : ∀ event ∈ history, ¬ event.Reaps run) :
    (last.Sound ∧ last.Leased run expiry) ∧
      last.delay (toLex (expiry, run)) +
        history.countP (fun event => event.call.command.sweeps) ≤
          db.delay (toLex (expiry, run)) := by
  refine continued.rank_pays (fun db => db.Sound ∧ db.Leased run expiry)
    (fun db => db.delay (toLex (expiry, run))) _ ⟨sound, leased⟩ ?_
  rintro event member performed ⟨sound, leased⟩
  have outcome := sound.perform_overdue sha256 leased (late event member)
    (valid event member)
  rw [performed] at outcome
  rcases outcome with reaped | ⟨nextSound, nextLeased, lowered⟩
  · exact absurd reaped (unreaped event member)
  · exact ⟨⟨nextSound, nextLeased⟩, lowered⟩

/-- More sweeps than what can be ahead of the lease reap its run. -/
theorem Reachable.reaps_overdue (reached : Reachable sha256 allowed db)
    (leased : db.Leased run expiry)
    (continued :
      Execution (Database.perform sha256) permitted db history last)
    (late : ∀ event ∈ history, ∀ reading, expiry < event.call.clock reading)
    (valid : ∀ event ∈ history, ∀ policy,
      event.call.command = .reapOne policy → policy.Valid)
    (often : db.deferredCount + 6 <
      history.countP fun event => event.call.command.sweeps) :
    ∃ event ∈ history, event.Reaps run := by
  by_contra unreaped
  obtain ⟨_, paid⟩ := overdue_waits reached.sound leased continued late valid
    fun event member reaps => unreaped ⟨event, member, reaps⟩
  have bounded := reached.sound.delay_le leased
  omega

end Execution

/-! ## The sweeper of the daemon -/

theorem Database.Transition.sweeps_of_reaped {sha256 : Sha256}
    {db next : Database} {clock : Clock} {command : Command}
    {result : Option (Uuid × Reaped)}
    (moved : Transition sha256 db clock command (.reaped result) next) :
    command.sweeps = true := by
  cases moved with
  | unchanged observed =>
      cases observed
      rfl
  | promoted _ _ _ _ _ _ _ _ => rfl
  | expired _ _ _ _ _ _ _ _ _ _ => rfl

namespace Control

/-- The sweeper takes a turn. -/
def Action.sweeps (action : Action) : Bool :=
  match action with
  | .sweep => true
  | _ => false

namespace Daemon

variable {daemon : Daemon}

/-- Only the sweeper sweeps. -/
theorem sweeps_of_command {step : Step} {command : Command}
    (made : daemon.command step = some command) :
    command.sweeps = step.action.sweeps := by
  obtain ⟨action, clock⟩ := step
  cases action with
  | request request fresh =>
      simp only [Daemon.command, Option.map_eq_some_iff,
        Except.toOption_eq_some_iff] at made
      obtain ⟨call, responded, rfl⟩ := made
      obtain ⟨_, _, _, called⟩ := made_of_respond responded
      have issues := called.issues
      generalize call.command = command at issues
      cases issues <;> rfl
  | sweep =>
      obtain rfl := Option.some.inj made
      rfl
  | outside command apart =>
      obtain rfl := Option.some.inj made
      cases command <;> first | rfl | simp [Command.outside] at apart

theorem swept_of_command {step : Step} {command : Command}
    (made : daemon.command step = some command)
    (sweeps : command.sweeps = true) :
    step.action = .sweep ∧ command = .reapOne daemon.config.reapPolicy := by
  rw [sweeps_of_command made] at sweeps
  cases action : step.action with
  | sweep =>
      simp only [Daemon.command, action, Option.some.injEq] at made
      exact ⟨rfl, made.symm⟩
  | _ => simp [Action.sweeps, action] at sweeps

theorem of_storeEvent {event : Event} {inner : EffectLatch.Event}
    (stored : daemon.storeEvent event = some inner) :
    ∃ command, daemon.command event.call = some command ∧
      inner = ⟨event.before, ⟨command, event.call.clock⟩,
        (event.before.perform daemon.sha256 ⟨command, event.call.clock⟩).1,
        (event.before.perform daemon.sha256
          ⟨command, event.call.clock⟩).2⟩ := by
  simp only [storeEvent, Performed.project, call, Option.map_map,
    Option.map_eq_some_iff, Function.comp_apply] at stored
  obtain ⟨command, made, rfl⟩ := stored
  exact ⟨command, made, rfl⟩

/-- The sweeps a history makes of the store are the turns of its sweeper. -/
theorem countP_sweeps (daemon : Daemon) (history : List Event) :
    ((history.filterMap daemon.storeEvent).countP fun inner =>
        inner.call.command.sweeps) =
      history.countP fun event => event.call.action.sweeps := by
  rw [List.countP_filterMap]
  apply List.countP_congr
  intro event _
  cases made : daemon.command event.call with
  | some command =>
      rw [← sweeps_of_command made]
      simp [storeEvent, Performed.project, call, made]
  | none =>
      have idle : event.call.action.sweeps = false := by
        cases action : event.call.action with
        | sweep => simp [Daemon.command, action] at made
        | _ => rfl
      simp [storeEvent, Performed.project, call, made, idle]

end Daemon

/-- An overdue lease waits for the deferred retries and at most three other
slots: whatever else the daemon is asked and its surroundings do, the run is
reaped by one of the next turns of the sweeper, at most one for each of those
retries and seven more. -/
theorem overdue_lease_reaped {daemon : Daemon}
    {earlier history : List Daemon.Event} {db last : Database} {id : Uuid}
    {expiry : Timestamp} (run : daemon.Run earlier db)
    (leased : db.Leased id expiry)
    (continued : Execution daemon.perform (fun _ _ => True) db history last)
    (late : ∀ event ∈ history, ∀ reading, expiry < event.call.clock reading)
    (often : db.deferredCount + 6 <
      history.countP fun event => event.call.action.sweeps) :
    ∃ event ∈ history, event.call.action = .sweep ∧ ∃ outcome,
      (event.before.perform daemon.sha256
        ⟨.reapOne daemon.config.reapPolicy, event.call.clock⟩).1 =
          .ok (.reaped (some (id, outcome))) := by
  have inside := continued.project daemon.projects
  have reaped : ∃ inner ∈ history.filterMap daemon.storeEvent,
      inner.Reaps id := by
    refine run.reachable.reaps_overdue leased inside ?_ ?_ ?_
    · intro inner member
      obtain ⟨event, known, stored⟩ := List.mem_filterMap.mp member
      obtain ⟨_, _, rfl⟩ := Daemon.of_storeEvent stored
      exact late event known
    · intro inner member policy named
      obtain ⟨event, _, stored⟩ := List.mem_filterMap.mp member
      obtain ⟨_, made, rfl⟩ := Daemon.of_storeEvent stored
      obtain rfl := named
      obtain ⟨_, same⟩ := Daemon.swept_of_command made rfl
      obtain rfl := Command.reapOne.inj same
      exact daemon.bounded.reapPolicy_valid
    · rw [← daemon.countP_sweeps history] at often
      exact often
  obtain ⟨inner, member, outcome, answered⟩ := reaped
  obtain ⟨event, known, stored⟩ := List.mem_filterMap.mp member
  obtain ⟨command, made, rfl⟩ := Daemon.of_storeEvent stored
  have moved := Database.transition_of_perform (Prod.ext answered rfl)
  obtain ⟨turn, rfl⟩ := Daemon.swept_of_command made moved.sweeps_of_reaped
  exact ⟨event, known, turn, outcome, answered⟩

namespace Sample

/-- Seven turns of the sweeper after the lease of the claim expired. -/
def overdueSteps : List Step :=
  List.replicate 7 ⟨.sweep, fun _ => 2000000⟩

end Sample

theorem overdue_lease_reaped_claim :
    ∃ event ∈ (performAll Sample.daemon.perform Sample.served
        Sample.overdueSteps).1,
      event.call.action = .sweep ∧ ∃ outcome,
        (event.before.perform Sample.daemon.sha256
          ⟨.reapOne Sample.daemon.config.reapPolicy, event.call.clock⟩).1 =
            .ok (.reaped (some (20, outcome))) := by
  have leased : Sample.served.Leased 20 1000000 := by
    unfold Database.Leased
    decide +kernel
  have permitted : AllPermitted Sample.daemon.perform (fun _ _ => True)
      Sample.served Sample.overdueSteps :=
    AllPermitted.of_forall fun _ _ _ => trivial
  refine overdue_lease_reaped Sample.served_run leased
    (Execution.of_performAll permitted) ?_ (by decide +kernel)
  intro event member reading
  rw [List.eq_of_mem_replicate (call_mem_of_performAll member)]
  change (1000000 : Timestamp) < 2000000
  decide

end Control

end EffectLatch
