import EffectLatch.RunRowSteps

/-!
# Lease logs

What a history says about one run: when it was leased to whom, when it was
reaped and when it was finished.  The lease log is a ghost record; the columns
of the run agree with it in every reachable state.
-/

namespace EffectLatch

inductive LeaseEvent where
  | claimed (worker : String) (epoch : Int)
  | reaped
  | finished
deriving DecidableEq

/-- The epoch a claim gave out. -/
def LeaseEvent.epoch (event : LeaseEvent) : Option Int :=
  match event with
  | claimed _ epoch => some epoch
  | reaped => none
  | finished => none

/-- The run a successful call took or released, if any. -/
def Command.leaseEvent (command : Command) (response : Response) :
    Option (Uuid × LeaseEvent) :=
  match command, response with
  | .claimRun worker _ _ _, .lease (some lease) =>
      some (lease.run, .claimed worker lease.epoch)
  | .reapOne _, .reaped (some (run, _)) => some (run, .reaped)
  | .finishRun run _ _ _ _ _, .finished _ => some (run, .finished)
  | _, _ => none

/-- What a performed call did to the lease of one run. -/
def Event.leaseEvent (run : Uuid) (event : Event) : Option LeaseEvent :=
  match event.outcome with
  | .ok response =>
      (event.call.command.leaseEvent response).bind fun entry =>
        if entry.1 = run then some entry.2 else none
  | .error _ => none

def leaseLog (run : Uuid) (history : List Event) : List LeaseEvent :=
  history.filterMap (Event.leaseEvent run)

/-- The columns of a run agree with its lease log. -/
structure RunRow.AgreesWith (row : RunRow) (maxAttempts : Nat)
    (log : List LeaseEvent) : Prop where
  epochs : log.filterMap LeaseEvent.epoch =
    (List.range row.attempt.toNat).map fun index : Nat => (index : Int) + 1
  epochEq : row.leaseEpoch = row.attempt
  nonneg : 0 ≤ row.attempt
  bounded : row.attempt ≤ maxAttempts
  strict : row.state = .queued ∨ row.state = .retryWait →
    row.attempt < maxAttempts
  current : row.activeSlotHeld = true → ∃ worker,
    row.leaseOwner = some worker ∧
      log.getLast? = some (.claimed worker row.leaseEpoch)
  once : log.count .finished ≤ 1
  settled : .finished ∈ log → row.state.terminal = true

namespace RunRow.AgreesWith

variable {row new : RunRow} {maxAttempts : Nat} {log : List LeaseEvent}

/-- A rewrite that keeps attempt and epoch, neither takes a slot nor leaves a
final state, and goes to a waiting state only with an attempt left. -/
theorem keep (agrees : row.AgreesWith maxAttempts log)
    (attempt : new.attempt = row.attempt)
    (epoch : new.leaseEpoch = row.leaseEpoch)
    (slot : new.activeSlotHeld = true →
      row.activeSlotHeld = true ∧ new.leaseOwner = row.leaseOwner)
    (waits : new.state = .queued ∨ new.state = .retryWait →
      row.attempt < maxAttempts)
    (stays : row.state.terminal = true → new.state.terminal = true) :
    new.AgreesWith maxAttempts log where
  epochs := by rw [attempt, agrees.epochs]
  epochEq := by rw [attempt, epoch, agrees.epochEq]
  nonneg := attempt ▸ agrees.nonneg
  bounded := attempt ▸ agrees.bounded
  strict waiting := attempt ▸ waits waiting
  current held := by
    obtain ⟨before, owner⟩ := slot held
    rw [owner, epoch]
    exact agrees.current before
  once := agrees.once
  settled member := stays (agrees.settled member)

/-- Reaping a run that then holds no slot. -/
theorem reap (agrees : row.AgreesWith maxAttempts log)
    (attempt : new.attempt = row.attempt)
    (epoch : new.leaseEpoch = row.leaseEpoch)
    (free : new.activeSlotHeld = false)
    (waits : new.state = .queued ∨ new.state = .retryWait →
      row.attempt < maxAttempts)
    (unsettled : row.state.terminal = false) :
    new.AgreesWith maxAttempts (log ++ [.reaped]) where
  epochs := by
    rw [attempt, List.filterMap_append, agrees.epochs]
    simp [LeaseEvent.epoch]
  epochEq := by rw [attempt, epoch, agrees.epochEq]
  nonneg := attempt ▸ agrees.nonneg
  bounded := attempt ▸ agrees.bounded
  strict waiting := attempt ▸ waits waiting
  current held := by simp [free] at held
  once := by simpa [List.count_append] using agrees.once
  settled member := by
    have earlier : .finished ∈ log := by simpa using member
    simp [agrees.settled earlier] at unsettled

theorem claim {worker : String} {expiresAt now : Timestamp}
    (agrees : row.AgreesWith maxAttempts log)
    (left : row.attempt < maxAttempts) (queued : row.state = .queued) :
    (row.leasedBy worker expiresAt now).AgreesWith maxAttempts
      (log ++ [.claimed worker (row.leaseEpoch + 1)]) where
  epochs := by
    have grown : (row.attempt + 1).toNat = row.attempt.toNat + 1 := by
      have := agrees.nonneg
      omega
    have current : ((row.attempt.toNat : Nat) : Int) = row.attempt :=
      Int.toNat_of_nonneg agrees.nonneg
    simp only [leasedBy]
    rw [List.filterMap_append, agrees.epochs, grown, List.range_succ,
      List.map_append]
    simp [LeaseEvent.epoch, agrees.epochEq, current]
  epochEq := by simp [leasedBy, agrees.epochEq]
  nonneg := by
    have := agrees.nonneg
    simp only [leasedBy]
    omega
  bounded := by
    simp only [leasedBy]
    omega
  strict waiting := by simp [leasedBy] at waiting
  current _ := ⟨worker, rfl, by simp [leasedBy]⟩
  once := by simpa [List.count_append] using agrees.once
  settled member := by
    have earlier : .finished ∈ log := by simpa using member
    have ended := agrees.settled earlier
    rw [queued] at ended
    exact absurd ended (by decide)

theorem finish {state : RunState} {output : Option (List UInt8)}
    {errorCode : Option String} {now : Timestamp}
    (agrees : row.AgreesWith maxAttempts log) (running : row.state = .running)
    (final : state = .cancelled ∨ state = .failed ∨ state = .succeeded) :
    (row.finishedAs state output errorCode now).AgreesWith maxAttempts
      (log ++ [.finished]) where
  epochs := by
    rw [List.filterMap_append, agrees.epochs]
    simp [LeaseEvent.epoch, finishedAs]
  epochEq := agrees.epochEq
  nonneg := agrees.nonneg
  bounded := agrees.bounded
  strict waiting := by
    rcases final with rfl | rfl | rfl <;> simp [finishedAs] at waiting
  current held := by simp [finishedAs] at held
  once := by
    have fresh : .finished ∉ log := by
      intro member
      have ended := agrees.settled member
      rw [running] at ended
      exact absurd ended (by decide)
    rw [List.count_append, List.count_eq_zero_of_not_mem fresh]
    simp
  settled _ := by
    rcases final with rfl | rfl | rfl <;> rfl

/-- Moving the event head changes nothing the log speaks of. -/
theorem advance (agrees : row.AgreesWith maxAttempts log) (sha256 : Sha256)
    (entries : List (String × List UInt8)) :
    (row.advance sha256 entries).AgreesWith maxAttempts log :=
  ⟨agrees.epochs, agrees.epochEq, agrees.nonneg, agrees.bounded, agrees.strict,
    agrees.current, agrees.once, agrees.settled⟩

end RunRow.AgreesWith

end EffectLatch
