import Mathlib.Logic.Basic

/-!
# Run and effect state machines

The specification state machines of the domain crate.  The store never calls
`RunState.transition`: that its statements stay within it is a theorem.
-/

namespace EffectLatch

inductive RunState where
  | queued
  | retryWait
  | leased
  | running
  | succeeded
  | failed
  | cancelled
  | needsReconciliation
deriving DecidableEq

inductive EffectState where
  | prepared
  | dispatching
  | committed
  | definitelyFailed
  | outcomeUnknown
deriving DecidableEq

structure InvalidTransition where
deriving DecidableEq

namespace EffectState

def unresolved (state : EffectState) : Bool :=
  match state with
  | dispatching | outcomeUnknown => true
  | _ => false

/-- Unknown outcomes require explicit evidence or an eligible idempotent
retry. -/
def transition (state target : EffectState)
    (evidencedResolution eligibleRetry : Bool) :
    Except InvalidTransition EffectState :=
  let allowed :=
    (match state, target with
      | prepared, dispatching => true
      | dispatching, committed | dispatching, definitelyFailed
      | dispatching, outcomeUnknown => true
      | _, _ => false) ||
    (state == outcomeUnknown &&
      ((evidencedResolution && (target == committed || target == definitelyFailed)) ||
        (eligibleRetry && target == dispatching)))
  if allowed then .ok target else .error ⟨⟩

/-- An effect becomes unresolved only by dispatch or from an unresolved
state. -/
theorem of_transition_unresolved {state target : EffectState}
    {evidencedResolution eligibleRetry : Bool}
    (allowed : state.transition target evidencedResolution eligibleRetry =
      .ok target) (unresolvedThen : target.unresolved = true) :
    target = .dispatching ∨ state.unresolved = true := by
  cases target with
  | dispatching => exact .inl rfl
  | outcomeUnknown =>
      cases state with
      | dispatching => exact .inr rfl
      | outcomeUnknown => exact .inr rfl
      | _ => cases allowed
  | _ => cases unresolvedThen

/-- The text the `state` column holds. -/
def text (state : EffectState) : String :=
  match state with
  | prepared => "PREPARED"
  | dispatching => "DISPATCHING"
  | committed => "COMMITTED"
  | definitelyFailed => "DEFINITELY_FAILED"
  | outcomeUnknown => "OUTCOME_UNKNOWN"

end EffectState

namespace RunState

def terminal (state : RunState) : Bool :=
  match state with
  | succeeded | failed | cancelled => true
  | _ => false

def transition (state target : RunState) (unresolved explicitResume : Bool) :
    Except InvalidTransition RunState :=
  if unresolved &&
      (match target with
        | succeeded | cancelled | queued | retryWait | failed => true
        | _ => false) then
    .error ⟨⟩
  else
    let allowed :=
      (match state, target with
        | queued, leased | queued, cancelled | queued, failed => true
        | leased, running | leased, queued | leased, retryWait
        | leased, cancelled | leased, failed
        | leased, needsReconciliation => true
        | running, succeeded | running, failed | running, cancelled
        | running, queued | running, retryWait
        | running, needsReconciliation => true
        | retryWait, queued | retryWait, cancelled | retryWait, failed
        | retryWait, needsReconciliation => true
        | needsReconciliation, failed => true
        | _, _ => false) ||
      (state == needsReconciliation && target == queued && explicitResume)
    if allowed then .ok target else .error ⟨⟩

/-- With an unresolved effect a run can only be leased, run or be set aside. -/
theorem of_transition_unresolved {state target : RunState}
    (allowed : state.transition target true false = .ok target) :
    target = .leased ∨ target = .running ∨ target = .needsReconciliation := by
  cases target with
  | leased => exact .inl rfl
  | running => exact .inr (.inl rfl)
  | needsReconciliation => exact .inr (.inr rfl)
  | _ => cases allowed

/-- The text the `state` column holds. -/
def text (state : RunState) : String :=
  match state with
  | queued => "queued"
  | retryWait => "retry_wait"
  | leased => "leased"
  | running => "running"
  | succeeded => "succeeded"
  | failed => "failed"
  | cancelled => "cancelled"
  | needsReconciliation => "needs_reconciliation"

end RunState

end EffectLatch
