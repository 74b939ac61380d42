import Mathlib.Data.List.Basic

/-!
# Cleanup of runner processes

Each invocation reserves a permit before it spawns a runner.  A runner that
does not exit in time goes to the reaper thread with its permit.  The
surroundings choose whose step comes next, which system calls fail and when a
process exits.
-/

namespace EffectLatch

namespace Cleanup

def reaperCapacity : Nat := 8

/-- A `ReapPermit`.  Its number tells which reservation it stands for, and is
not in the program. -/
abbrev ReapPermit := Nat

/-- What `try_wait` answers: a status, none yet, or an error. -/
inductive WaitReply where
  | exited
  | running
  | failed
deriving DecidableEq

/-- A child process handle, which keeps the exit status it has seen. -/
structure Child where
  reaped : Bool
deriving DecidableEq

/-- `Child::try_wait`, with what the operating system would answer. -/
def Child.tryWait (child : Child) (reply : WaitReply) : WaitReply × Child :=
  if child.reaped then (.exited, child)
  else (reply, ⟨decide (reply = .exited)⟩)

structure ReapJob where
  child : Child
  permit : ReapPermit
deriving DecidableEq

structure RunnerChild where
  child : Option Child
  armed : Bool
  permit : Option ReapPermit
deriving DecidableEq

/-- What would bring the whole process down. -/
inductive Fault where
  | permitMissing
  | reaperMissing
  | reaperFull
deriving DecidableEq

/-- The update of `ReapPermit::reserve`. -/
def reserve (liveRunners : UInt64) : Option UInt64 :=
  if liveRunners.toNat < reaperCapacity then some (liveRunners + 1) else none

namespace RunnerChild

/-- `RunnerChild::kill_tree` up to `queue_reap`: the job to queue, if any. -/
def killTree (runner : RunnerChild) (reply : WaitReply) :
    Except Fault (RunnerChild × Option ReapJob) :=
  match runner.child with
  | none => .ok (runner, none)
  | some child =>
      let (answer, child) := child.tryWait reply
      if answer = .exited then .ok ({ runner with child := none }, none)
      else
        match runner.permit with
        | none => .error .permitMissing
        | some permit =>
            .ok ({ runner with child := none, permit := none },
              some ⟨child, permit⟩)

/-- One poll of `RunnerChild::wait_bounded`. -/
def poll (runner : RunnerChild) (reply : WaitReply) : RunnerChild :=
  { runner with child := runner.child.map fun child => (child.tryWait reply).2 }

/-- `RunnerChild::disarm`, with whether the group could be killed. -/
def disarm (runner : RunnerChild) (groupKilled : Bool) : RunnerChild :=
  if runner.child.isSome && groupKilled then { runner with armed := false }
  else runner

end RunnerChild

/-- `queue_reap`. -/
def queueReap (sender : Option Bool) (queue : List ReapJob) (job : ReapJob) :
    Except Fault (List ReapJob) :=
  if sender ≠ some true then .error .reaperMissing
  else if queue.length < reaperCapacity then .ok (queue ++ [job])
  else .error .reaperFull

/-- Where one call of `Supervisor::run` is. -/
inductive Invocation where
  | ready
  | spawning (permit : ReapPermit)
  | supervising (runner : RunnerChild)
  /-- Inside `kill_tree`, and inside `drop` when `dropping`. -/
  | queueing (runner : RunnerChild) (job : ReapJob) (dropping : Bool)
  /-- Behind `drop`, with the fields still to be dropped. -/
  | dropping (runner : RunnerChild)
  | finished
deriving DecidableEq

/-- The reaper's jobs.  A sweep moves those whose child still runs from
`unchecked` to `checked`. -/
structure Reaper where
  checked : List ReapJob
  unchecked : List ReapJob
deriving DecidableEq

def Reaper.active (reaper : Reaper) : List ReapJob :=
  reaper.checked ++ reaper.unchecked

structure System where
  /-- `LIVE_RUNNERS`. -/
  liveRunners : UInt64
  /-- `REAPER`: whether the thread could be started. -/
  sender : Option Bool
  invocations : List Invocation
  queue : List ReapJob
  reaper : Reaper
  /-- The permits reserved so far and those dropped so far, latest first. -/
  reserved : Nat
  released : List ReapPermit
deriving DecidableEq

/-- One step of an invocation or of the reaper thread. -/
inductive Action where
  | invoke
  | reserve (index : Nat) (started : Bool)
  | spawn (index : Nat) (succeeded : Bool)
  | poll (index : Nat) (reply : WaitReply)
  | killTree (index : Nat) (reply : WaitReply)
  | disarm (index : Nat) (groupKilled : Bool)
  | drop (index : Nat) (reply : WaitReply)
  | trySend (index : Nat)
  | dropFields (index : Nat)
  | receive
  | sweep
  | check (reply : WaitReply)
deriving DecidableEq

namespace System

def initial : System where
  liveRunners := 0
  sender := none
  invocations := []
  queue := []
  reaper := ⟨[], []⟩
  reserved := 0
  released := []

/-- `Drop for ReapPermit`. -/
def dropPermit (system : System) (permit : ReapPermit) : System :=
  { system with
    liveRunners := system.liveRunners - 1
    released := permit :: system.released }

def setInvocation (system : System) (index : Nat) (invocation : Invocation) :
    System :=
  { system with invocations := system.invocations.set index invocation }

/-- `reaper_sender()?` and `ReapPermit::reserve()?` of `RunnerChild::spawn`. -/
def reservePermit (system : System) (index : Nat) (started : Bool) : System :=
  let sender := system.sender.getD started
  let asked := { system with sender := some sender }
  match if sender then reserve system.liveRunners else none with
  | some liveRunners =>
      { asked with
        liveRunners := liveRunners
        reserved := system.reserved + 1 }.setInvocation index
          (.spawning system.reserved)
  | none => asked.setInvocation index .finished

/-- The rest of `RunnerChild::spawn`. -/
def spawnRunner (system : System) (index : Nat) (permit : ReapPermit)
    (succeeded : Bool) : System :=
  if succeeded then
    system.setInvocation index
      (.supervising ⟨some ⟨false⟩, true, some permit⟩)
  else (system.dropPermit permit).setInvocation index .finished

/-- `kill_tree`, after which the runner is supervised or dropped. -/
def killTree (system : System) (index : Nat) (runner : RunnerChild)
    (reply : WaitReply) (dropping : Bool) : Except Fault System := do
  let (killed, job) ← runner.killTree reply
  match job with
  | some job =>
      pure (system.setInvocation index (.queueing killed job dropping))
  | none =>
      pure (system.setInvocation index
        (if dropping then .dropping killed else .supervising killed))

/-- The fields of a `RunnerChild` are dropped. -/
def dropFields (system : System) (index : Nat) (runner : RunnerChild) :
    System :=
  match runner.permit with
  | some permit => (system.dropPermit permit).setInvocation index .finished
  | none => system.setInvocation index .finished

/-- The reaper receives a job and begins a sweep with it. -/
def receive (system : System) : System :=
  match system.queue with
  | job :: rest =>
      if system.reaper.unchecked = [] ∧
          system.reaper.checked.length < reaperCapacity then
        { system with
          queue := rest
          reaper := ⟨[], system.reaper.checked ++ [job]⟩ }
      else system
  | [] => system

/-- The reaper waited without a job and begins a sweep. -/
def sweep (system : System) : System :=
  if system.reaper.unchecked = [] then
    { system with reaper := ⟨[], system.reaper.checked⟩ }
  else system

/-- One element of the sweep's `retain_mut`. -/
def check (system : System) (reply : WaitReply) : System :=
  match system.reaper.unchecked with
  | job :: rest =>
      let (answer, child) := job.child.tryWait reply
      if answer = .exited then
        { system with
          reaper := ⟨system.reaper.checked, rest⟩ }.dropPermit job.permit
      else
        { system with
          reaper :=
            ⟨system.reaper.checked ++ [{ job with child := child }], rest⟩ }
  | [] => system

/-- One step.  A step its thread is not at changes nothing. -/
def step (system : System) : Action → Except Fault System
  | .invoke =>
      .ok { system with invocations := system.invocations ++ [.ready] }
  | .reserve index started =>
      match system.invocations[index]? with
      | some .ready => .ok (system.reservePermit index started)
      | _ => .ok system
  | .spawn index succeeded =>
      match system.invocations[index]? with
      | some (.spawning permit) =>
          .ok (system.spawnRunner index permit succeeded)
      | _ => .ok system
  | .poll index reply =>
      match system.invocations[index]? with
      | some (.supervising runner) =>
          .ok (system.setInvocation index (.supervising (runner.poll reply)))
      | _ => .ok system
  | .killTree index reply =>
      match system.invocations[index]? with
      | some (.supervising runner) => system.killTree index runner reply false
      | _ => .ok system
  | .disarm index groupKilled =>
      match system.invocations[index]? with
      | some (.supervising runner) =>
          .ok (system.setInvocation index
            (.supervising (runner.disarm groupKilled)))
      | _ => .ok system
  | .drop index reply =>
      match system.invocations[index]? with
      | some (.supervising runner) =>
          if runner.armed then system.killTree index runner reply true
          else .ok (system.setInvocation index (.dropping runner))
      | _ => .ok system
  | .trySend index =>
      match system.invocations[index]? with
      | some (.queueing runner job dropping) => do
          let queue ← queueReap system.sender system.queue job
          pure ({ system with queue := queue }.setInvocation index
            (if dropping then .dropping runner else .supervising runner))
      | _ => .ok system
  | .dropFields index =>
      match system.invocations[index]? with
      | some (.dropping runner) => .ok (system.dropFields index runner)
      | _ => .ok system
  | .receive => .ok system.receive
  | .sweep => .ok system.sweep
  | .check reply => .ok (system.check reply)

/-- Steps one after the other, until a fault. -/
def run (actions : List Action) : Except Fault System :=
  actions.foldlM step initial

end System

end Cleanup

end EffectLatch
