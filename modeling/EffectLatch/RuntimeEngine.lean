import EffectLatch.DomainRuns

/-!
# Invocations of one engine

Calls of `execute` share a `BoundedEngine`.  Each enters behind the flag
`active`, and a watchdog thread of its own advances the engine's epoch when its
wall time is over.  The surroundings choose whose step comes next, what the
guest does, which calls into Wasmtime fail and how fast the clock goes.
-/

namespace EffectLatch

namespace Engine

/-- Whether a Wasm error is the interrupt at an epoch deadline. -/
inductive Trap where
  | interrupt
  | other
deriving DecidableEq

inductive RuntimeError where
  | limits (error : ConfigError)
  | wasmtime (trap : Trap)
  | watchdog
  | concurrentRun
deriving DecidableEq

/-- Where the thread of an `EpochWatchdog` is. -/
inductive WatchdogThread where
  | spawned
  /-- In `recv_timeout`, at least until the clock shows `limit`. -/
  | receiving (limit : Nat)
  /-- Behind a `recv_timeout` without a message. -/
  | elapsed
  /-- Ended, after `increment_epoch` when `fired`. -/
  | ended (fired : Bool)
deriving DecidableEq

structure EpochWatchdog where
  wallMs : UInt64
  /-- The clock when the thread was spawned, which is not in the program. -/
  spawnedAt : Nat
  /-- Whether the message of `stop` was sent. -/
  stopped : Bool
  thread : WatchdogThread
deriving DecidableEq

/-- `EpochWatchdog::start`, whose thread did nothing yet. -/
def EpochWatchdog.start (wallMs : UInt64) (clock : Nat) : EpochWatchdog where
  wallMs := wallMs
  spawnedAt := clock
  stopped := false
  thread := .spawned

/-- Where one call of `execute` is.  Watchdogs are known by their number. -/
inductive Invocation where
  | called (requested operatorCaps : Limits)
  | entered (requested operatorCaps : Limits)
  /-- Behind `new_store`, which set the epoch deadline. -/
  | stored (limits : Limits) (deadline : Nat)
  | linked (limits : Limits) (deadline : Nat)
  | watched (limits : Limits) (deadline watchdog : Nat)
  | running (limits : Limits) (deadline watchdog : Nat)
  /-- About to drop the watchdog. -/
  | stopping (result : Except RuntimeError Int32) (watchdog : Nat)
  /-- Inside `join` of `Drop for EpochWatchdog`. -/
  | joining (result : Except RuntimeError Int32) (watchdog : Nat)
  /-- About to drop the `ActiveGuard`. -/
  | leaving (result : Except RuntimeError Int32)
  | returned (result : Except RuntimeError Int32)

/-- A `BoundedEngine` with the calls of `execute` and their threads. -/
structure System where
  active : Bool
  epoch : Nat
  /-- Milliseconds that have passed. -/
  clock : Nat
  invocations : List Invocation
  watchdogs : List EpochWatchdog

/-- One step of an invocation, of a watchdog thread or of the clock. -/
inductive Action where
  | invoke (requested operatorCaps : Limits)
  | enter (index : Nat)
  | newStore (index : Nat) (fueled : Bool)
  | configureImports (index : Nat) (configured : Except RuntimeError Unit)
  | startWatchdog (index : Nat) (spawned : Bool)
  | instantiate (index : Nat) (succeeded : Bool)
  | checkEpoch (index : Nat)
  | finish (index : Nat) (result : Option Int32)
  | stop (index : Nat)
  | join (index : Nat)
  | leave (index : Nat)
  | receive (watchdog : Nat)
  | message (watchdog : Nat)
  | elapse (watchdog : Nat)
  | incrementEpoch (watchdog : Nat)
  | tick (elapsed : Nat)

namespace System

def initial : System where
  active := false
  epoch := 0
  clock := 0
  invocations := []
  watchdogs := []

def setInvocation (system : System) (index : Nat) (invocation : Invocation) :
    System :=
  { system with invocations := system.invocations.set index invocation }

def setWatchdog (system : System) (number : Nat) (watchdog : EpochWatchdog) :
    System :=
  { system with watchdogs := system.watchdogs.set number watchdog }

/-- The `compare_exchange` of `execute`. -/
def enter (system : System) (index : Nat) (requested operatorCaps : Limits) :
    System :=
  if system.active then
    system.setInvocation index (.returned (.error .concurrentRun))
  else
    { system with active := true }.setInvocation index
      (.entered requested operatorCaps)

/-- `BoundedEngine::new_store`, with whether the fuel could be set. -/
def newStore (system : System) (index : Nat) (requested operatorCaps : Limits)
    (fueled : Bool) : System :=
  match requested.validate operatorCaps with
  | .error error =>
      system.setInvocation index (.leaving (.error (.limits error)))
  | .ok limits =>
      system.setInvocation index
        (if fueled then .stored limits (system.epoch + 1)
        else .leaving (.error (.wasmtime .other)))

def configureImports (system : System) (index : Nat) (limits : Limits)
    (deadline : Nat) (configured : Except RuntimeError Unit) : System :=
  system.setInvocation index
    (match configured with
    | .ok () => .linked limits deadline
    | .error error => .leaving (.error error))

/-- The call of `EpochWatchdog::start`, with whether a thread was spawned. -/
def startWatchdog (system : System) (index : Nat) (limits : Limits)
    (deadline : Nat) (spawned : Bool) : System :=
  if spawned then
    { system with
      watchdogs := system.watchdogs ++
        [EpochWatchdog.start limits.wallMs system.clock] }.setInvocation index
          (.watched limits deadline system.watchdogs.length)
  else system.setInvocation index (.leaving (.error .watchdog))

/-- `instantiate` and `get_typed_func`. -/
def instantiate (system : System) (index : Nat) (limits : Limits)
    (deadline watchdog : Nat) (succeeded : Bool) : System :=
  system.setInvocation index
    (if succeeded then .running limits deadline watchdog
    else .stopping (.error (.wasmtime .other)) watchdog)

/-- The guest compares the epoch with its deadline and traps behind it. -/
def checkEpoch (system : System) (index : Nat) (limits : Limits)
    (deadline watchdog : Nat) : System :=
  system.setInvocation index
    (if deadline ≤ system.epoch then
      .stopping (.error (.wasmtime .interrupt)) watchdog
    else .running limits deadline watchdog)

/-- The guest returns or traps otherwise. -/
def finish (system : System) (index watchdog : Nat) (result : Option Int32) :
    System :=
  system.setInvocation index
    (.stopping
      (match result with
      | some code => .ok code
      | none => .error (.wasmtime .other)) watchdog)

/-- `Drop for EpochWatchdog` up to `join`. -/
def stop (system : System) (index : Nat)
    (result : Except RuntimeError Int32) (number : Nat) : System :=
  match system.watchdogs[number]? with
  | some watchdog =>
      (system.setWatchdog number
        { watchdog with stopped := true }).setInvocation index
          (.joining result number)
  | none => system.setInvocation index (.joining result number)

/-- `join`, which waits for the thread to end. -/
def join (system : System) (index : Nat)
    (result : Except RuntimeError Int32) (number : Nat) : System :=
  match system.watchdogs[number]? with
  | some ⟨_, _, _, .ended _⟩ => system.setInvocation index (.leaving result)
  | _ => system

/-- `Drop for ActiveGuard`. -/
def leave (system : System) (index : Nat)
    (result : Except RuntimeError Int32) : System :=
  { system with active := false }.setInvocation index (.returned result)

/-- A watchdog's thread gets to `recv_timeout`. -/
def receive (system : System) (number : Nat) (watchdog : EpochWatchdog) :
    System :=
  match watchdog.thread with
  | .spawned =>
      system.setWatchdog number
        { watchdog with
          thread := .receiving (system.clock + watchdog.wallMs.toNat) }
  | _ => system

/-- `recv_timeout` returns with the message. -/
def message (system : System) (number : Nat) (watchdog : EpochWatchdog) :
    System :=
  match watchdog.thread with
  | .receiving _ =>
      if watchdog.stopped then
        system.setWatchdog number { watchdog with thread := .ended false }
      else system
  | _ => system

/-- `recv_timeout` returns without a message.  One sent in the last moment may
be missed. -/
def elapse (system : System) (number : Nat) (watchdog : EpochWatchdog) :
    System :=
  match watchdog.thread with
  | .receiving limit =>
      if limit ≤ system.clock then
        system.setWatchdog number { watchdog with thread := .elapsed }
      else system
  | _ => system

def incrementEpoch (system : System) (number : Nat)
    (watchdog : EpochWatchdog) : System :=
  match watchdog.thread with
  | .elapsed =>
      { system with epoch := system.epoch + 1 }.setWatchdog number
        { watchdog with thread := .ended true }
  | _ => system

/-- One step.  A step its thread is not at changes nothing. -/
def step (system : System) : Action → System
  | .invoke requested operatorCaps =>
      { system with
        invocations :=
          system.invocations ++ [.called requested operatorCaps] }
  | .enter index =>
      match system.invocations[index]? with
      | some (.called requested operatorCaps) =>
          system.enter index requested operatorCaps
      | _ => system
  | .newStore index fueled =>
      match system.invocations[index]? with
      | some (.entered requested operatorCaps) =>
          system.newStore index requested operatorCaps fueled
      | _ => system
  | .configureImports index configured =>
      match system.invocations[index]? with
      | some (.stored limits deadline) =>
          system.configureImports index limits deadline configured
      | _ => system
  | .startWatchdog index spawned =>
      match system.invocations[index]? with
      | some (.linked limits deadline) =>
          system.startWatchdog index limits deadline spawned
      | _ => system
  | .instantiate index succeeded =>
      match system.invocations[index]? with
      | some (.watched limits deadline watchdog) =>
          system.instantiate index limits deadline watchdog succeeded
      | _ => system
  | .checkEpoch index =>
      match system.invocations[index]? with
      | some (.running limits deadline watchdog) =>
          system.checkEpoch index limits deadline watchdog
      | _ => system
  | .finish index result =>
      match system.invocations[index]? with
      | some (.running _ _ watchdog) => system.finish index watchdog result
      | _ => system
  | .stop index =>
      match system.invocations[index]? with
      | some (.stopping result watchdog) => system.stop index result watchdog
      | _ => system
  | .join index =>
      match system.invocations[index]? with
      | some (.joining result watchdog) => system.join index result watchdog
      | _ => system
  | .leave index =>
      match system.invocations[index]? with
      | some (.leaving result) => system.leave index result
      | _ => system
  | .receive number =>
      match system.watchdogs[number]? with
      | some watchdog => system.receive number watchdog
      | none => system
  | .message number =>
      match system.watchdogs[number]? with
      | some watchdog => system.message number watchdog
      | none => system
  | .elapse number =>
      match system.watchdogs[number]? with
      | some watchdog => system.elapse number watchdog
      | none => system
  | .incrementEpoch number =>
      match system.watchdogs[number]? with
      | some watchdog => system.incrementEpoch number watchdog
      | none => system
  | .tick elapsed => { system with clock := system.clock + elapsed }

/-- Steps one after the other. -/
def run (system : System) (actions : List Action) : System :=
  actions.foldl step system

end System

end Engine

end EffectLatch
