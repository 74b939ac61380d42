import Mathlib.Data.List.Basic

/-!
# The control listener

`serve` spawns a task for each connection until it is told to stop or `accept`
fails, and joins the tasks that ended; then it drains what is left for a bounded
time and aborts the rest.  The surroundings choose which branch a `select!`
takes, how each connection goes and how fast the clock does.
-/

namespace EffectLatch

namespace Control

namespace Server

/-- A task that panicked or was aborted. -/
structure JoinError where
deriving DecidableEq

/-- The source counts in `u64`.  Each counter is at most the number of accepted
connections, so the two differ only after `2 ^ 64` of them. -/
structure ConnectionStats where
  completed : Nat
  protocolErrors : Nat
  deadlineExceeded : Nat
  taskFailures : Nat
  abortedOnShutdown : Nat
deriving DecidableEq

def ConnectionStats.default : ConnectionStats where
  completed := 0
  protocolErrors := 0
  deadlineExceeded := 0
  taskFailures := 0
  abortedOnShutdown := 0

def record (stats : ConnectionStats) (result : Except JoinError UInt8) :
    ConnectionStats :=
  match result with
  | .ok code =>
      if code = 0 then { stats with completed := stats.completed + 1 }
      else if code = 1 then
        { stats with protocolErrors := stats.protocolErrors + 1 }
      else { stats with deadlineExceeded := stats.deadlineExceeded + 1 }
  | .error _ => { stats with taskFailures := stats.taskFailures + 1 }

/-- How far the task of a connection got. -/
inductive Progress where
  | spawned
  /-- In `serve_connection`, with the time its `timeout` is over. -/
  | serving (limit : Nat)
  | ended (result : Except JoinError UInt8)
deriving DecidableEq

namespace Progress

/-- The first poll, which starts the clock of fifteen seconds. -/
def begin (clock : Nat) (progress : Progress) : Option Progress :=
  match progress with
  | spawned => some (serving (clock + 15000))
  | _ => none

/-- `serve_connection` returns, with or without an error. -/
def serve (clean : Bool) (progress : Progress) : Option Progress :=
  match progress with
  | serving _ => some (ended (.ok (if clean then 0 else 1)))
  | _ => none

def panics (progress : Progress) : Option Progress :=
  match progress with
  | serving _ => some (ended (.error ⟨⟩))
  | _ => none

def expire (clock : Nat) (progress : Progress) : Option Progress :=
  match progress with
  | serving limit =>
      if limit ≤ clock then some (ended (.ok 2)) else none
  | _ => none

/-- The task stops at an `await` behind `abort_all`. -/
def abort (progress : Progress) : Option Progress :=
  match progress with
  | ended _ => none
  | _ => some (ended (.error ⟨⟩))

end Progress

structure Task where
  /-- Its number among those accepted, which is not in the program. -/
  connection : Nat
  progress : Progress
deriving DecidableEq

/-- Where `serve` is. -/
inductive Phase (IoError : Type) where
  | accepting
  /-- In the `timeout` around `drain`, with the time it is over. -/
  | draining (acceptError : Option IoError) (limit : Nat)
  /-- Behind `abort_all`. -/
  | aborting (acceptError : Option IoError)
  | returned (result : Except IoError ConnectionStats)
deriving DecidableEq

/-- A connection whose task was joined, what it gave and whether that was
recorded. -/
structure Joined where
  connection : Nat
  result : Except JoinError UInt8
  recorded : Bool
deriving DecidableEq

structure Listener (IoError : Type) where
  phase : Phase IoError
  tasks : List Task
  stats : ConnectionStats
  /-- Milliseconds that have passed. -/
  clock : Nat
  /-- The connections accepted, which are not counted in the program. -/
  accepted : Nat
  /-- The joined tasks, latest first, which the program does not keep. -/
  joined : List Joined
deriving DecidableEq

/-- One step of `serve`, of a task or of the clock. -/
inductive Action (IoError : Type) where
  | accept
  | acceptFails (error : IoError)
  | shutdown
  | begin (index : Nat)
  | serve (index : Nat) (clean : Bool)
  | panics (index : Nat)
  | expire (index : Nat)
  | join (index : Nat)
  | drained
  | drainExpires
  | abort (index : Nat)
  | aborted
  | tick (elapsed : Nat)

namespace Listener

variable {IoError : Type}

def initial : Listener IoError where
  phase := .accepting
  tasks := []
  stats := .default
  clock := 0
  accepted := 0
  joined := []

/-- `accept` returned a stream, or an error that ends the loop; that branch is
taken with less than 128 tasks only. -/
def accept (listener : Listener IoError) (accepted : Except IoError Unit) :
    Listener IoError :=
  match listener.phase with
  | .accepting =>
      if listener.tasks.length < 128 then
        match accepted with
        | .ok () =>
            { listener with
              tasks := listener.tasks ++ [⟨listener.accepted, .spawned⟩]
              accepted := listener.accepted + 1 }
        | .error error =>
            { listener with
              phase := .draining (some error) (listener.clock + 3000) }
      else listener
  | _ => listener

def shutdown (listener : Listener IoError) : Listener IoError :=
  match listener.phase with
  | .accepting =>
      { listener with phase := .draining none (listener.clock + 3000) }
  | _ => listener

/-- A task moves, if it is where it can. -/
def advance (listener : Listener IoError) (index : Nat)
    (move : Progress → Option Progress) : Listener IoError :=
  match listener.tasks[index]? with
  | none => listener
  | some task =>
      match move task.progress with
      | none => listener
      | some progress =>
          { listener with
            tasks := listener.tasks.set index
              { task with progress := progress } }

/-- `join_next` gives an ended task, which is recorded up to `abort_all`. -/
def join (listener : Listener IoError) (index : Nat) : Listener IoError :=
  match listener.tasks[index]? with
  | some ⟨connection, .ended result⟩ =>
      match listener.phase with
      | .accepting | .draining _ _ =>
          { listener with
            tasks := listener.tasks.eraseIdx index
            stats := record listener.stats result
            joined := ⟨connection, result, true⟩ :: listener.joined }
      | .aborting _ =>
          { listener with
            tasks := listener.tasks.eraseIdx index
            joined := ⟨connection, result, false⟩ :: listener.joined }
      | .returned _ => listener
  | _ => listener

/-- The end of `serve`. -/
def conclude (listener : Listener IoError) (acceptError : Option IoError) :
    Listener IoError :=
  { listener with
    phase := .returned
      (match acceptError with
      | some error => .error error
      | none => .ok listener.stats) }

/-- `drain` found no more tasks. -/
def drained (listener : Listener IoError) : Listener IoError :=
  match listener.phase with
  | .draining acceptError _ =>
      if listener.tasks = [] then listener.conclude acceptError else listener
  | _ => listener

/-- The time of `drain` is over. -/
def drainExpires (listener : Listener IoError) : Listener IoError :=
  match listener.phase with
  | .draining acceptError limit =>
      if limit ≤ listener.clock then
        { listener with
          phase := .aborting acceptError
          stats :=
            { listener.stats with
              abortedOnShutdown := listener.tasks.length } }
      else listener
  | _ => listener

def abort (listener : Listener IoError) (index : Nat) : Listener IoError :=
  match listener.phase with
  | .aborting _ => listener.advance index Progress.abort
  | _ => listener

/-- The aborted tasks are all joined. -/
def aborted (listener : Listener IoError) : Listener IoError :=
  match listener.phase with
  | .aborting acceptError =>
      if listener.tasks = [] then listener.conclude acceptError else listener
  | _ => listener

/-- One step.  A step its part is not at changes nothing. -/
def step (listener : Listener IoError) : Action IoError → Listener IoError
  | .accept => listener.accept (.ok ())
  | .acceptFails error => listener.accept (.error error)
  | .shutdown => listener.shutdown
  | .begin index => listener.advance index (Progress.begin listener.clock)
  | .serve index clean => listener.advance index (Progress.serve clean)
  | .panics index => listener.advance index Progress.panics
  | .expire index => listener.advance index (Progress.expire listener.clock)
  | .join index => listener.join index
  | .drained => listener.drained
  | .drainExpires => listener.drainExpires
  | .abort index => listener.abort index
  | .aborted => listener.aborted
  | .tick elapsed => { listener with clock := listener.clock + elapsed }

/-- Steps one after the other. -/
def run (listener : Listener IoError) (actions : List (Action IoError)) :
    Listener IoError :=
  actions.foldl step listener

end Listener

end Server

end Control

end EffectLatch
