import EffectLatch.ControlServer
import EffectLatch.TokenCustody

/-!
# Every connection is accounted for once

However connections come and go, a connection that was accepted is with one task
or was joined once, at most 128 of them are open, and the statistics `serve`
returns say of each one how it ended.  A shutdown does not wait for them.
-/

namespace EffectLatch

namespace Control

namespace Server

/-- The counters of joined tasks count these results. -/
structure ConnectionStats.Tallies (stats : ConnectionStats)
    (results : List (Except JoinError UInt8)) : Prop where
  completed : stats.completed = results.countP (· = .ok 0)
  protocolErrors : stats.protocolErrors = results.countP (· = .ok 1)
  deadlineExceeded : stats.deadlineExceeded = results.countP
    fun result => result.toOption.any fun code => code ≠ 0 ∧ code ≠ 1
  taskFailures : stats.taskFailures = results.countP (· = .error ⟨⟩)

theorem ConnectionStats.record_aborted (stats : ConnectionStats)
    (result : Except JoinError UInt8) :
    (record stats result).abortedOnShutdown =
      stats.abortedOnShutdown := by
  unfold record
  split
  · split_ifs <;> rfl
  · rfl

namespace ConnectionStats.Tallies

variable {stats : ConnectionStats} {results : List (Except JoinError UInt8)}

theorem default : ConnectionStats.default.Tallies [] :=
  ⟨rfl, rfl, rfl, rfl⟩

theorem record (tallies : stats.Tallies results)
    (result : Except JoinError UInt8) :
    (record stats result).Tallies (result :: results) := by
  obtain ⟨completed, protocolErrors, deadlineExceeded, taskFailures⟩ := tallies
  cases result with
  | ok code =>
      unfold Server.record
      by_cases clean : code = 0
      · subst clean
        constructor <;> simp [*, Except.toOption]
      by_cases failed : code = 1
      · subst failed
        constructor <;> simp [*, Except.toOption]
      · constructor <;> simp [*, Except.toOption]
  | error failure =>
      constructor <;> simp [*, Server.record, Except.toOption]

/-- Every result is counted by one of the counters. -/
theorem total (tallies : stats.Tallies results) :
    stats.completed + stats.protocolErrors + stats.deadlineExceeded +
      stats.taskFailures = results.length := by
  rw [tallies.completed, tallies.protocolErrors, tallies.deadlineExceeded,
    tallies.taskFailures]
  clear tallies
  induction results with
  | nil => rfl
  | cons result results ih =>
      have one : ([result].countP (· = .ok 0)) + [result].countP (· = .ok 1) +
          ([result].countP fun result =>
            result.toOption.any fun code => code ≠ 0 ∧ code ≠ 1) +
          [result].countP (· = .error ⟨⟩) = 1 := by
        cases result with
        | ok code =>
            by_cases clean : code = 0
            · subst clean; decide
            by_cases failed : code = 1
            · subst failed; decide
            · simp [clean, failed, Except.toOption]
        | error failure => simp [Except.toOption]
      rw [List.countP_cons, List.countP_cons, List.countP_cons,
        List.countP_cons, List.length_cons]
      simp only [List.countP_singleton] at one
      omega

end ConnectionStats.Tallies

namespace Listener

variable {IoError : Type} {listener : Listener IoError}

/-- What the recorded tasks gave, latest first. -/
def results (listener : Listener IoError) : List (Except JoinError UInt8) :=
  (listener.joined.filter Joined.recorded).map Joined.result

/-- How many joined tasks were not recorded. -/
def discarded (listener : Listener IoError) : Nat :=
  listener.joined.countP fun joined => !joined.recorded

theorem length_results (listener : Listener IoError) :
    listener.results.length + listener.discarded =
      listener.joined.length := by
  have split := List.length_eq_countP_add_countP Joined.recorded
    (l := listener.joined)
  rw [results, discarded, List.length_map, ← List.countP_eq_length_filter]
  simpa using split.symm

/-- What the phase says of the tasks left and the tasks aborted. -/
def Stands (listener : Listener IoError) : Prop :=
  match listener.phase with
  | .accepting | .draining _ _ =>
      listener.stats.abortedOnShutdown = 0 ∧ listener.discarded = 0
  | .aborting _ =>
      listener.stats.abortedOnShutdown =
        listener.tasks.length + listener.discarded
  | .returned result =>
      listener.tasks = [] ∧
        listener.stats.abortedOnShutdown = listener.discarded ∧
        ∀ stats, result = .ok stats → stats = listener.stats

/-- The invariant of `serve`. -/
structure Sound (listener : Listener IoError) : Prop where
  custody : Custody listener.accepted (listener.tasks.map Task.connection)
    (listener.joined.map Joined.connection)
  bounded : listener.tasks.length ≤ 128
  tallies : listener.stats.Tallies listener.results
  stands : listener.Stands

theorem sound_initial : (initial : Listener IoError).Sound :=
  ⟨.start, Nat.zero_le _, .default, rfl, rfl⟩

theorem Stands.tasks (stands : listener.Stands) {tasks : List Task}
    (same : tasks.length = listener.tasks.length) :
    { listener with tasks := tasks }.Stands := by
  obtain ⟨phase, old, stats, clock, accepted, joined⟩ := listener
  cases phase with
  | accepting => exact stands
  | draining _ _ => exact stands
  | aborting _ =>
      change stats.abortedOnShutdown = tasks.length + _
      rw [same]
      exact stands
  | returned _ =>
      obtain ⟨rfl, rest⟩ := stands
      exact ⟨List.eq_nil_of_length_eq_zero same, rest⟩

theorem Sound.accept (sound : listener.Sound)
    (accepted : Except IoError Unit) : (listener.accept accepted).Sound := by
  have stands := sound.stands
  unfold Listener.accept
  unfold Stands at stands
  split
  · next accepting =>
    rw [accepting] at stands
    split
    · next room =>
      cases accepted with
      | ok done =>
          refine ⟨sound.custody.issue ?_, ?_, sound.tallies, ?_⟩
          · intro token
            simp [List.count_cons]
          · rw [List.length_append, List.length_singleton]
            exact room
          · unfold Stands
            rw [accepting]
            exact stands
      | error failure =>
          exact ⟨sound.custody, sound.bounded, sound.tallies, stands⟩
    · exact sound
  · exact sound

theorem Sound.shutdown (sound : listener.Sound) :
    listener.shutdown.Sound := by
  have stands := sound.stands
  unfold Listener.shutdown
  unfold Stands at stands
  split
  · next accepting =>
    rw [accepting] at stands
    exact ⟨sound.custody, sound.bounded, sound.tallies, stands⟩
  · exact sound

theorem Sound.advance (sound : listener.Sound) (index : Nat)
    (move : Progress → Option Progress) :
    (listener.advance index move).Sound := by
  unfold Listener.advance
  split
  · exact sound
  · next task found =>
    split
    · exact sound
    · next progress _ =>
      have same : (listener.tasks.set index
          { task with progress := progress }).map Task.connection =
            listener.tasks.map Task.connection := by
        apply List.ext_getElem?
        intro other
        rw [List.getElem?_map, List.getElem?_map]
        by_cases here : index = other
        · subst here
          rw [List.getElem?_set_self (List.getElem?_eq_some_iff.mp found).1,
            found]
          rfl
        · rw [List.getElem?_set_ne here]
      have length : (listener.tasks.set index
          { task with progress := progress }).length =
            listener.tasks.length := List.length_set
      exact ⟨by rw [same]; exact sound.custody, by rw [length]; exact sound.bounded,
        sound.tallies, sound.stands.tasks length⟩

/-- Joining a task takes its connection out of those with a task. -/
theorem joined_task {index : Nat} {task : Task}
    (found : listener.tasks[index]? = some task) :
    (listener.tasks.eraseIdx index).length + 1 = listener.tasks.length ∧
      ∀ token, (listener.tasks.map Task.connection).count token =
        (task.connection ::
          (listener.tasks.eraseIdx index).map Task.connection).count token := by
  obtain ⟨within, rfl⟩ := List.getElem?_eq_some_iff.mp found
  refine ⟨List.length_eraseIdx_add_one within, ?_⟩
  intro token
  have perm := (List.getElem_cons_eraseIdx_perm within).map Task.connection
  exact (perm.count_eq token).symm

theorem Sound.join (sound : listener.Sound) (index : Nat) :
    (listener.join index).Sound := by
  have stands := sound.stands
  unfold Stands at stands
  unfold Listener.join
  split
  · next connection result found =>
    obtain ⟨length, taken⟩ := joined_task found
    have bounded := sound.bounded
    have custody := sound.custody.release taken
    split
    · next accepting =>
      rw [accepting] at stands
      refine ⟨custody, by dsimp only; omega, sound.tallies.record result, ?_⟩
      unfold Stands
      rw [accepting]
      exact ⟨(ConnectionStats.record_aborted _ _).trans stands.1, stands.2⟩
    · next draining =>
      rw [draining] at stands
      refine ⟨custody, by dsimp only; omega, sound.tallies.record result, ?_⟩
      unfold Stands
      rw [draining]
      exact ⟨(ConnectionStats.record_aborted _ _).trans stands.1, stands.2⟩
    · next aborting =>
      rw [aborting] at stands
      refine ⟨custody, by dsimp only; omega, sound.tallies, ?_⟩
      unfold Stands
      rw [aborting]
      simp only [discarded, List.countP_cons] at stands ⊢
      simp only [Bool.not_false, if_true]
      omega
    · exact sound
  · exact sound

/-- Whoever returns has joined every task. -/
theorem Sound.conclude (sound : listener.Sound) (none : listener.tasks = [])
    (aborted : listener.stats.abortedOnShutdown = listener.discarded)
    (acceptError : Option IoError) :
    (listener.conclude acceptError).Sound := by
  refine ⟨sound.custody, sound.bounded, sound.tallies, none, aborted, ?_⟩
  intro stats returned
  cases acceptError with
  | some error => simp at returned
  | none => exact (Except.ok.inj returned).symm

theorem Sound.drained (sound : listener.Sound) : listener.drained.Sound := by
  have stands := sound.stands
  unfold Stands at stands
  unfold Listener.drained
  split
  · next draining =>
    rw [draining] at stands
    split
    · next none =>
      exact sound.conclude none (stands.1.trans stands.2.symm) _
    · exact sound
  · exact sound

theorem Sound.drainExpires (sound : listener.Sound) :
    listener.drainExpires.Sound := by
  have stands := sound.stands
  unfold Stands at stands
  unfold Listener.drainExpires
  split
  · next draining =>
    rw [draining] at stands
    split
    · have tallies := sound.tallies
      refine ⟨sound.custody, sound.bounded, ⟨tallies.completed,
        tallies.protocolErrors, tallies.deadlineExceeded,
        tallies.taskFailures⟩, ?_⟩
      change listener.tasks.length = listener.tasks.length + listener.discarded
      rw [stands.2, Nat.add_zero]
    · exact sound
  · exact sound

theorem Sound.abort (sound : listener.Sound) (index : Nat) :
    (listener.abort index).Sound := by
  unfold Listener.abort
  split
  · exact sound.advance index _
  · exact sound

theorem Sound.aborted (sound : listener.Sound) : listener.aborted.Sound := by
  have stands := sound.stands
  unfold Stands at stands
  unfold Listener.aborted
  split
  · next aborting =>
    rw [aborting] at stands
    split
    · next none =>
      rw [none, List.length_nil, Nat.zero_add] at stands
      exact sound.conclude none stands _
    · exact sound
  · exact sound

theorem Sound.step (sound : listener.Sound) (action : Action IoError) :
    (listener.step action).Sound := by
  cases action with
  | accept => exact sound.accept (.ok ())
  | acceptFails error => exact sound.accept (.error error)
  | shutdown => exact sound.shutdown
  | begin index => exact sound.advance index _
  | serve index clean => exact sound.advance index _
  | panics index => exact sound.advance index _
  | expire index => exact sound.advance index _
  | join index => exact sound.join index
  | drained => exact sound.drained
  | drainExpires => exact sound.drainExpires
  | abort index => exact sound.abort index
  | aborted => exact sound.aborted
  | tick elapsed =>
      exact ⟨sound.custody, sound.bounded, sound.tallies, sound.stands⟩

theorem Sound.run (sound : listener.Sound) (actions : List (Action IoError)) :
    (listener.run actions).Sound := by
  induction actions generalizing listener with
  | nil => exact sound
  | cons action rest ih => exact ih (sound.step action)

end Listener

/-- However connections come and go, at most 128 are open and each one accepted
is with one task or was joined once; the statistics `serve` returns count each
by how it ended, and those it aborted, and none is left. -/
theorem connections_accounted {IoError : Type}
    (actions : List (Action IoError)) :
    let listener := Listener.initial.run actions
    listener.tasks.length ≤ 128 ∧
    (listener.tasks.map Task.connection ++
      listener.joined.map Joined.connection).Perm
        (List.range listener.accepted) ∧
    ∀ stats, listener.phase = .returned (.ok stats) →
      listener.tasks = [] ∧ stats.Tallies listener.results ∧
      stats.abortedOnShutdown = listener.discarded ∧
      stats.completed + stats.protocolErrors + stats.deadlineExceeded +
        stats.taskFailures + stats.abortedOnShutdown = listener.accepted := by
  intro listener
  have sound : listener.Sound := Listener.sound_initial.run actions
  refine ⟨sound.bounded, sound.custody.accounted, ?_⟩
  intro stats returned
  have stands := sound.stands
  unfold Listener.Stands at stands
  rw [returned] at stands
  obtain ⟨none, aborted, same⟩ := stands
  obtain rfl := same stats rfl
  refine ⟨none, sound.tallies, aborted, ?_⟩
  have total := sound.custody.length_add
  have split := listener.length_results
  rw [sound.tallies.total, aborted, split]
  simpa [none] using total

/-- Two connections, one of them served and the other cut off. -/
def Sample.shutdown : List (Action Unit) :=
  [.accept, .accept, .begin 0, .begin 1, .serve 0 true, .join 0, .shutdown,
    .tick 3000, .drainExpires, .abort 0, .join 0, .aborted]

theorem connections_accounted_shutdown :
    (Listener.initial.run Sample.shutdown).phase =
        .returned (.ok ⟨1, 0, 0, 0, 1⟩) ∧
      (Listener.initial.run Sample.shutdown).accepted = 2 ∧
      (Listener.initial.run Sample.shutdown).tasks = [] := by
  have returned : (Listener.initial.run Sample.shutdown).phase =
      .returned (.ok ⟨1, 0, 0, 0, 1⟩) := by decide
  obtain ⟨_, _, counted⟩ := connections_accounted Sample.shutdown
  obtain ⟨none, _, _, total⟩ := counted _ returned
  exact ⟨returned, total.symm, none⟩

end Server

end Control

end EffectLatch
