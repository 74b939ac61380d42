import EffectLatch.ConnectionAccounting

/-!
# A shutdown does not wait for the connections

Told to stop, `serve` returns in three seconds and a bounded number of steps,
none of them by a connection: what does not end by itself is aborted.
-/

namespace EffectLatch

namespace Control

namespace Server

/-- A connection arrives or its task moves by itself. -/
def Action.OfConnection {IoError : Type} (action : Action IoError) : Prop :=
  match action with
  | .accept | .acceptFails _ | .begin _ | .serve _ _ | .panics _ | .expire _ =>
      True
  | _ => False

namespace Listener

variable {IoError : Type} {listener : Listener IoError}

/-- A drain is over in three seconds. -/
def Timely (listener : Listener IoError) : Prop :=
  ∀ acceptError limit, listener.phase = .draining acceptError limit →
    limit ≤ listener.clock + 3000

theorem advance_phase (listener : Listener IoError) (index : Nat)
    (move : Progress → Option Progress) :
    (listener.advance index move).phase = listener.phase ∧
      (listener.advance index move).clock = listener.clock := by
  unfold advance
  split
  · exact ⟨rfl, rfl⟩
  · split <;> exact ⟨rfl, rfl⟩

theorem join_phase (listener : Listener IoError) (index : Nat) :
    (listener.join index).phase = listener.phase ∧
      (listener.join index).clock = listener.clock := by
  unfold join
  split
  · split <;> exact ⟨rfl, rfl⟩
  · exact ⟨rfl, rfl⟩

theorem timely_conclude (listener : Listener IoError)
    (acceptError : Option IoError) :
    (listener.conclude acceptError).Timely := by
  intro _ _ draining
  simp [conclude] at draining

theorem Timely.accept (timely : listener.Timely)
    (accepted : Except IoError Unit) : (listener.accept accepted).Timely := by
  unfold Listener.accept
  split
  · split
    · cases accepted with
      | ok done => exact timely
      | error failure =>
          intro acceptError limit draining
          obtain ⟨_, rfl⟩ := Phase.draining.inj draining
          exact le_refl _
    · exact timely
  · exact timely

theorem Timely.step (timely : listener.Timely) (action : Action IoError) :
    (listener.step action).Timely := by
  have moved : ∀ next : Listener IoError, next.phase = listener.phase ∧
      next.clock = listener.clock → next.Timely := by
    rintro next ⟨phase, clock⟩ acceptError limit draining
    rw [clock]
    exact timely acceptError limit (phase.symm.trans draining)
  cases action with
  | accept => exact timely.accept (.ok ())
  | acceptFails error => exact timely.accept (.error error)
  | shutdown =>
      rw [Listener.step, Listener.shutdown]
      split
      · intro acceptError limit draining
        obtain ⟨_, rfl⟩ := Phase.draining.inj draining
        exact le_refl _
      · exact timely
  | begin index => exact moved _ (listener.advance_phase index _)
  | serve index clean => exact moved _ (listener.advance_phase index _)
  | panics index => exact moved _ (listener.advance_phase index _)
  | expire index => exact moved _ (listener.advance_phase index _)
  | join index => exact moved _ (listener.join_phase index)
  | drained =>
      rw [Listener.step, Listener.drained]
      split
      · split
        · exact listener.timely_conclude _
        · exact timely
      · exact timely
  | drainExpires =>
      rw [Listener.step, Listener.drainExpires]
      split
      · split
        · intro _ _ draining
          simp at draining
        · exact timely
      · exact timely
  | abort index =>
      rw [Listener.step, Listener.abort]
      split
      · exact moved _ (listener.advance_phase index _)
      · exact timely
  | aborted =>
      rw [Listener.step, Listener.aborted]
      split
      · split
        · exact listener.timely_conclude _
        · exact timely
      · exact timely
  | tick elapsed =>
      intro acceptError limit draining
      have before := timely acceptError limit draining
      change limit ≤ listener.clock + elapsed + 3000
      omega

theorem Timely.run (timely : listener.Timely)
    (actions : List (Action IoError)) : (listener.run actions).Timely := by
  induction actions generalizing listener with
  | nil => exact timely
  | cons action rest ih => exact ih (timely.step action)

/-- Some steps, none by a connection and at most `count`, end `serve` no later
than `limit`. -/
def Ends (listener : Listener IoError) (count limit : Nat) : Prop :=
  ∃ actions : List (Action IoError), actions.length ≤ count ∧
    (∀ action ∈ actions, ¬ action.OfConnection) ∧
    (listener.run actions).clock ≤ limit ∧
    ∃ result, (listener.run actions).phase = .returned result

theorem Ends.before {count limit : Nat} (action : Action IoError)
    (quiet : ¬ action.OfConnection)
    (ends : (listener.step action).Ends count limit) :
    listener.Ends (count + 1) limit := by
  obtain ⟨actions, short, none, intime, result, returned⟩ := ends
  refine ⟨action :: actions, Nat.succ_le_succ short, ?_, intime, result,
    returned⟩
  rw [List.forall_mem_cons]
  exact ⟨quiet, none⟩

theorem Ends.mono {count more limit later : Nat}
    (ends : listener.Ends count limit) (fewer : count ≤ more)
    (sooner : limit ≤ later) : listener.Ends more later := by
  obtain ⟨actions, short, none, intime, returned⟩ := ends
  exact ⟨actions, short.trans fewer, none, intime.trans sooner, returned⟩

theorem ends_returned {result : Except IoError ConnectionStats}
    (returned : listener.phase = .returned result) :
    listener.Ends 0 listener.clock :=
  ⟨[], le_refl _, by simp, le_refl _, result, returned⟩

/-- Behind `abort_all` every task is stopped and joined, one after the other. -/
theorem ends_aborting {acceptError : Option IoError} {count : Nat}
    (aborting : listener.phase = .aborting acceptError)
    (length : listener.tasks.length = count) :
    listener.Ends (2 * count + 1) listener.clock := by
  induction count generalizing listener with
  | zero =>
      have none : listener.tasks = [] := List.eq_nil_of_length_eq_zero length
      have concluded : listener.step .aborted =
          listener.conclude acceptError := by
        rw [Listener.step, Listener.aborted, aborting]
        simp [none]
      apply Ends.before .aborted id
      rw [concluded]
      exact ends_returned rfl
  | succ count ih =>
      obtain ⟨⟨connection, progress⟩, rest, tasks⟩ :=
        List.exists_cons_of_length_eq_add_one length
      have ended : ∃ result, ((listener.step (.abort 0)).tasks =
          ⟨connection, .ended result⟩ :: rest) := by
        cases progress with
        | ended result =>
            refine ⟨result, ?_⟩
            simp [Listener.step, Listener.abort, aborting, Listener.advance,
              tasks, Progress.abort]
        | spawned =>
            refine ⟨.error ⟨⟩, ?_⟩
            simp [Listener.step, Listener.abort, aborting, Listener.advance,
              tasks, Progress.abort]
        | serving limit =>
            refine ⟨.error ⟨⟩, ?_⟩
            simp [Listener.step, Listener.abort, aborting, Listener.advance,
              tasks, Progress.abort]
      obtain ⟨result, stopped⟩ := ended
      have phase : (listener.step (.abort 0)).phase = .aborting acceptError ∧
          (listener.step (.abort 0)).clock = listener.clock := by
        rw [Listener.step, Listener.abort, aborting]
        exact ⟨(listener.advance_phase 0 _).1.trans aborting,
          (listener.advance_phase 0 _).2⟩
      have next : ((listener.step (.abort 0)).step (.join 0)).Ends
          (2 * count + 1) listener.clock := by
        generalize listener.step (.abort 0) = halted at stopped phase
        obtain ⟨phase, clock⟩ := phase
        have taken : (halted.step (.join 0)).tasks = rest := by
          simp [Listener.step, Listener.join, stopped, phase]
        have kept := halted.join_phase 0
        rw [← clock, ← kept.2]
        refine ih (kept.1.trans phase) ?_
        rw [taken]
        rw [tasks, List.length_cons] at length
        exact Nat.succ.inj length
      exact ((next.before (.join 0) id).before (.abort 0) id).mono (by omega)
        (le_refl _)

theorem Timely.ends_draining {acceptError : Option IoError} {limit : Nat}
    (timely : listener.Timely)
    (draining : listener.phase = .draining acceptError limit) :
    listener.Ends (2 * listener.tasks.length + 3) (listener.clock + 3000) := by
  have intime := timely acceptError limit draining
  let wait := limit - listener.clock
  have expired : ((listener.step (.tick wait)).step .drainExpires).phase =
        .aborting acceptError ∧
      ((listener.step (.tick wait)).step .drainExpires).tasks =
        listener.tasks ∧
      ((listener.step (.tick wait)).step .drainExpires).clock =
        listener.clock + wait := by
    have past : limit ≤ listener.clock + wait := by omega
    simp [Listener.step, Listener.drainExpires, draining, past]
  obtain ⟨aborting, tasks, clock⟩ := expired
  have ends := ends_aborting aborting (congrArg List.length tasks)
  rw [clock] at ends
  exact ((ends.before .drainExpires id).before (.tick wait) id).mono (by omega)
    (by omega)

/-- Wherever it is, `serve` can be made to return. -/
theorem Timely.ends (timely : listener.Timely) :
    listener.Ends (2 * listener.tasks.length + 4) (listener.clock + 3000) := by
  cases phase : listener.phase with
  | accepting =>
      have stopping : listener.step .shutdown =
          { listener with
            phase := .draining none (listener.clock + 3000) } := by
        rw [Listener.step, Listener.shutdown, phase]
      have ends := (timely.step .shutdown).ends_draining (by rw [stopping])
      rw [stopping] at ends
      apply Ends.before .shutdown id
      rw [stopping]
      exact ends
  | draining acceptError limit =>
      exact (timely.ends_draining phase).mono (by omega) (le_refl _)
  | aborting acceptError =>
      exact (ends_aborting phase rfl).mono (by omega) (by omega)
  | returned result =>
      exact (ends_returned phase).mono (by omega) (by omega)

end Listener

end Server

end Control

end EffectLatch
