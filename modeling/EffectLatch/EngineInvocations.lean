import EffectLatch.RuntimeEngine

/-!
# One invocation at a time, under its own watchdog

The flag `active` is up exactly while some call of `execute` is behind it, and
then there is only one.  The watchdog of a call is joined before its guard is
dropped, so the epoch that a guest is compared with is advanced by its own
watchdog alone.
-/

/-- What is found in a list after one of its places was set. -/
theorem List.eq_or_found_of_set {α : Type*} {list : List α} {index other : Nat}
    {value found : α} (seen : (list.set index value)[other]? = some found) :
    (other = index ∧ found = value) ∨
      (other ≠ index ∧ list[other]? = some found) := by
  rcases eq_or_ne index other with rfl | different
  · have within := (List.getElem?_eq_some_iff.mp seen).1
    rw [List.length_set] at within
    rw [List.getElem?_set_self within] at seen
    exact .inl ⟨rfl, (Option.some.inj seen).symm⟩
  · rw [List.getElem?_set_ne different] at seen
    exact .inr ⟨different.symm, seen⟩

namespace EffectLatch

namespace Engine

namespace Invocation

/-- Behind the `compare_exchange` and before the guard is dropped. -/
def Inside : Invocation → Prop
  | .called _ _ => False
  | .returned _ => False
  | _ => True

/-- The watchdog that was not joined yet. -/
def watchdog : Invocation → Option Nat
  | .watched _ _ number => some number
  | .running _ _ number => some number
  | .stopping _ number => some number
  | .joining _ number => some number
  | _ => none

end Invocation

namespace EpochWatchdog

def Ended (watchdog : EpochWatchdog) : Prop :=
  ∃ fired, watchdog.thread = .ended fired

/-- The epoch is at the deadline when the watchdog has fired, and just before
it until then. -/
def Guards (watchdog : EpochWatchdog) (limits : Limits) (deadline : Nat)
    (system : System) : Prop :=
  watchdog.wallMs = limits.wallMs ∧ watchdog.stopped = false ∧
    match watchdog.thread with
    | .spawned =>
        system.epoch + 1 = deadline ∧ watchdog.spawnedAt ≤ system.clock
    | .receiving limit =>
        system.epoch + 1 = deadline ∧
          watchdog.spawnedAt + limits.wallMs.toNat ≤ limit
    | .elapsed =>
        system.epoch + 1 = deadline ∧
          watchdog.spawnedAt + limits.wallMs.toNat ≤ system.clock
    | .ended fired =>
        fired = true ∧ system.epoch = deadline ∧
          watchdog.spawnedAt + limits.wallMs.toNat ≤ system.clock

end EpochWatchdog

/-- What an invocation relies on behind the flag. -/
def Invocation.Guarded (system : System) : Invocation → Prop
  | .stored _ deadline => system.epoch + 1 = deadline
  | .linked _ deadline => system.epoch + 1 = deadline
  | .watched limits deadline number =>
      ∃ watchdog, system.watchdogs[number]? = some watchdog ∧
        watchdog.Guards limits deadline system
  | .running limits deadline number =>
      ∃ watchdog, system.watchdogs[number]? = some watchdog ∧
        watchdog.Guards limits deadline system
  | .stopping _ number =>
      ∃ watchdog, system.watchdogs[number]? = some watchdog
  | .joining _ number =>
      ∃ watchdog, system.watchdogs[number]? = some watchdog ∧
        watchdog.stopped = true
  | _ => True

namespace System

variable {system next : System} {index number : Nat}
  {invocation new : Invocation} {limits requested operatorCaps : Limits}
  {deadline : Nat} {result : Except RuntimeError Int32}

/-- Nobody is behind the flag and no watchdog thread is left. -/
structure Vacant (system : System) : Prop where
  active : system.active = false
  outside : ∀ (index : Nat) (invocation : Invocation),
    system.invocations[index]? = some invocation → ¬ invocation.Inside
  ended : ∀ (number : Nat) (watchdog : EpochWatchdog),
    system.watchdogs[number]? = some watchdog → watchdog.Ended

/-- One invocation is behind the flag and owns the threads that are left. -/
structure Occupied (system : System) (index : Nat) (invocation : Invocation) :
    Prop where
  active : system.active = true
  found : system.invocations[index]? = some invocation
  inside : invocation.Inside
  alone : ∀ (other : Nat) (entered : Invocation),
    system.invocations[other]? = some entered → entered.Inside → other = index
  threads : ∀ (number : Nat) (watchdog : EpochWatchdog),
    system.watchdogs[number]? = some watchdog → ¬ watchdog.Ended →
      invocation.watchdog = some number
  guarded : invocation.Guarded system

def Sound (system : System) : Prop :=
  system.Vacant ∨ ∃ index invocation, system.Occupied index invocation

theorem sound_initial : initial.Sound :=
  .inl ⟨rfl, by simp [initial], by simp [initial]⟩

theorem Occupied.eq (occupied : system.Occupied index invocation)
    (found : system.invocations[number]? = some new) (inside : new.Inside) :
    number = index ∧ new = invocation := by
  have same := occupied.alone number new found inside
  subst same
  exact ⟨rfl, Option.some.inj (found.symm.trans occupied.found)⟩

/-- An invocation behind the flag is the one that occupies it. -/
theorem Sound.occupied (sound : system.Sound)
    (found : system.invocations[index]? = some invocation)
    (inside : invocation.Inside) : system.Occupied index invocation := by
  rcases sound with vacant | ⟨_, _, occupied⟩
  · exact absurd inside (vacant.outside index invocation found)
  · obtain ⟨rfl, rfl⟩ := occupied.eq found inside
    exact occupied

/-- The invocation behind the flag moves on. -/
theorem Occupied.move (occupied : system.Occupied index invocation)
    (moved : next.invocations = system.invocations.set index new)
    (active : next.active = system.active) (inside : new.Inside)
    (threads : ∀ (number : Nat) (watchdog : EpochWatchdog),
      next.watchdogs[number]? = some watchdog → ¬ watchdog.Ended →
        new.watchdog = some number)
    (guarded : new.Guarded next) : next.Occupied index new where
  active := active.trans occupied.active
  found := by
    have within := (List.getElem?_eq_some_iff.mp occupied.found).1
    rw [moved, List.getElem?_set_self within]
  inside := inside
  alone := by
    intro other entered found enteredInside
    rw [moved] at found
    rcases List.eq_or_found_of_set found with ⟨same, _⟩ | ⟨_, earlier⟩
    · exact same
    · exact occupied.alone other entered earlier enteredInside
  threads := threads
  guarded := guarded

/-- The invocation behind the flag moves on with the watchdog it has. -/
theorem Occupied.setInvocation (occupied : system.Occupied index invocation)
    (inside : new.Inside) (same : new.watchdog = invocation.watchdog)
    (guarded : new.Guarded system) :
    (system.setInvocation index new).Occupied index new := by
  refine occupied.move rfl rfl inside ?_ ?_
  · intro number watchdog found alive
    rw [same]
    exact occupied.threads number watchdog found alive
  · cases new <;> exact guarded

/-! ## Steps of an invocation -/

theorem Sound.invoke (sound : system.Sound) : Sound
    { system with
      invocations :=
        system.invocations ++ [.called requested operatorCaps] } := by
  have earlier : ∀ (other : Nat) (entered : Invocation),
      (system.invocations ++ [Invocation.called requested operatorCaps])[
        other]? = some entered → entered.Inside →
      system.invocations[other]? = some entered := by
    intro other entered found inside
    rw [List.getElem?_append] at found
    split at found
    · exact found
    · rw [List.getElem?_singleton] at found
      split at found
      · obtain rfl := Option.some.inj found
        exact inside.elim
      · simp at found
  rcases sound with vacant | ⟨index, invocation, occupied⟩
  · left
    refine ⟨vacant.active, ?_, vacant.ended⟩
    intro other entered found inside
    exact vacant.outside other entered (earlier other entered found inside)
      inside
  · right
    refine ⟨index, invocation, occupied.active, ?_, occupied.inside, ?_,
      occupied.threads, ?_⟩
    · have within := (List.getElem?_eq_some_iff.mp occupied.found).1
      rw [List.getElem?_append_left within]
      exact occupied.found
    · intro other entered found inside
      exact occupied.alone other entered (earlier other entered found inside)
        inside
    · have guarded := occupied.guarded
      cases invocation <;> exact guarded

/-- A call that finds the flag down occupies it. -/
theorem Vacant.enter (vacant : system.Vacant)
    (found : system.invocations[index]? =
      some (.called requested operatorCaps)) :
    (system.enter index requested operatorCaps).Occupied index
      (.entered requested operatorCaps) := by
  have within := (List.getElem?_eq_some_iff.mp found).1
  have down : ¬ system.active = true := by simp [vacant.active]
  rw [System.enter, if_neg down]
  refine ⟨rfl, List.getElem?_set_self within, trivial, ?_, ?_, trivial⟩
  · intro other entered seen inside
    rcases List.eq_or_found_of_set seen with ⟨same, _⟩ | ⟨_, earlier⟩
    · exact same
    · exact absurd inside (vacant.outside other entered earlier)
  · intro number watchdog watchdog_found alive
    exact absurd (vacant.ended number watchdog watchdog_found) alive

/-- A call that finds the flag up is refused. -/
theorem Occupied.enter (occupied : system.Occupied index invocation)
    (found : system.invocations[number]? =
      some (.called requested operatorCaps)) :
    (system.enter number requested operatorCaps).Occupied index
      invocation := by
  have different : index ≠ number := by
    rintro rfl
    rw [occupied.found] at found
    obtain rfl := Option.some.inj found
    exact occupied.inside
  rw [System.enter, if_pos occupied.active]
  refine ⟨occupied.active, ?_, occupied.inside, ?_, occupied.threads, ?_⟩
  · change (system.invocations.set number _)[index]? = _
    rw [List.getElem?_set_ne different.symm]
    exact occupied.found
  · intro other entered seen inside
    rcases List.eq_or_found_of_set seen with ⟨_, rfl⟩ | ⟨_, earlier⟩
    · exact inside.elim
    · exact occupied.alone other entered earlier inside
  · have guarded := occupied.guarded
    cases invocation <;> exact guarded

theorem Occupied.newStore
    (occupied : system.Occupied index (.entered requested operatorCaps))
    (fueled : Bool) :
    (system.newStore index requested operatorCaps fueled).Sound := by
  rw [System.newStore]
  split
  · exact .inr ⟨_, _, occupied.setInvocation trivial rfl trivial⟩
  · split
    · exact .inr ⟨_, _, occupied.setInvocation trivial rfl rfl⟩
    · exact .inr ⟨_, _, occupied.setInvocation trivial rfl trivial⟩

theorem Occupied.configureImports
    (occupied : system.Occupied index (.stored limits deadline))
    (configured : Except RuntimeError Unit) :
    (system.configureImports index limits deadline configured).Sound := by
  cases configured with
  | ok _ =>
      exact .inr ⟨_, _, occupied.setInvocation trivial rfl occupied.guarded⟩
  | error _ => exact .inr ⟨_, _, occupied.setInvocation trivial rfl trivial⟩

theorem Occupied.startWatchdog
    (occupied : system.Occupied index (.linked limits deadline))
    (spawned : Bool) :
    (system.startWatchdog index limits deadline spawned).Sound := by
  rw [System.startWatchdog]
  split
  · refine .inr ⟨_, _, occupied.move rfl rfl trivial ?_ ?_⟩
    · intro number watchdog found alive
      change (system.watchdogs ++ [_])[number]? = _ at found
      rw [List.getElem?_append] at found
      split at found
      · have none := occupied.threads number watchdog found alive
        cases none
      · next beyond =>
        rw [List.getElem?_singleton] at found
        split at found
        · next first =>
          have last : number = system.watchdogs.length := by omega
          rw [last]
          rfl
        · simp at found
    · exact ⟨_, List.getElem?_concat_length, rfl, rfl, occupied.guarded,
        Nat.le_refl _⟩
  · exact .inr ⟨_, _, occupied.setInvocation trivial rfl trivial⟩

theorem Occupied.instantiate
    (occupied : system.Occupied index (.watched limits deadline number))
    (succeeded : Bool) :
    (system.instantiate index limits deadline number succeeded).Sound := by
  rw [System.instantiate]
  split
  · exact .inr ⟨_, _, occupied.setInvocation trivial rfl occupied.guarded⟩
  · obtain ⟨watchdog, found, _⟩ := occupied.guarded
    exact .inr ⟨_, _, occupied.setInvocation trivial rfl ⟨watchdog, found⟩⟩

theorem Occupied.checkEpoch
    (occupied : system.Occupied index (.running limits deadline number)) :
    (system.checkEpoch index limits deadline number).Sound := by
  rw [System.checkEpoch]
  split
  · obtain ⟨watchdog, found, _⟩ := occupied.guarded
    exact .inr ⟨_, _, occupied.setInvocation trivial rfl ⟨watchdog, found⟩⟩
  · exact .inr ⟨_, _, occupied.setInvocation trivial rfl occupied.guarded⟩

theorem Occupied.finish
    (occupied : system.Occupied index (.running limits deadline number))
    (result : Option Int32) : (system.finish index number result).Sound := by
  obtain ⟨watchdog, found, _⟩ := occupied.guarded
  exact .inr ⟨_, _, occupied.setInvocation trivial rfl ⟨watchdog, found⟩⟩

/-- A watchdog that changes stays with the invocation that has it. -/
theorem Occupied.threads_set (occupied : system.Occupied index invocation)
    {old watchdog : EpochWatchdog}
    (found : system.watchdogs[number]? = some old)
    (alive : watchdog.Ended ∨ ¬ old.Ended) :
    ∀ (other : Nat) (seen : EpochWatchdog),
      (system.watchdogs.set number watchdog)[other]? = some seen →
      ¬ seen.Ended → invocation.watchdog = some other := by
  intro other seen changed seenAlive
  rcases List.eq_or_found_of_set changed with ⟨rfl, rfl⟩ | ⟨_, earlier⟩
  · rcases alive with ended | before
    · exact absurd ended seenAlive
    · exact occupied.threads other old found before
  · exact occupied.threads other seen earlier seenAlive

theorem Occupied.stop
    (occupied : system.Occupied index (.stopping result number)) :
    (system.stop index result number).Sound := by
  obtain ⟨watchdog, found⟩ := occupied.guarded
  have within := (List.getElem?_eq_some_iff.mp found).1
  have alive : EpochWatchdog.Ended { watchdog with stopped := true } ∨
      ¬ watchdog.Ended := Classical.em watchdog.Ended
  rw [System.stop, found]
  refine .inr ⟨_, _, occupied.move rfl rfl trivial ?_ ?_⟩
  · exact occupied.threads_set found alive
  · exact ⟨_, List.getElem?_set_self within, rfl⟩

theorem Occupied.join
    (occupied : system.Occupied index (.joining result number)) :
    (system.join index result number).Sound := by
  rw [System.join]
  split
  · next fired ended =>
    refine .inr ⟨_, _, occupied.move rfl rfl trivial ?_ trivial⟩
    intro other watchdog found alive
    have same := occupied.threads other watchdog found alive
    obtain rfl : number = other := Option.some.inj same
    change system.watchdogs[number]? = _ at found
    rw [ended] at found
    obtain rfl := Option.some.inj found
    exact absurd ⟨fired, rfl⟩ alive
  · exact .inr ⟨_, _, occupied⟩

theorem Occupied.leave
    (occupied : system.Occupied index (.leaving result)) :
    (system.leave index result).Vacant where
  active := rfl
  outside := by
    intro other entered found inside
    rcases List.eq_or_found_of_set found with ⟨_, rfl⟩ | ⟨elsewhere, earlier⟩
    · exact inside
    · exact elsewhere (occupied.alone other entered earlier inside)
  ended := by
    intro number watchdog found
    by_contra alive
    have none := occupied.threads number watchdog found alive
    cases none

/-! ## Steps of a watchdog thread -/

/-- A thread that has not ended moves on. -/
theorem Occupied.setWatchdog (occupied : system.Occupied index invocation)
    {old watchdog : EpochWatchdog}
    (found : system.watchdogs[number]? = some old) (alive : ¬ old.Ended)
    (moved : next.watchdogs = system.watchdogs.set number watchdog)
    (active : next.active = system.active)
    (invocations : next.invocations = system.invocations)
    (stopped : watchdog.stopped = old.stopped)
    (guards : ∀ limits deadline, old.Guards limits deadline system →
      watchdog.Guards limits deadline next) :
    next.Occupied index invocation := by
  have owned := occupied.threads number old found alive
  have within := (List.getElem?_eq_some_iff.mp found).1
  have kept : next.watchdogs[number]? = some watchdog := by
    rw [moved, List.getElem?_set_self within]
  refine ⟨active.trans occupied.active, invocations ▸ occupied.found,
    occupied.inside, invocations ▸ occupied.alone, ?_, ?_⟩
  · rw [moved]
    exact occupied.threads_set found (.inr alive)
  · have guarded := occupied.guarded
    cases invocation with
    | watched limits deadline own =>
        obtain rfl : own = number := Option.some.inj owned
        obtain ⟨_, same, before⟩ := guarded
        obtain rfl := Option.some.inj (same.symm.trans found)
        exact ⟨watchdog, kept, guards limits deadline before⟩
    | running limits deadline own =>
        obtain rfl : own = number := Option.some.inj owned
        obtain ⟨_, same, before⟩ := guarded
        obtain rfl := Option.some.inj (same.symm.trans found)
        exact ⟨watchdog, kept, guards limits deadline before⟩
    | stopping result own =>
        obtain rfl : own = number := Option.some.inj owned
        exact ⟨watchdog, kept⟩
    | joining result own =>
        obtain rfl : own = number := Option.some.inj owned
        obtain ⟨_, same, sent⟩ := guarded
        obtain rfl := Option.some.inj (same.symm.trans found)
        exact ⟨watchdog, kept, stopped.trans sent⟩
    | _ => cases owned

theorem Occupied.receive (occupied : system.Occupied index invocation)
    {watchdog : EpochWatchdog}
    (found : system.watchdogs[number]? = some watchdog) :
    (system.receive number watchdog).Occupied index invocation := by
  rw [System.receive]
  split
  · next thread =>
    refine occupied.setWatchdog found ?_ rfl rfl rfl rfl ?_
    · rintro ⟨_, ended⟩
      rw [thread] at ended
      cases ended
    · rintro limits deadline ⟨same, unsent, before⟩
      rw [thread] at before
      refine ⟨same, unsent, before.1, ?_⟩
      rw [← same]
      exact Nat.add_le_add_right before.2 _
  · exact occupied

theorem Occupied.message (occupied : system.Occupied index invocation)
    {watchdog : EpochWatchdog}
    (found : system.watchdogs[number]? = some watchdog) :
    (system.message number watchdog).Occupied index invocation := by
  rw [System.message]
  split
  · next limit thread =>
    split
    · next sent =>
      refine occupied.setWatchdog found ?_ rfl rfl rfl rfl ?_
      · rintro ⟨_, ended⟩
        rw [thread] at ended
        cases ended
      · rintro limits deadline ⟨_, unsent, _⟩
        rw [sent] at unsent
        cases unsent
    · exact occupied
  · exact occupied

theorem Occupied.elapse (occupied : system.Occupied index invocation)
    {watchdog : EpochWatchdog}
    (found : system.watchdogs[number]? = some watchdog) :
    (system.elapse number watchdog).Occupied index invocation := by
  rw [System.elapse]
  split
  · next limit thread =>
    split
    · next due =>
      refine occupied.setWatchdog found ?_ rfl rfl rfl rfl ?_
      · rintro ⟨_, ended⟩
        rw [thread] at ended
        cases ended
      · rintro limits deadline ⟨same, unsent, before⟩
        rw [thread] at before
        exact ⟨same, unsent, before.1, Nat.le_trans before.2 due⟩
    · exact occupied
  · exact occupied

theorem Occupied.incrementEpoch (occupied : system.Occupied index invocation)
    {watchdog : EpochWatchdog}
    (found : system.watchdogs[number]? = some watchdog) :
    (system.incrementEpoch number watchdog).Occupied index invocation := by
  rw [System.incrementEpoch]
  split
  · next thread =>
    refine occupied.setWatchdog found ?_ rfl rfl rfl rfl ?_
    · rintro ⟨_, ended⟩
      rw [thread] at ended
      cases ended
    · rintro limits deadline ⟨same, unsent, before⟩
      rw [thread] at before
      exact ⟨same, unsent, rfl, before.1, before.2⟩
  · exact occupied

/-- The threads that are left when nobody is behind the flag do nothing. -/
theorem Vacant.idle (vacant : system.Vacant) {watchdog : EpochWatchdog}
    (found : system.watchdogs[number]? = some watchdog) :
    system.receive number watchdog = system ∧
      system.message number watchdog = system ∧
      system.elapse number watchdog = system ∧
      system.incrementEpoch number watchdog = system := by
  obtain ⟨fired, ended⟩ := vacant.ended number watchdog found
  simp [System.receive, System.message, System.elapse, System.incrementEpoch,
    ended]

theorem Sound.tick (sound : system.Sound) (elapsed : Nat) :
    Sound { system with clock := system.clock + elapsed } := by
  have later : ∀ limits deadline (watchdog : EpochWatchdog),
      watchdog.Guards limits deadline system →
      watchdog.Guards limits deadline
        { system with clock := system.clock + elapsed } := by
    rintro limits deadline watchdog ⟨same, unsent, before⟩
    refine ⟨same, unsent, ?_⟩
    split <;> simp_all <;> omega
  rcases sound with vacant | ⟨index, invocation, occupied⟩
  · exact .inl ⟨vacant.active, vacant.outside, vacant.ended⟩
  · refine .inr ⟨index, invocation, occupied.active, occupied.found,
      occupied.inside, occupied.alone, occupied.threads, ?_⟩
    have guarded := occupied.guarded
    cases invocation with
    | watched limits deadline number =>
        obtain ⟨watchdog, found, guards⟩ := guarded
        exact ⟨watchdog, found, later limits deadline watchdog guards⟩
    | running limits deadline number =>
        obtain ⟨watchdog, found, guards⟩ := guarded
        exact ⟨watchdog, found, later limits deadline watchdog guards⟩
    | _ => exact guarded

/-! ## Runs -/

theorem Sound.step (sound : system.Sound) (action : Action) :
    (system.step action).Sound := by
  cases action with
  | invoke requested operatorCaps => exact sound.invoke
  | enter index =>
      rw [System.step]
      split
      · next found =>
        rcases sound with vacant | ⟨_, _, occupied⟩
        · exact .inr ⟨_, _, vacant.enter found⟩
        · exact .inr ⟨_, _, occupied.enter found⟩
      · exact sound
  | newStore index fueled =>
      rw [System.step]
      split
      · next found => exact (sound.occupied found trivial).newStore fueled
      · exact sound
  | configureImports index configured =>
      rw [System.step]
      split
      · next found =>
        exact (sound.occupied found trivial).configureImports configured
      · exact sound
  | startWatchdog index spawned =>
      rw [System.step]
      split
      · next found => exact (sound.occupied found trivial).startWatchdog spawned
      · exact sound
  | instantiate index succeeded =>
      rw [System.step]
      split
      · next found => exact (sound.occupied found trivial).instantiate succeeded
      · exact sound
  | checkEpoch index =>
      rw [System.step]
      split
      · next found => exact (sound.occupied found trivial).checkEpoch
      · exact sound
  | finish index result =>
      rw [System.step]
      split
      · next found => exact (sound.occupied found trivial).finish result
      · exact sound
  | stop index =>
      rw [System.step]
      split
      · next found => exact (sound.occupied found trivial).stop
      · exact sound
  | join index =>
      rw [System.step]
      split
      · next found => exact (sound.occupied found trivial).join
      · exact sound
  | leave index =>
      rw [System.step]
      split
      · next found => exact .inl (sound.occupied found trivial).leave
      · exact sound
  | receive number =>
      rw [System.step]
      split
      · next found =>
        rcases sound with vacant | ⟨_, _, occupied⟩
        · exact .inl ((vacant.idle found).1.symm ▸ vacant)
        · exact .inr ⟨_, _, occupied.receive found⟩
      · exact sound
  | message number =>
      rw [System.step]
      split
      · next found =>
        rcases sound with vacant | ⟨_, _, occupied⟩
        · exact .inl ((vacant.idle found).2.1.symm ▸ vacant)
        · exact .inr ⟨_, _, occupied.message found⟩
      · exact sound
  | elapse number =>
      rw [System.step]
      split
      · next found =>
        rcases sound with vacant | ⟨_, _, occupied⟩
        · exact .inl ((vacant.idle found).2.2.1.symm ▸ vacant)
        · exact .inr ⟨_, _, occupied.elapse found⟩
      · exact sound
  | incrementEpoch number =>
      rw [System.step]
      split
      · next found =>
        rcases sound with vacant | ⟨_, _, occupied⟩
        · exact .inl ((vacant.idle found).2.2.2.symm ▸ vacant)
        · exact .inr ⟨_, _, occupied.incrementEpoch found⟩
      · exact sound
  | tick elapsed => exact sound.tick elapsed

/-- What holds of every run of an engine. -/
theorem Sound.run (sound : system.Sound) (actions : List Action) :
    (system.run actions).Sound := by
  induction actions generalizing system with
  | nil => exact sound
  | cons action rest ih => exact ih (sound.step action)

/-- Some invocation is behind the flag. -/
def Busy (system : System) : Prop :=
  ∃ (index : Nat) (invocation : Invocation),
    system.invocations[index]? = some invocation ∧ invocation.Inside

/-- A call of `execute` enters exactly when nobody is behind the flag. -/
theorem Sound.enter_exact (sound : system.Sound)
    (found : system.invocations[index]? =
      some (.called requested operatorCaps)) :
    (system.step (.enter index)).invocations[index]? =
        some (.entered requested operatorCaps) ∧ ¬ system.Busy ∨
      (system.step (.enter index)).invocations[index]? =
        some (.returned (.error .concurrentRun)) ∧ system.Busy := by
  have within := (List.getElem?_eq_some_iff.mp found).1
  have step : system.step (.enter index) =
      system.enter index requested operatorCaps := by
    rw [System.step, found]
  rcases sound with vacant | ⟨other, invocation, occupied⟩
  · left
    constructor
    · rw [step]
      exact (vacant.enter found).found
    · rintro ⟨other, invocation, otherFound, inside⟩
      exact vacant.outside other invocation otherFound inside
  · right
    constructor
    · rw [step, System.enter, if_pos occupied.active]
      exact List.getElem?_set_self within
    · exact ⟨other, invocation, occupied.found, occupied.inside⟩

/-- A guest is interrupted at its next check exactly when its own watchdog has
fired, which it did not do before the wall time was over. -/
theorem Occupied.check_exact
    (occupied : system.Occupied index (.running limits deadline number)) :
    ∃ watchdog, system.watchdogs[number]? = some watchdog ∧
      watchdog.wallMs = limits.wallMs ∧
      (watchdog.thread = .ended true →
        watchdog.spawnedAt + limits.wallMs.toNat ≤ system.clock) ∧
      (system.step (.checkEpoch index)).invocations[index]? =
        some (if watchdog.thread = .ended true then
          .stopping (.error (.wasmtime .interrupt)) number
        else .running limits deadline number) := by
  obtain ⟨watchdog, found, same, _, guards⟩ := occupied.guarded
  have within := (List.getElem?_eq_some_iff.mp occupied.found).1
  have due : deadline ≤ system.epoch ↔ watchdog.thread = .ended true := by
    cases thread : watchdog.thread <;> simp only [thread] at guards
    · simp only [reduceCtorEq, iff_false]
      omega
    · simp only [reduceCtorEq, iff_false]
      omega
    · simp only [reduceCtorEq, iff_false]
      omega
    · simp [guards.1, guards.2.1]
  refine ⟨watchdog, found, same, ?_, ?_⟩
  · intro fired
    simp only [fired] at guards
    exact guards.2.2
  · rw [System.step, occupied.found]
    change (system.invocations.set index _)[index]? = _
    rw [List.getElem?_set_self within]
    simp only [due]

end System

/-- Whatever the order of steps, one invocation at a time is behind the flag,
and a call is refused only then.  Each watchdog thread that is left belongs to
that invocation, whose guest is interrupted exactly when it has fired. -/
theorem one_invocation_under_its_watchdog (actions : List Action) :
    let system := System.initial.run actions
    (∀ (first second : Nat) (one another : Invocation),
      system.invocations[first]? = some one → one.Inside →
      system.invocations[second]? = some another → another.Inside →
      first = second) ∧
    (∀ (index : Nat) (requested operatorCaps : Limits),
      system.invocations[index]? = some (.called requested operatorCaps) →
      (system.step (.enter index)).invocations[index]? =
          some (.entered requested operatorCaps) ∧ ¬ system.Busy ∨
        (system.step (.enter index)).invocations[index]? =
          some (.returned (.error .concurrentRun)) ∧ system.Busy) ∧
    (∀ (number : Nat) (watchdog : EpochWatchdog),
      system.watchdogs[number]? = some watchdog → ¬ watchdog.Ended →
      ∃ (index : Nat) (invocation : Invocation),
        system.invocations[index]? = some invocation ∧
        invocation.Inside ∧ invocation.watchdog = some number) ∧
    (∀ (index number deadline : Nat) (limits : Limits),
      system.invocations[index]? = some (.running limits deadline number) →
      ∃ watchdog, system.watchdogs[number]? = some watchdog ∧
        watchdog.wallMs = limits.wallMs ∧
        (watchdog.thread = .ended true →
          watchdog.spawnedAt + limits.wallMs.toNat ≤ system.clock) ∧
        (system.step (.checkEpoch index)).invocations[index]? =
          some (if watchdog.thread = .ended true then
            .stopping (.error (.wasmtime .interrupt)) number
          else .running limits deadline number)) := by
  intro system
  have sound : system.Sound := System.sound_initial.run actions
  refine ⟨?_, ?_, ?_, ?_⟩
  · intro first second one another firstFound firstInside found inside
    exact (sound.occupied found inside).alone first one firstFound firstInside
  · intro index requested operatorCaps found
    exact sound.enter_exact found
  · intro number watchdog found alive
    rcases sound with vacant | ⟨index, invocation, occupied⟩
    · exact absurd (vacant.ended number watchdog found) alive
    · exact ⟨index, invocation, occupied.found, occupied.inside,
        occupied.threads number watchdog found alive⟩
  · intro index number deadline limits found
    exact (sound.occupied found trivial).check_exact

namespace Sample

def limits : Limits := ⟨1000, 65536, 5, 1⟩

/-- The guest of the first call runs until its watchdog fires, while a second
call waits at the flag. -/
def actions : List Action :=
  [.invoke limits limits, .invoke limits limits, .enter 0, .newStore 0 true,
    .configureImports 0 (.ok ()), .startWatchdog 0 true, .instantiate 0 true,
    .receive 0, .tick 5, .elapse 0, .incrementEpoch 0]

theorem running :
    (System.initial.run actions).invocations =
      [.running limits 1 0, .called limits limits] :=
  rfl

end Sample

theorem one_invocation_under_its_watchdog_fired :
    let system := System.initial.run Sample.actions
    (system.step (.enter 1)).invocations[1]? =
        some (.returned (.error .concurrentRun)) ∧
      (system.step (.checkEpoch 0)).invocations[0]? =
        some (.stopping (.error (.wasmtime .interrupt)) 0) := by
  intro system
  have invocations : system.invocations = _ := Sample.running
  have first : system.invocations[0]? = some (.running Sample.limits 1 0) := by
    rw [invocations]
    rfl
  have second : system.invocations[1]? =
      some (.called Sample.limits Sample.limits) := by
    rw [invocations]
    rfl
  obtain ⟨_, entries, _, checks⟩ :=
    one_invocation_under_its_watchdog Sample.actions
  constructor
  · rcases entries 1 Sample.limits Sample.limits second with
      ⟨_, idle⟩ | ⟨refused, _⟩
    · exact absurd ⟨0, _, first, trivial⟩ idle
    · exact refused
  · obtain ⟨watchdog, found, _, _, checked⟩ := checks 0 0 1 Sample.limits first
    have fired : watchdog.thread = .ended true := by
      have known : system.watchdogs[0]? = some ⟨5, 0, false, .ended true⟩ := rfl
      obtain rfl := Option.some.inj (known.symm.trans found)
      rfl
    rw [if_pos fired] at checked
    exact checked

end Engine

end EffectLatch
