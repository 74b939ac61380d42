import EffectLatch.RuntimeReaper
import EffectLatch.TokenCustody

/-!
# Cleanup permits are neither lost nor returned twice

A permit is with a spawn in progress, with a `RunnerChild`, in the channel or
with the reaper thread until it is dropped.  `LIVE_RUNNERS` counts those that
were not dropped, so the channel has room for every job.
-/

namespace EffectLatch

namespace Cleanup

variable {system next : System} {runner killed : RunnerChild} {index : Nat}
  {job : Option ReapJob} {reply : WaitReply}

namespace Invocation

def spawnPermits : Invocation → List ReapPermit
  | .spawning permit => [permit]
  | _ => []

/-- The permits of a `RunnerChild` that was not dropped.  While `kill_tree`
runs, the permit may be in the job it queues. -/
def runnerPermits : Invocation → List ReapPermit
  | .supervising runner => runner.permit.toList
  | .queueing runner job _ => job.permit :: runner.permit.toList
  | .dropping runner => runner.permit.toList
  | _ => []

def permits (invocation : Invocation) : List ReapPermit :=
  invocation.spawnPermits ++ invocation.runnerPermits

theorem length_permits (invocations : List Invocation) :
    (invocations.flatMap permits).length =
      (invocations.flatMap spawnPermits).length +
        (invocations.flatMap runnerPermits).length := by
  induction invocations with
  | nil => rfl
  | cons invocation rest ih =>
      simp only [List.flatMap_cons, List.length_append, ih, permits]
      omega

end Invocation

/-- A child handle remembers the status it saw. -/
theorem Child.reaped_tryWait (child : Child) (reply : WaitReply) :
    (child.tryWait reply).2.reaped =
      decide ((child.tryWait reply).1 = .exited) := by
  rw [tryWait]
  split
  next reaped => simpa using reaped
  next => rfl

/-- A runner that still has its child has its permit. -/
def RunnerChild.Sound (runner : RunnerChild) : Prop :=
  runner.child ≠ none → runner.permit ≠ none

def Invocation.Sound : Invocation → Prop
  | .supervising runner => runner.Sound
  | .queueing runner job _ => runner.Sound ∧ job.child.reaped = false
  | _ => True

namespace System

/-- The jobs in the channel and those of the reaper thread. -/
def jobs (system : System) : List ReapJob :=
  system.queue ++ system.reaper.active

def held (system : System) : List ReapPermit :=
  system.invocations.flatMap Invocation.permits ++
    system.jobs.map ReapJob.permit

/-- When one invocation moves on, the permits held change by its own. -/
theorem count_held_of_set {old : Invocation} (new : Invocation)
    (found : system.invocations[index]? = some old)
    (moved : next.invocations = system.invocations.set index new)
    (same : next.jobs = system.jobs) (permit : ReapPermit) :
    next.held.count permit + old.permits.count permit =
      system.held.count permit + new.permits.count permit := by
  have shares := List.count_flatMap_set Invocation.permits permit new found
  rw [held, held, moved, same, List.count_append, List.count_append]
  omega

structure Sound (system : System) : Prop where
  custody : Custody system.reserved system.held system.released
  counted :
    system.liveRunners.toNat + system.released.length = system.reserved
  bounded : system.liveRunners.toNat ≤ reaperCapacity
  started : system.reserved ≠ 0 → system.sender = some true
  invocations : ∀ invocation ∈ system.invocations, invocation.Sound
  unreaped : ∀ job ∈ system.jobs, job.child.reaped = false

theorem sound_initial : initial.Sound where
  custody := .start
  counted := rfl
  bounded := by decide
  started := fun some => absurd rfl some
  invocations := by simp [initial]
  unreaped := by simp [initial, jobs, Reaper.active]

namespace Sound

theorem liveRunners_eq (sound : system.Sound) :
    system.liveRunners.toNat = system.held.length := by
  have := sound.custody.length_add
  have := sound.counted
  omega

/-- A step on which every permit stays reserved. -/
theorem move (sound : system.Sound)
    (held : ∀ permit, next.held.count permit = system.held.count permit)
    (live : next.liveRunners = system.liveRunners)
    (reserved : next.reserved = system.reserved)
    (released : next.released = system.released)
    (started : next.sender = system.sender)
    (invocations : ∀ invocation ∈ next.invocations, invocation.Sound)
    (unreaped : ∀ job ∈ next.jobs, job.child.reaped = false) : next.Sound where
  custody := by
    rw [reserved, released]
    exact sound.custody.move held
  counted := by
    rw [live, reserved, released]
    exact sound.counted
  bounded := live ▸ sound.bounded
  started := by
    rw [reserved, started]
    exact sound.started
  invocations := invocations
  unreaped := unreaped

theorem mem_set {new : Invocation} (sound : system.Sound)
    (ok : new.Sound) :
    ∀ invocation ∈ system.invocations.set index new, invocation.Sound := by
  intro invocation member
  rcases List.mem_or_eq_of_mem_set member with earlier | rfl
  · exact sound.invocations invocation earlier
  · exact ok

/-- One invocation moves on with the permits it has. -/
theorem setInvocation (sound : system.Sound) {old new : Invocation}
    (found : system.invocations[index]? = some old)
    (same : ∀ permit, new.permits.count permit = old.permits.count permit)
    (ok : new.Sound) : (system.setInvocation index new).Sound := by
  apply sound.move
  · intro permit
    refine Nat.add_right_cancel
      (Eq.trans (count_held_of_set _ found (by rfl) (by rfl) permit) ?_)
    rw [same permit]
  · rfl
  · rfl
  · rfl
  · rfl
  · exact sound.mem_set ok
  · exact sound.unreaped

/-- A step on which one permit is dropped. -/
theorem drop (permit : ReapPermit) (sound : system.Sound)
    (held : ∀ other,
      system.held.count other = (permit :: next.held).count other)
    (live : next.liveRunners = system.liveRunners - 1)
    (reserved : next.reserved = system.reserved)
    (released : next.released = permit :: system.released)
    (started : next.sender = system.sender)
    (invocations : ∀ invocation ∈ next.invocations, invocation.Sound)
    (unreaped : ∀ job ∈ next.jobs, job.child.reaped = false) :
    next.Sound := by
  have positive : 0 < system.held.length := by
    apply List.length_pos_of_mem (a := permit)
    rw [← List.count_pos_iff, held, List.count_cons_self]
    omega
  rw [← sound.liveRunners_eq] at positive
  have fewer : next.liveRunners.toNat = system.liveRunners.toNat - 1 := by
    rw [live, UInt64.toNat_sub_of_le]
    · rfl
    · rw [UInt64.le_iff_toNat_le]
      exact positive
  constructor
  · rw [reserved, released]
    exact sound.custody.release held
  · have := sound.counted
    rw [fewer, reserved, released, List.length_cons]
    omega
  · have := sound.bounded
    omega
  · rw [reserved, started]
    exact sound.started
  · exact invocations
  · exact unreaped

/-- An invocation drops its only permit and ends. -/
theorem dropPermit {old : Invocation} {permit : ReapPermit}
    (sound : system.Sound) (found : system.invocations[index]? = some old)
    (owned : old.permits = [permit]) :
    ((system.dropPermit permit).setInvocation index .finished).Sound := by
  apply sound.drop permit
  · intro other
    have single : (if permit == other then 1 else 0) =
        old.permits.count other := by
      rw [owned, List.count_singleton]
    rw [List.count_cons, single]
    exact (count_held_of_set .finished found (by rfl) (by rfl) other).symm
  · rfl
  · rfl
  · rfl
  · rfl
  · exact sound.mem_set trivial
  · exact sound.unreaped

/-- A step on which one permit is reserved. -/
theorem reserve (sound : system.Sound)
    (held : ∀ other, next.held.count other =
      (system.reserved :: system.held).count other)
    (live : Cleanup.reserve system.liveRunners = some next.liveRunners)
    (reserved : next.reserved = system.reserved + 1)
    (released : next.released = system.released)
    (started : next.sender = some true)
    (invocations : ∀ invocation ∈ next.invocations, invocation.Sound)
    (unreaped : ∀ job ∈ next.jobs, job.child.reaped = false) :
    next.Sound := by
  rw [Cleanup.reserve] at live
  split at live
  next room =>
    have more : next.liveRunners.toNat = system.liveRunners.toNat + 1 := by
      rw [reaperCapacity] at room
      rw [← Option.some.inj live, UInt64.toNat_add]
      change (_ + 1) % 2 ^ 64 = _
      omega
    constructor
    · rw [reserved, released]
      exact sound.custody.issue held
    · have := sound.counted
      rw [more, reserved, released]
      omega
    · rw [more]
      exact room
    · exact fun _ => started
    · exact invocations
    · exact unreaped
  next => simp at live

theorem reservePermit (sound : system.Sound)
    (found : system.invocations[index]? = some .ready) (started : Bool) :
    (system.reservePermit index started).Sound := by
  rw [System.reservePermit]
  dsimp only
  split
  next liveRunners granted =>
    have running : system.sender.getD started = true := by
      by_contra stopped
      simp [stopped] at granted
    rw [if_pos running] at granted
    apply sound.reserve
    · intro other
      refine Nat.add_right_cancel
        (Eq.trans (count_held_of_set _ found (by rfl) (by rfl) other) ?_)
      rw [List.count_cons]
      simp [Invocation.permits, Invocation.spawnPermits,
        Invocation.runnerPermits, List.count_singleton]
    · exact granted
    · rfl
    · rfl
    · exact congrArg some running
    · exact sound.mem_set trivial
    · exact sound.unreaped
  next refused =>
    constructor
    · apply sound.custody.move
      intro permit
      apply Nat.add_right_cancel
      exact count_held_of_set .finished found (by rfl) (by rfl) permit
    · exact sound.counted
    · exact sound.bounded
    · intro some
      change Option.some (system.sender.getD started) = _
      rw [sound.started some]
      rfl
    · exact sound.mem_set trivial
    · exact sound.unreaped

theorem invoke (sound : system.Sound) : Sound
    { system with invocations := system.invocations ++ [.ready] } := by
  apply sound.move
  · intro permit
    have none : Invocation.ready.permits = [] := rfl
    simp only [held, jobs, List.flatMap_append, List.flatMap_cons, none,
      List.flatMap_nil, List.append_nil]
  · rfl
  · rfl
  · rfl
  · rfl
  · intro invocation member
    rcases List.mem_append.mp member with earlier | fresh
    · exact sound.invocations invocation earlier
    · rw [List.mem_singleton.mp fresh]
      trivial
  · exact sound.unreaped

theorem dropFields (sound : system.Sound)
    (found : system.invocations[index]? = some (.dropping runner)) :
    (system.dropFields index runner).Sound := by
  rw [System.dropFields]
  split
  next permit owned =>
    apply sound.dropPermit found
    simp [Invocation.permits, Invocation.spawnPermits,
      Invocation.runnerPermits, owned]
  next gone =>
    apply sound.setInvocation found
    · simp [Invocation.permits, Invocation.spawnPermits,
        Invocation.runnerPermits, gone]
    · trivial

theorem spawnRunner {permit : ReapPermit} (sound : system.Sound)
    (found : system.invocations[index]? = some (.spawning permit))
    (succeeded : Bool) :
    (system.spawnRunner index permit succeeded).Sound := by
  rw [System.spawnRunner]
  split
  · apply sound.setInvocation found
    · simp [Invocation.permits, Invocation.spawnPermits,
        Invocation.runnerPermits]
    · simp [Invocation.Sound, RunnerChild.Sound]
  · exact sound.dropPermit found rfl

/-- The reaper's steps move jobs only. -/
theorem receive (sound : system.Sound) : system.receive.Sound := by
  rw [System.receive]
  split
  next job rest queued =>
    split
    next idle =>
      have jobs : (System.jobs
          { system with
            queue := rest
            reaper := ⟨[], system.reaper.checked ++ [job]⟩ }).Perm
          system.jobs := by
        simp only [System.jobs, Reaper.active, queued, idle.1, List.nil_append,
          List.append_nil, ← List.append_assoc]
        exact List.perm_append_singleton _ _
      apply sound.move
      · intro permit
        simp only [held, List.count_append, (jobs.map _).count_eq]
      · rfl
      · rfl
      · rfl
      · rfl
      · exact sound.invocations
      · intro other member
        exact sound.unreaped other (jobs.mem_iff.mp member)
    next => exact sound
  next => exact sound

theorem sweep (sound : system.Sound) : system.sweep.Sound := by
  rw [System.sweep]
  split
  next idle =>
    have jobs : System.jobs
        { system with reaper := ⟨[], system.reaper.checked⟩ } =
        system.jobs := by
      simp [System.jobs, Reaper.active, idle]
    apply sound.move
    · intro permit
      rw [held, held, jobs]
    · rfl
    · rfl
    · rfl
    · rfl
    · exact sound.invocations
    · rw [jobs]
      exact sound.unreaped
  next => exact sound

theorem check (sound : system.Sound) (reply : WaitReply) :
    (system.check reply).Sound := by
  rw [System.check]
  split
  next job rest unchecked =>
    have listed : system.jobs =
        system.queue ++ system.reaper.checked ++ job :: rest := by
      rw [System.jobs, Reaper.active, unchecked, List.append_assoc]
    dsimp only
    split
    next exited =>
      have gone : system.jobs.Perm (job ::
          (system.queue ++ (system.reaper.checked ++ rest))) := by
        rw [listed, ← List.append_assoc]
        exact List.perm_middle
      apply sound.drop job.permit
      · intro other
        have counts := (gone.map ReapJob.permit).count_eq other
        rw [List.map_cons, List.count_cons] at counts
        simp only [held, List.count_append, List.count_cons, counts]
        exact (Nat.add_assoc _ _ _).symm
      · rfl
      · rfl
      · rfl
      · rfl
      · exact sound.invocations
      · intro other member
        exact sound.unreaped other
          (gone.mem_iff.mpr (List.mem_cons_of_mem job member))
    next running =>
      have moved : (System.jobs { system with
          reaper := ⟨system.reaper.checked ++
            [{ job with child := (job.child.tryWait reply).2 }], rest⟩ }) =
          system.queue ++ system.reaper.checked ++
            { job with child := (job.child.tryWait reply).2 } :: rest := by
        simp [System.jobs, Reaper.active]
      apply sound.move
      · intro permit
        simp only [held, moved, listed, List.map_append, List.map_cons]
      · rfl
      · rfl
      · rfl
      · rfl
      · exact sound.invocations
      · rw [moved]
        intro other member
        rcases List.mem_append.mp member with earlier | later
        · exact sound.unreaped other
            (listed ▸ List.mem_append_left (job :: rest) earlier)
        · cases later with
          | head =>
              change (job.child.tryWait reply).2.reaped = false
              rw [Child.reaped_tryWait, decide_eq_false running]
          | tail _ later =>
              exact sound.unreaped other (listed ▸
                List.mem_append_right _ (List.mem_cons_of_mem job later))
  next => exact sound

end Sound

end System

/-- `kill_tree` finds the permit it expects, and the child it gives up is one
that was not reaped. -/
theorem RunnerChild.Sound.killTree (sound : runner.Sound) (reply : WaitReply) :
    ∃ killed job, runner.killTree reply = .ok (killed, job) ∧ killed.Sound ∧
      (∀ queued ∈ job, queued.child.reaped = false) ∧
      (job.map ReapJob.permit).toList ++ killed.permit.toList =
        runner.permit.toList := by
  cases runner with
  | mk child armed permit =>
      cases child with
      | none => exact ⟨_, _, rfl, by simp [RunnerChild.Sound], by simp, by simp⟩
      | some child =>
          have present : permit ≠ none := sound (by simp)
          obtain ⟨permit, rfl⟩ := Option.ne_none_iff_exists'.mp present
          rw [RunnerChild.killTree]
          by_cases exited : (child.tryWait reply).1 = .exited
          · exact ⟨_, _, by simp only [exited, if_true]; rfl,
              by simp [RunnerChild.Sound], by simp, by simp⟩
          · refine ⟨_, _, by simp only [exited, if_false]; rfl,
              by simp [RunnerChild.Sound], ?_, by simp⟩
            rintro queued ⟨⟩
            rw [Child.reaped_tryWait, decide_eq_false exited]

theorem RunnerChild.Sound.poll (sound : runner.Sound) (reply : WaitReply) :
    (runner.poll reply).Sound := by
  intro present
  apply sound
  rintro missing
  exact present (by rw [RunnerChild.poll, missing]; rfl)

theorem RunnerChild.Sound.disarm (sound : runner.Sound) (groupKilled : Bool) :
    (runner.disarm groupKilled).Sound := by
  rw [RunnerChild.disarm]
  split <;> exact sound

@[simp] theorem RunnerChild.permit_disarm (groupKilled : Bool) :
    (runner.disarm groupKilled).permit = runner.permit := by
  rw [RunnerChild.disarm]
  split <;> rfl

namespace System

namespace Sound

theorem killTree (sound : system.Sound)
    (found : system.invocations[index]? = some (.supervising runner))
    (reply : WaitReply) (dropping : Bool) :
    ∃ next, system.killTree index runner reply dropping = .ok next ∧
      next.Sound := by
  have owned : runner.Sound :=
    sound.invocations _ (List.mem_of_getElem? found)
  obtain ⟨killed, job, done, killedSound, unreaped, permits⟩ :=
    owned.killTree reply
  rw [System.killTree, done]
  cases job with
  | none =>
      refine ⟨_, rfl, sound.setInvocation found ?_ ?_⟩
      · cases dropping <;>
          simp_all [Invocation.permits, Invocation.spawnPermits,
            Invocation.runnerPermits]
      · cases dropping
        · exact killedSound
        · trivial
  | some job =>
      refine ⟨_, rfl, sound.setInvocation found ?_ ?_⟩
      · simp_all [Invocation.permits, Invocation.spawnPermits,
          Invocation.runnerPermits]
      · exact ⟨killedSound, unreaped job rfl⟩

/-- While a job is about to be queued, its permit is held outside the
channel. -/
theorem length_queue {job : ReapJob} {dropping : Bool}
    (sound : system.Sound)
    (found : system.invocations[index]? =
      some (.queueing runner job dropping)) :
    system.queue.length < reaperCapacity := by
  have outside : job.permit ∈ system.invocations.flatMap Invocation.permits :=
    List.mem_flatMap.mpr ⟨_, List.mem_of_getElem? found, List.mem_cons_self⟩
  have some := List.length_pos_of_mem outside
  have live := sound.liveRunners_eq
  have bounded := sound.bounded
  simp only [held, jobs, List.length_append, List.length_map] at live
  omega

theorem sender_eq {job : ReapJob} {dropping : Bool} (sound : system.Sound)
    (found : system.invocations[index]? =
      some (.queueing runner job dropping)) : system.sender = some true := by
  apply sound.started
  have outside : job.permit ∈ system.held :=
    List.mem_append_left _ (List.mem_flatMap.mpr
      ⟨_, List.mem_of_getElem? found, List.mem_cons_self⟩)
  have some := List.length_pos_of_mem outside
  have := sound.custody.length_add
  omega

theorem trySend {job : ReapJob} {dropping : Bool} (sound : system.Sound)
    (found : system.invocations[index]? =
      some (.queueing runner job dropping)) :
    ∃ queue, queueReap system.sender system.queue job = .ok queue ∧
      ({ system with queue := queue }.setInvocation index
        (if dropping then .dropping runner else .supervising runner)).Sound := by
  obtain ⟨owned, unreaped⟩ :=
    sound.invocations _ (List.mem_of_getElem? found)
  refine ⟨system.queue ++ [job], ?_, ?_⟩
  · rw [queueReap, if_neg (by simp [sound.sender_eq found]),
      if_pos (sound.length_queue found)]
  · apply sound.move
    · intro permit
      have shares := List.count_flatMap_set Invocation.permits permit
        (if dropping then .dropping runner else .supervising runner) found
      have left : (if dropping then Invocation.dropping runner
          else .supervising runner).permits = runner.permit.toList := by
        cases dropping <;> rfl
      have before : (Invocation.queueing runner job dropping).permits =
        job.permit :: runner.permit.toList := rfl
      rw [left, before, List.count_cons] at shares
      simp only [held, jobs, System.setInvocation, List.map_append,
        List.count_append, List.map_cons, List.map_nil, List.count_singleton]
      omega
    · rfl
    · rfl
    · rfl
    · rfl
    · apply sound.mem_set
      cases dropping
      · exact owned
      · trivial
    · intro other member
      simp only [jobs, System.setInvocation, List.mem_append,
        List.mem_singleton] at member
      rcases member with (earlier | rfl) | later
      · exact sound.unreaped other (List.mem_append_left _ earlier)
      · exact unreaped
      · exact sound.unreaped other (List.mem_append_right _ later)

theorem step (sound : system.Sound) (action : Action) :
    ∃ next, system.step action = .ok next ∧ next.Sound := by
  cases action with
  | invoke => exact ⟨_, rfl, sound.invoke⟩
  | reserve index started =>
      rw [System.step]
      split
      next found => exact ⟨_, rfl, sound.reservePermit found started⟩
      next => exact ⟨_, rfl, sound⟩
  | spawn index succeeded =>
      rw [System.step]
      split
      next permit found => exact ⟨_, rfl, sound.spawnRunner found succeeded⟩
      next => exact ⟨_, rfl, sound⟩
  | poll index reply =>
      rw [System.step]
      split
      next runner found =>
        have owned := sound.invocations _ (List.mem_of_getElem? found)
        exact ⟨_, rfl, sound.setInvocation found (fun _ => rfl)
          (RunnerChild.Sound.poll owned reply)⟩
      next => exact ⟨_, rfl, sound⟩
  | killTree index reply =>
      rw [System.step]
      split
      next runner found => exact sound.killTree found reply false
      next => exact ⟨_, rfl, sound⟩
  | disarm index groupKilled =>
      rw [System.step]
      split
      next runner found =>
        have owned := sound.invocations _ (List.mem_of_getElem? found)
        refine ⟨_, rfl, sound.setInvocation found ?_
          (RunnerChild.Sound.disarm owned groupKilled)⟩
        simp [Invocation.permits, Invocation.spawnPermits,
          Invocation.runnerPermits]
      next => exact ⟨_, rfl, sound⟩
  | drop index reply =>
      rw [System.step]
      split
      next runner found =>
        split
        · exact sound.killTree found reply true
        · exact ⟨_, rfl, sound.setInvocation found (fun _ => rfl) trivial⟩
      next => exact ⟨_, rfl, sound⟩
  | trySend index =>
      rw [System.step]
      split
      next runner job dropping found =>
        obtain ⟨queue, sent, next⟩ := sound.trySend found
        rw [sent]
        exact ⟨_, rfl, next⟩
      next => exact ⟨_, rfl, sound⟩
  | dropFields index =>
      rw [System.step]
      split
      next runner found => exact ⟨_, rfl, sound.dropFields found⟩
      next => exact ⟨_, rfl, sound⟩
  | receive => exact ⟨_, rfl, sound.receive⟩
  | sweep => exact ⟨_, rfl, sound.sweep⟩
  | check reply => exact ⟨_, rfl, sound.check reply⟩

/-- No interleaving ends in a fault. -/
theorem foldlM (actions : List Action) :
    ∀ {system : System}, system.Sound →
      ∃ next, actions.foldlM System.step system = .ok next ∧ next.Sound := by
  induction actions with
  | nil => exact fun sound => ⟨_, rfl, sound⟩
  | cons action actions ih =>
      intro system sound
      obtain ⟨between, stepped, betweenSound⟩ := sound.step action
      obtain ⟨last, rest, lastSound⟩ := ih betweenSound
      exact ⟨last, by rw [List.foldlM_cons, stepped]; exact rest, lastSound⟩

end Sound

end System

/-- Whatever the order of steps, no fault is reached: `LIVE_RUNNERS` is the
number of permits of spawns in progress, of runners, of queued and of active
jobs, at most `REAPER_CAPACITY`; a job about to be queued finds room; and a
permit is dropped once, and still held only where a runner was not dropped or a
child was not reaped. -/
theorem permits_accounted (actions : List Action) :
    ∃ system, System.run actions = .ok system ∧
      system.liveRunners.toNat =
        (system.invocations.flatMap Invocation.spawnPermits).length +
          (system.invocations.flatMap Invocation.runnerPermits).length +
          system.queue.length + system.reaper.active.length ∧
      system.liveRunners.toNat ≤ reaperCapacity ∧
      (∀ (index : Nat) runner job dropping,
        system.invocations[index]? = some (.queueing runner job dropping) →
          system.queue.length < reaperCapacity) ∧
      system.released.Nodup ∧
      (∀ permit < system.reserved,
        permit ∈ system.released ∨
          (∃ invocation ∈ system.invocations, permit ∈ invocation.permits) ∨
          ∃ job ∈ system.jobs,
            job.permit = permit ∧ job.child.reaped = false) ∧
      ∀ permit ∈ system.released, permit ∉ system.held := by
  obtain ⟨system, ran, sound⟩ := System.sound_initial.foldlM actions
  refine ⟨system, ran, ?_, sound.bounded, ?_, sound.custody.nodup_released,
    ?_, ?_⟩
  · rw [sound.liveRunners_eq, System.held, List.length_append,
      Invocation.length_permits, List.length_map, System.jobs,
      List.length_append]
    exact (Nat.add_assoc _ _ _).symm
  · intro index runner job dropping found
    exact sound.length_queue found
  · intro permit known
    by_cases back : permit ∈ system.released
    · exact .inl back
    · have here : permit ∈ system.held := by
        by_contra away
        exact back ((sound.custody.mem_released_iff known).mpr away)
      rcases List.mem_append.mp here with held | queued
      · exact .inr (.inl (List.mem_flatMap.mp held))
      · obtain ⟨job, member, same⟩ := List.mem_map.mp queued
        exact .inr (.inr ⟨job, member, same, sound.unreaped job member⟩)
  · intro permit back here
    exact List.disjoint_of_nodup_append sound.custody.nodup here back

/-- A runner that outlives its deadline is killed, dropped and reaped later. -/
example : (System.run [.invoke, .reserve 0 true, .spawn 0 true,
    .killTree 0 .running, .trySend 0, .drop 0 .running, .dropFields 0,
    .receive, .check .running, .sweep, .check .exited]).toOption.map
      (fun system => (system.liveRunners, system.released)) =
    some (0, [0]) := by decide

end Cleanup

end EffectLatch
