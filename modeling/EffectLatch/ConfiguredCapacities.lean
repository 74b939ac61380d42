import EffectLatch.LeaseContents

/-!
# The configuration holds over whole runs

The daemon hands its settings to the store with every call, some of them through
a cast to a byte.  Nothing a request, a sweep or the surroundings can do takes a
slot, a place in the queue, an attempt or an authority beyond them.
-/

namespace EffectLatch

/-- A claim starts an attempt only below the limit of its policy. -/
theorem Database.RunStep.attempt_le {db : Database} {clock : Clock}
    {command : Command} {old new : RunRow}
    {entries : List (String × List UInt8)} {claim : ClaimPolicy}
    {reap : ReapPolicy}
    (step : db.RunStep clock command old new entries)
    (uses : (⟨command, clock⟩ : Call).usesPolicy claim reap = true)
    (before : old.attempt ≤ claim.maxAttempts) :
    new.attempt ≤ claim.maxAttempts := by
  cases step with
  | leased selected _ _ =>
      simp only [Call.usesPolicy, decide_eq_true_eq] at uses
      have left := selected.attemptLeft
      rw [uses] at left
      change _ + 1 ≤ (claim.maxAttempts : Int)
      omega
  | _ => exact before

namespace Control

namespace Daemon

/-- What the configuration says of a state. -/
structure Enforces (daemon : Daemon) (db : Database) : Prop where
  slots : db.activeTotal ≤ daemon.config.limits.maxActiveGlobal.toNat
  tenantSlots : ∀ tenant, db.findTenant tenant ≠ none →
    db.heldCount tenant ≤ daemon.config.limits.maxActivePerTenant.toNat
  workerSlots : ∀ worker, db.ownedCount worker ≤ 2
  queue : db.queuedCount (fun _ => true) ≤
    daemon.config.limits.maxPendingGlobal.toNat
  tenantQueue : ∀ tenant ∈ db.tenants.rows,
    (db.queuedCount (RunRow.ofTenant tenant.id) : Int) ≤
      min tenant.queueLimit daemon.config.limits.maxPendingPerTenant.toNat
  outstanding : db.outstandingCount (fun _ => true) ≤
    daemon.config.limits.maxPendingGlobal.toNat +
      daemon.config.limits.maxActiveGlobal.toNat
  attempts : ∀ row ∈ db.runs.rows,
    row.attempt ≤ daemon.config.limits.maxAttempts.toNat
  stocked : daemon.Stocked db
  grants : Database.Confined daemon.config db

variable {daemon : Daemon} {db next : Database} {clock : Clock}
  {command : Command} {response : Response}

/-- The invariant behind the capacities. -/
structure Capacities (daemon : Daemon) (db : Database) : Prop where
  references : db.References
  slots : Database.SlotsAccounted daemon.config.queueLimits.maxActiveGlobal db
  queue : Database.QueueBounded daemon.config.queueLimits db
  attempts : ∀ row ∈ db.runs.rows,
    row.attempt ≤ (ApiState.new daemon.config).claimPolicy.maxAttempts
  grants : Database.Confined daemon.config db

theorem capacities_migrated (daemon : Daemon) :
    daemon.Capacities Database.migrated :=
  ⟨Database.references_migrated,
    Database.slotsAccounted_migrated (Int.natCast_nonneg _),
    Database.queueBounded_migrated _,
    by simp [Database.migrated, Table.empty],
    Database.confined_migrated _⟩

theorem Capacities.transition (holds : daemon.Capacities db)
    (made : daemon.Makes command)
    (moved : Database.Transition daemon.sha256 db clock command response
      next) : daemon.Capacities next where
  references := moved.references holds.references
  slots := by
    refine moved.slotsAccounted ?_ holds.references holds.slots
    intro worker allowedTenants availableSlots policy asked _
    have uses := made.usesLimits clock
    rw [asked] at uses
    rw [of_decide_eq_true uses]
  queue := moved.queueBounded (made.usesLimits clock) holds.references
    holds.slots holds.queue
  attempts := by
    refine moved.runs_keep (fun _ admission => ?_)
      (fun _ _ _ step before => ?_) holds.attempts
    · cases admission with
      | admitted _ _ _ _ _ => exact Int.natCast_nonneg _
    · exact step.attempt_le (made.usesPolicy clock) before
  grants := moved.confined (made.createsThrough clock) holds.grants

theorem Run.capacities {history : List Daemon.Event}
    (run : daemon.Run history db) : daemon.Capacities db :=
  run.reachable.invariant daemon.Capacities daemon.capacities_migrated
    fun _ _ _ _ holds made moved => holds.transition made moved

theorem Capacities.enforces (holds : daemon.Capacities db)
    (stocked : daemon.Stocked db) : daemon.Enforces db where
  slots := holds.slots.total
  tenantSlots tenant known := by
    obtain ⟨row, found⟩ := Option.ne_none_iff_exists'.mp known
    obtain ⟨member, rfl⟩ := Database.findTenant_eq_some_iff.mp found
    have counted := holds.slots.tenants row member
    have single := holds.slots.single row member
    rw [daemon.bounded.activeTenant]
    omega
  workerSlots := holds.slots.workers
  queue := holds.queue.queued
  tenantQueue := holds.queue.tenantQueued
  outstanding := holds.queue.outstanding
  attempts row member := by
    have few := holds.attempts row member
    rw [daemon.bounded.claimPolicy_eq] at few
    exact few
  stocked := stocked
  grants := holds.grants

/-- The framework hands on no upload beyond the configured body limit. -/
def bodyLimited (daemon : Daemon) (step : Step) : Bool :=
  match step.action with
  | .request ⟨_, .uploadModule (.ok bytes)⟩ _ =>
      decide (bytes.length ≤ daemon.config.server.maxModuleBytes.toNat)
  | _ => true

/-- What is uploaded came as the body of its request. -/
theorem length_of_bodyLimited {step : Step} {tenant : Uuid} {digest : Digest}
    {bytes : List UInt8} (limited : daemon.bodyLimited step = true)
    (made : daemon.command step = some (.putModule tenant digest bytes)) :
    bytes.length ≤ daemon.config.server.maxModuleBytes.toNat := by
  obtain ⟨action, clock⟩ := step
  cases action with
  | request request fresh =>
      simp only [Daemon.command, Option.map_eq_some_iff,
        Except.toOption_eq_some_iff] at made
      obtain ⟨call, responded, asked⟩ := made
      obtain ⟨_, _, _, called⟩ := made_of_respond responded
      obtain ⟨headers, route⟩ := request
      obtain rfl := called.uploads _ _ _ asked
      exact of_decide_eq_true limited
  | sweep => simp [Daemon.command] at made
  | outside command apart =>
      simp only [Daemon.command, Option.some.injEq] at made
      simp [made, Command.outside] at apart

/-- With uploads limited, no larger module is stored. -/
theorem Run.modules_limited {history : List Daemon.Event}
    (run : daemon.Run history db)
    (limited : ∀ event ∈ history, daemon.bodyLimited event.call = true) :
    ∀ row ∈ db.modules.rows,
      row.wasm.length ≤ daemon.config.server.maxModuleBytes.toNat := by
  have reached : Reachable daemon.sha256 (fun _ call => ∃ step,
      daemon.bodyLimited step = true ∧ daemon.call step = some call) db :=
    ⟨_, (Execution.narrow limited run).project daemon.projects⟩
  refine reached.invariant (fun db => ∀ row ∈ db.modules.rows,
    row.wasm.length ≤ daemon.config.server.maxModuleBytes.toNat)
    (by simp [Database.migrated, Table.empty]) ?_
  rintro db next ⟨command, clock⟩ response holds ⟨step, within, called⟩ moved
  simp only [Daemon.call, Option.map_eq_some_iff, Call.mk.injEq] at called
  obtain ⟨_, made, rfl, _⟩ := called
  cases moved with
  | moduleCreated _ inserted =>
      intro row member
      rcases inserted.mem_iff.mp member with stored | rfl
      · exact holds row stored
      · exact length_of_bodyLimited within made
  | _ => exact holds

end Daemon

/-- In every state of every run of the daemon the slots taken, the queues, the
attempts, the modules, the runs and the grants are within the configuration; so
is the length of every module when the framework limits the bodies of uploads;
and every effect the broker reserved authority for creates a ticket in a
configured project of a configured destination. -/
theorem configuration_enforced {daemon : Daemon}
    {history : List Daemon.Event} {db : Database}
    (run : daemon.Run history db) :
    daemon.Enforces db ∧
    ((∀ event ∈ history, daemon.bodyLimited event.call = true) →
      ∀ row ∈ db.modules.rows,
        row.wasm.length ≤ daemon.config.server.maxModuleBytes.toNat) ∧
    ∀ event ∈ history, ∀ request, event.call.action =
        .outside (.reserveGrantChain request) rfl →
      ∀ next, event.before.perform daemon.sha256
          ⟨.reserveGrantChain request, event.call.clock⟩ =
        (.ok (.reservation .created), next) →
      ∃ effect, event.before.findEffect request.tenant request.run
          request.ordinal = some effect ∧
        effect.action = "ticket.create" ∧
        daemon.config.Configures effect.destination effect.project := by
  refine ⟨(Daemon.Run.capacities run).enforces (Daemon.Run.stocked run),
    Daemon.Run.modules_limited run, ?_⟩
  intro event member request _ next performed
  obtain ⟨_, _, earlier, _⟩ := run.split_mem member
  have forest := (Daemon.Run.reachable earlier).grantForest
  have confined := (Daemon.Run.capacities earlier).grants
  have moved := Database.transition_of_perform performed
  obtain ⟨effect, found, row, stored, action, destination, project⟩ :=
    moved.reservation_authorised forest
  exact ⟨effect, found, confined.actions row stored effect.action action,
    confined.pairs row stored effect.destination destination effect.project
      project⟩

namespace Sample

/-- The broker prepares an effect of the leased run. -/
def preparing : List Step :=
  steps ++ [⟨.outside (.prepareEffect ⟨1, 20, 0, Digest.zero, "ticket.create",
    "tickets-idem", "DEMO", "provider"⟩) rfl, fun _ => 5⟩]

/-- The broker reserves authority for it. -/
def reserve : Step := ⟨.outside (.reserveGrantChain ⟨1, 20, 0⟩) rfl, fun _ => 5⟩

end Sample

/-- One run leased, one module stored and one effect reserved. -/
theorem configuration_enforced_reserved :
    (Sample.reached (Sample.preparing ++ [Sample.reserve])).activeTotal ≤ 4 ∧
      (∀ row ∈ (Sample.reached
        (Sample.preparing ++ [Sample.reserve])).modules.rows,
          row.wasm.length ≤ 2097152) ∧
      ∃ effect, (Sample.reached Sample.preparing).findEffect 1 20 0 =
          some effect ∧ effect.action = "ticket.create" ∧
        Sample.daemon.config.Configures effect.destination effect.project := by
  obtain ⟨enforces, modules, reserved⟩ := configuration_enforced
    (Sample.run_reached (Sample.preparing ++ [Sample.reserve]))
  refine ⟨enforces.slots, modules ?_, ?_⟩
  · have limited : ∀ step ∈ Sample.preparing ++ [Sample.reserve],
        Sample.daemon.bodyLimited step = true := by
      decide +kernel
    intro event member
    exact limited _ (call_mem_of_performAll member)
  · have created : ((Sample.reached Sample.preparing).perform
        Sample.daemon.sha256 ⟨.reserveGrantChain ⟨1, 20, 0⟩, fun _ => 5⟩).1 =
          .ok (.reservation .created) :=
      Except.eq_ok_of_toOption (by decide +kernel)
    generalize performed : (Sample.reached Sample.preparing).perform
      Sample.daemon.sha256 ⟨.reserveGrantChain ⟨1, 20, 0⟩, fun _ => 5⟩ = done
      at created
    obtain ⟨outcome, next⟩ := done
    obtain rfl := created
    have authorised := reserved _
      (Sample.last_mem Sample.preparing Sample.reserve) ⟨1, 20, 0⟩ rfl next
    dsimp only [Sample.reserve] at authorised
    exact authorised performed

end Control

end EffectLatch
