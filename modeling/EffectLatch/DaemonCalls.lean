import EffectLatch.ConfigurationConfinement
import EffectLatch.QueueCapacity
import EffectLatch.RoleConfinement

/-!
# The store calls of the daemon

What the daemon and its surroundings ask of the store, with what the accepted
configuration and the accepted principal file say about the arguments.  A run of
the daemon is a run of the store with such calls only.
-/

namespace EffectLatch

namespace Control

/-! ## The configuration -/

/-- The bounds an accepted configuration keeps. -/
structure Config.Bounded (config : Config) : Prop where
  pendingGlobal : 1 ≤ config.limits.maxPendingGlobal.toNat ∧
    config.limits.maxPendingGlobal.toNat ≤ 1000
  pendingTenant : 1 ≤ config.limits.maxPendingPerTenant.toNat ∧
    config.limits.maxPendingPerTenant.toNat ≤ 100
  ordered : config.limits.maxPendingPerTenant.toNat ≤
    config.limits.maxPendingGlobal.toNat
  activeGlobal : 1 ≤ config.limits.maxActiveGlobal.toNat ∧
    config.limits.maxActiveGlobal.toNat ≤ 4
  activeTenant : config.limits.maxActivePerTenant.toNat = 1
  attempts : 1 ≤ config.limits.maxAttempts.toNat ∧
    config.limits.maxAttempts.toNat ≤ 3
  lease : 1 ≤ config.limits.leaseMs.toNat ∧ config.limits.leaseMs.toNat ≤ 6000

theorem Config.bounded_of_validate {parsers : Parsers} {config : Config}
    (validated : config.validate parsers = .ok ()) : config.Bounded := by
  simp only [validate, Except.bind_eq_ok_iff, Except.require_eq_ok_iff,
    bounded, List.all_cons, List.all_nil, Bool.and_eq_true, bne_iff_ne,
    decide_eq_true_eq, ne_eq] at validated
  obtain ⟨_, ⟨⟨_, _, pendingGlobal, pendingTenant, activeGlobal, activeTenant,
    attempts, lease, _⟩, _, ordered, _⟩, _⟩ := validated
  have settled {setting : UInt64} {most : UInt64}
      (within : ¬ setting = 0 ∧ setting ≤ most) :
      1 ≤ setting.toNat ∧ setting.toNat ≤ most.toNat := by
    refine ⟨Nat.pos_of_ne_zero fun zero => within.1 ?_,
      UInt64.le_iff_toNat_le.mp within.2⟩
    exact UInt64.toNat_inj.mp zero
  exact
    { pendingGlobal := settled pendingGlobal
      pendingTenant := settled pendingTenant
      ordered := UInt64.le_iff_toNat_le.mp ordered
      activeGlobal := settled activeGlobal
      activeTenant := le_antisymm (settled activeTenant).2
        (settled activeTenant).1
      attempts := settled attempts
      lease := settled lease }

/-- A small setting survives the cast to a byte. -/
theorem toNat_toUInt8 {setting : UInt64} (small : setting.toNat < 256) :
    setting.toUInt8.toNat = setting.toNat := by
  rw [UInt64.toNat_toUInt8]
  exact Nat.mod_eq_of_lt small

/-- What the admissions, claims and sweeps of the daemon share. -/
def Config.queueLimits (config : Config) : QueueLimits where
  maxPendingGlobal := config.limits.maxPendingGlobal.toNat
  maxPendingTenant := config.limits.maxPendingPerTenant.toNat
  maxActiveGlobal := config.limits.maxActiveGlobal.toNat

namespace Config.Bounded

variable {config : Config} (bounded : config.Bounded)

include bounded

theorem claimPolicy_eq : (ApiState.new config).claimPolicy =
    ⟨config.limits.maxActiveGlobal.toNat, 1, config.limits.maxAttempts.toNat,
      config.limits.leaseMs.toNat⟩ := by
  have activeGlobal := bounded.activeGlobal
  have activeTenant := bounded.activeTenant
  have attempts := bounded.attempts
  simp only [ApiState.claimPolicy, ApiState.new, ClaimPolicy.mk.injEq]
  refine ⟨toNat_toUInt8 (by omega), ?_, toNat_toUInt8 (by omega), trivial⟩
  rw [toNat_toUInt8 (by omega), activeTenant]

theorem reapPolicy_valid : config.reapPolicy.Valid := by
  have attempts := bounded.attempts
  refine ⟨?_, bounded.pendingGlobal, bounded.pendingTenant, bounded.ordered⟩
  simp only [reapPolicy]
  rw [toNat_toUInt8 (by omega)]
  exact attempts

end Config.Bounded

namespace Daemon

variable {daemon : Daemon}

theorem bounded (daemon : Daemon) : daemon.config.Bounded := by
  obtain ⟨_, accepted⟩ := daemon.configured
  simp only [Config.parse, Except.bind_eq_ok_iff, Except.require_eq_ok_iff,
    Except.fetch_eq_ok_iff, Except.pure_eq_ok_iff] at accepted
  obtain ⟨_, _, _, _, _, _, _, validated, rfl⟩ := accepted
  exact Config.bounded_of_validate validated

/-! ## Principals -/

/-- What an accepted principal file says of the principals it gives. -/
structure Known (principal : Auth.Principal) : Prop where
  named : identifier principal.id = true
  worker : ∀ workerId tenants, principal.authority = .worker workerId tenants →
    workerIdentifier workerId = true ∧ tenants.toList ≠ [] ∧
      tenants.toList.length ≤ 1024

theorem known_of_gives {codecs : TextCodecs} {record : Auth.Record}
    {principal : Auth.Principal} (shape : record.WellFormed codecs)
    (gives : record.Gives codecs principal) : Known principal := by
  obtain ⟨same, given⟩ := gives
  refine ⟨same ▸ shape.named, ?_⟩
  intro workerId tenants role
  rw [role] at given
  unfold Auth.Record.authority at given
  split at given
  · simp only [Except.bind_eq_ok_iff] at given
    obtain ⟨_, _, _, _, _, _, given⟩ := given
    split at given
    · simp only [Except.bind_eq_ok_iff, Except.pure_eq_ok_iff] at given
      obtain ⟨_, _, given⟩ := given
      simp at given
    · simp at given
  · split at given
    · simp only [Except.bind_eq_ok_iff, Except.fetch_eq_ok_iff,
        Except.require_eq_ok_iff, Except.pure_eq_ok_iff, Auth.ids] at given
      obtain ⟨_, _, _, ⟨_, few, found, _, _, all, rfl⟩, _, ⟨named, some⟩, same⟩ :=
        given
      simp only [Auth.Authority.worker.injEq] at same
      obtain ⟨rfl, rfl⟩ := same
      refine ⟨named, ?_, ?_⟩
      · intro empty
        exact some (List.length_eq_zero_iff.mpr empty)
      · change (OrderedSet.ofList found).card ≤ 1024
        omega
    · simp at given

theorem Credits.known {headers : Api.Headers} {principal : Auth.Principal}
    (credits : daemon.Credits headers principal) : Known principal := by
  obtain ⟨_, file, record, _, _, mapped, listed, member, _, _, _, gives⟩ :=
    credits
  obtain ⟨_, other, otherListed, _, loaded, _⟩ :=
    Auth.Principals.parse_eq_ok_iff.mp mapped
  obtain rfl := Option.some.inj (listed.symm.trans otherListed)
  exact known_of_gives (loaded.wellFormed record member) gives

/-! ## Calls -/

/-- The commands that reach the store. -/
inductive Makes (daemon : Daemon) : Command → Prop
  | requested {fresh : Uuid} {principal : Auth.Principal} {command : Command}
      (known : Known principal)
      (issues : Api.Issues daemon.service fresh principal command) :
      Makes daemon command
  | swept : Makes daemon (.reapOne daemon.config.reapPolicy)
  | outside {command : Command} (apart : command.outside = true) :
      Makes daemon command

/-- What a served request asked of the store, and how its outcome is worded. -/
theorem made_of_respond {request : Api.Request} {fresh : Uuid}
    {call : StoreCall}
    (responded : Api.respond daemon.service fresh request = .ok call) :
    ∃ principal, daemon.Credits request.headers principal ∧ Known principal ∧
      Api.Made daemon.service fresh principal request.route call := by
  obtain ⟨principal, authenticated, made⟩ := Api.respond_eq_ok responded
  have credits := credits_of_authenticate authenticated
  exact ⟨principal, credits, credits.known, made⟩

theorem makes_of_command {step : Step} {command : Command}
    (made : daemon.command step = some command) : daemon.Makes command := by
  obtain ⟨action, clock⟩ := step
  cases action with
  | request request fresh =>
      simp only [Daemon.command, Option.map_eq_some_iff,
        Except.toOption_eq_some_iff] at made
      obtain ⟨call, responded, rfl⟩ := made
      obtain ⟨_, _, known, called⟩ := made_of_respond responded
      exact .requested known called.issues
  | sweep =>
      simp only [Daemon.command, Option.some.injEq] at made
      exact made ▸ .swept
  | outside command apart =>
      simp only [Daemon.command, Option.some.injEq] at made
      exact .outside (made ▸ apart)

/-- The store under a run of the daemon. -/
theorem Run.reachable {history : List Daemon.Event} {db : Database}
    (run : daemon.Run history db) :
    Reachable daemon.sha256 (fun _ call => daemon.Makes call.command) db := by
  refine ⟨_, (run.project daemon.projects).weaken ?_⟩
  rintro state call ⟨step, _, made⟩
  simp only [Daemon.call, Option.map_eq_some_iff] at made
  obtain ⟨command, asked, rfl⟩ := made
  exact makes_of_command asked

namespace Makes

variable {command : Command}

theorem usesLimits (made : daemon.Makes command) (clock : Clock) :
    (⟨command, clock⟩ : Call).usesLimits daemon.config.queueLimits = true := by
  have policy := daemon.bounded.claimPolicy_eq
  cases made with
  | requested _ issues =>
      cases issues with
      | submitted _ _ _ _ => exact decide_eq_true ⟨rfl, rfl⟩
      | claimed _ =>
          refine decide_eq_true ?_
          change (ApiState.new daemon.config).claimPolicy.maxActiveGlobal = _
          rw [policy]
          rfl
      | _ => rfl
  | swept => exact decide_eq_true ⟨rfl, rfl⟩
  | outside apart =>
      cases command <;> first | rfl | simp [Command.outside] at apart

theorem usesPolicy (made : daemon.Makes command) (clock : Clock) :
    (⟨command, clock⟩ : Call).usesPolicy
      (ApiState.new daemon.config).claimPolicy daemon.config.reapPolicy =
        true := by
  cases made with
  | requested _ issues =>
      cases issues with
      | claimed _ => exact decide_eq_true rfl
      | _ => rfl
  | swept => exact decide_eq_true rfl
  | outside apart =>
      cases command <;> first | rfl | simp [Command.outside] at apart

theorem createsThrough (made : daemon.Makes command) (clock : Clock) :
    CreatesThrough daemon.parsers
      (Bounds.fromConfig daemon.config.adapters) ⟨command, clock⟩ := by
  cases made with
  | requested _ issues =>
      cases issues with
      | @delegated _ _ payload _ _ normalized =>
          refine ⟨payload, ?_⟩
          change GrantCreate.normalize daemon.parsers
            (Bounds.fromConfig daemon.config.adapters) payload = _ at normalized
          rw [create, normalized]
          rfl
      | _ => exact trivial
  | swept => exact trivial
  | outside apart =>
      cases command <;> first | exact trivial | simp [Command.outside] at apart

end Makes

end Daemon

end Control

end EffectLatch
