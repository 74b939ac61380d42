import EffectLatch.ControlConfiguration
import EffectLatch.StoreCalls

/-!
# Grant creation at the control boundary

The operator's configuration bounds every grant an owner may ask for, root or
child.  Grants hold destinations and projects as two sets, so the bound is on
all pairs of the two.
-/

namespace EffectLatch

namespace Control

structure Bounds where
  actions : OrderedSet String
  projectsByDestination : OrderedMap String (OrderedSet String)

namespace Bounds

def fromConfig (adapters : OrderedMap String Adapter) : Bounds where
  actions := OrderedSet.ofList ["ticket.create"]
  projectsByDestination := adapters.mapValues fun adapter =>
    OrderedSet.ofList adapter.projects

def permits (bounds : Bounds) (authority : Authority) : Bool :=
  decide (authority.actions ⊆ bounds.actions) &&
    authority.destinations.toList.all fun destination =>
      (bounds.projectsByDestination.get? destination).any fun projects =>
        decide (authority.projects ⊆ projects)

end Bounds

structure GrantCreate where
  actions : List String
  destinations : List String
  projects : List String
  expiresAt : String
  maxEffects : UInt64

/-- One to sixteen values. -/
def listed (values : List String) : Prop :=
  values ≠ [] ∧ values.length ≤ 16

instance (values : List String) : Decidable (listed values) :=
  inferInstanceAs (Decidable (_ ∧ _))

/-- Collect a set from a list without repeats. -/
def distinct (values : List String) : Except GrantError (OrderedSet String) := do
  let set := OrderedSet.ofList values
  Except.require (set.card = values.length) .invalid
  pure set

def GrantCreate.normalize (parsers : Parsers) (bounds : Bounds)
    (create : GrantCreate) : Except GrantError Authority := do
  Except.require
    (listed create.actions ∧ listed create.destinations ∧
      listed create.projects) .invalid
  let actions ← distinct create.actions
  let destinations ← distinct create.destinations
  let projects ← distinct create.projects
  let nanos ← Except.fetch (parsers.rfc3339 create.expiresAt) .invalid
  -- Rust divides towards zero
  let expiresAtMs := nanos.tdiv 1000000
  Except.require (i64Min ≤ expiresAtMs ∧ expiresAtMs ≤ i64Max) .invalid
  let authority : Authority :=
    { actions := actions
      destinations := destinations
      projects := projects
      expiresAtMs := Int64.ofInt expiresAtMs
      maxEffects := create.maxEffects }
  authority.validateShape
  Except.require (bounds.permits authority = true) .escalation
  pure authority

/-- The store call behind `create_root` and `create_child`, with the fresh
UUID the store picks. -/
def create (parsers : Parsers) (bounds : Bounds) (id tenant : Uuid)
    (parent : Option Uuid) (actorId : String) (payload : GrantCreate) :
    Except GrantError Command := do
  let authority ← payload.normalize parsers bounds
  pure (.createGrant id tenant parent actorId authority)

/-- Grants are created through the boundary; other calls are free. -/
def CreatesThrough (parsers : Parsers) (bounds : Bounds) (call : Call) : Prop :=
  match call.command with
  | .createGrant id tenant parent actorId authority =>
      ∃ payload, create parsers bounds id tenant parent actorId payload =
        .ok (.createGrant id tenant parent actorId authority)
  | _ => True

theorem permits_of_create {parsers : Parsers} {bounds : Bounds}
    {id tenant : Uuid} {parent : Option Uuid} {actorId : String}
    {payload : GrantCreate} {authority : Authority}
    (created : create parsers bounds id tenant parent actorId payload =
      .ok (.createGrant id tenant parent actorId authority)) :
    bounds.permits authority = true := by
  simp only [create, GrantCreate.normalize, Except.bind_eq_ok_iff,
    Except.require_eq_ok_iff, Except.pure_eq_ok_iff] at created
  obtain ⟨normalized, ⟨_, _, _, _, _, _, _, _, _, _, _, _, _, _, _, permitted,
    rfl⟩, same⟩ := created
  simp only [Command.createGrant.injEq, true_and] at same
  exact same ▸ permitted

/-- A permitted authority acts through tickets only, and all its pairs of
destination and project are configured. -/
theorem configures_of_permits {config : Config} {authority : Authority}
    (permitted : (Bounds.fromConfig config.adapters).permits authority =
      true) :
    (∀ action ∈ authority.actions, action = "ticket.create") ∧
      ∀ destination ∈ authority.destinations, ∀ project ∈ authority.projects,
        config.Configures destination project := by
  simp only [Bounds.permits, Bounds.fromConfig, Bool.and_eq_true,
    List.all_eq_true] at permitted
  constructor
  · intro action member
    have bound := OrderedSet.subset_iff.mp (of_decide_eq_true permitted.1)
      action member
    simpa using bound
  · intro destination member project projectMember
    have known := permitted.2 destination member
    rw [OrderedMap.get?_mapValues] at known
    cases found : config.adapters.get? destination with
    | none => simp [found] at known
    | some adapter =>
        simp only [found, Option.map_some, Option.any_some,
          decide_eq_true_eq] at known
        have bound := OrderedSet.subset_iff.mp known project projectMember
        exact ⟨adapter, found, OrderedSet.mem_ofList.mp bound⟩

end Control

end EffectLatch
