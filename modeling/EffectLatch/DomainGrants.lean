import EffectLatch.DomainTypes
import EffectLatch.ExceptResults
import EffectLatch.OrderedSets

/-!
# Grant checks

The pure grant checks of the domain crate: the shape and lifetime of an
authority, attenuation, the validation of a locked ancestry and the
all-ancestor reservation plan.
-/

namespace EffectLatch

structure Authority where
  actions : OrderedSet String
  destinations : OrderedSet String
  projects : OrderedSet String
  expiresAtMs : Int64
  maxEffects : UInt64
deriving DecidableEq

structure Grant where
  id : Uuid
  tenantId : Uuid
  parentId : Option Uuid
  depth : UInt8
  authority : Authority
  usedEffects : UInt64
  revoked : Bool
deriving DecidableEq

inductive GrantError where
  | invalid
  | escalation
  | ancestry
  | inactive
  | exhausted
  | denied
deriving DecidableEq

/-- `i64::checked_sub`. -/
def checkedSub (first second : Int64) : Option Int64 :=
  let difference := first.toInt - second.toInt
  if i64Min ≤ difference ∧ difference ≤ i64Max then
    some (Int64.ofInt difference)
  else
    none

/-- `u64::checked_add`. -/
def checkedAdd (first second : UInt64) : Option UInt64 :=
  if first.toNat + second.toNat < 2 ^ 64 then some (first + second) else none

namespace Authority

/-- A resource set of one to sixteen aliases. -/
def boundedAliases (set : OrderedSet String) : Bool :=
  set.card != 0 && set.card ≤ 16 && set.toList.all isAlias

def validateShape (authority : Authority) : Except GrantError Unit := do
  Except.require (1 ≤ authority.maxEffects ∧ authority.maxEffects ≤ 100)
    .invalid
  Except.require
    (authority.actions.card = 1 ∧ "ticket.create" ∈ authority.actions)
    .invalid
  Except.require (boundedAliases authority.destinations = true) .invalid
  Except.require (boundedAliases authority.projects = true) .invalid

def validate (authority : Authority) (nowMs : Int64) :
    Except GrantError Unit := do
  authority.validateShape
  let ttl ← Except.fetch (checkedSub authority.expiresAtMs nowMs) .invalid
  Except.require (0 < ttl ∧ ttl ≤ 86400000) .invalid

/-- The child asks for no more than the parent has. -/
def attenuates (child parent : Authority) : Prop :=
  child.actions ⊆ parent.actions ∧
    child.destinations ⊆ parent.destinations ∧
    child.projects ⊆ parent.projects ∧
    child.expiresAtMs ≤ parent.expiresAtMs ∧
    child.maxEffects ≤ parent.maxEffects

instance (child parent : Authority) : Decidable (child.attenuates parent) :=
  inferInstanceAs (Decidable (_ ∧ _))

end Authority

/-- The loop of `validateChain` from position `index` on, with the identities
seen so far and the grant at the preceding position. -/
def validateLinks (tenant : Uuid) (nowMs : Int64) :
    Nat → List Uuid → Option Grant → List Grant → Except GrantError Unit
  | _, _, _, [] => pure ()
  | index, seen, previous, grant :: rest => do
      Except.require
        (grant.tenantId = tenant ∧ grant.depth.toNat = index ∧
          grant.id ∉ seen ∧ grant.parentId = previous.map Grant.id)
        .ancestry
      Except.require
        (grant.revoked = false ∧ nowMs < grant.authority.expiresAtMs)
        .inactive
      Except.require (grant.usedEffects ≤ grant.authority.maxEffects) .invalid
      Except.require
        (∀ parent ∈ previous, grant.authority.attenuates parent.authority)
        .escalation
      validateLinks tenant nowMs (index + 1) (grant.id :: seen) (some grant)
        rest

/-- Validate structural identity and liveness, independently of remaining
budget. -/
def validateChain (chain : List Grant) (tenant : Uuid) (nowMs : Int64) :
    Except GrantError Unit := do
  Except.require (chain ≠ [] ∧ chain.length ≤ 5) .ancestry
  validateLinks tenant nowMs 0 [] none chain

def validateChild (child : Authority) (ancestry : List Grant) (tenant : Uuid)
    (nowMs : Int64) : Except GrantError Unit := do
  child.validate nowMs
  validateChain ancestry tenant nowMs
  Except.require (ancestry.length < 5) .ancestry
  Except.require (∀ grant ∈ ancestry, child.attenuates grant.authority)
    .escalation

/-- The loop of `reservationPlan`. -/
def planReservations (action destination project : String) :
    List Grant → Except GrantError (List (Uuid × UInt64))
  | [] => pure []
  | grant :: rest => do
      Except.require
        (action ∈ grant.authority.actions ∧
          destination ∈ grant.authority.destinations ∧
          project ∈ grant.authority.projects)
        .denied
      Except.require (grant.usedEffects < grant.authority.maxEffects)
        .exhausted
      let next ← Except.fetch (checkedAdd grant.usedEffects 1) .exhausted
      let plan ← planReservations action destination project rest
      pure ((grant.id, next) :: plan)

/-- Return an all-ancestor reservation plan without mutating partial state. -/
def reservationPlan (chain : List Grant) (tenant : Uuid) (nowMs : Int64)
    (action destination project : String) :
    Except GrantError (List (Uuid × UInt64)) := do
  validateChain chain tenant nowMs
  planReservations action destination project chain

end EffectLatch
