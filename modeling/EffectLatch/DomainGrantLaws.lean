import EffectLatch.DomainGrants
import Mathlib.Data.List.Chain

/-!
# Laws of the grant checks

What a successful chain validation and a successful reservation plan say about
the chain, and the order structure of attenuation.
-/

namespace EffectLatch

namespace Authority

theorem attenuates_refl (authority : Authority) :
    authority.attenuates authority :=
  ⟨OrderedSet.subset_refl _, OrderedSet.subset_refl _, OrderedSet.subset_refl _,
    Int64.le_refl _, UInt64.le_refl _⟩

theorem attenuates_trans {first second third : Authority}
    (left : first.attenuates second) (right : second.attenuates third) :
    first.attenuates third :=
  ⟨OrderedSet.subset_trans left.1 right.1,
    OrderedSet.subset_trans left.2.1 right.2.1,
    OrderedSet.subset_trans left.2.2.1 right.2.2.1,
    Int64.le_trans left.2.2.2.1 right.2.2.2.1,
    UInt64.le_trans left.2.2.2.2 right.2.2.2.2⟩

end Authority

/-- What the chain loop checks of the grant at one position. -/
structure LinkOk (tenant : Uuid) (nowMs : Int64) (index : Nat)
    (seen : List Uuid) (previous : Option Grant) (grant : Grant) : Prop where
  tenantEq : grant.tenantId = tenant
  depthEq : grant.depth.toNat = index
  fresh : grant.id ∉ seen
  parentEq : grant.parentId = previous.map Grant.id
  unrevoked : grant.revoked = false
  unexpired : nowMs < grant.authority.expiresAtMs
  withinBudget : grant.usedEffects ≤ grant.authority.maxEffects
  attenuated : ∀ parent ∈ previous, grant.authority.attenuates parent.authority

/-- What the chain loop checks from one position on. -/
def LinksOk (tenant : Uuid) (nowMs : Int64) :
    Nat → List Uuid → Option Grant → List Grant → Prop
  | _, _, _, [] => True
  | index, seen, previous, grant :: rest =>
      LinkOk tenant nowMs index seen previous grant ∧
        LinksOk tenant nowMs (index + 1) (grant.id :: seen) (some grant) rest

theorem validateLinks_eq_ok_iff {tenant : Uuid} {nowMs : Int64}
    {index : Nat} {seen : List Uuid} {previous : Option Grant}
    {chain : List Grant} {done : Unit} :
    validateLinks tenant nowMs index seen previous chain = .ok done ↔
      LinksOk tenant nowMs index seen previous chain := by
  induction chain generalizing index seen previous with
  | nil => simp [validateLinks, LinksOk]
  | cons grant rest ih =>
      simp only [validateLinks, Except.bind_eq_ok_iff,
        Except.require_eq_ok_iff, ih, LinksOk]
      constructor
      · rintro ⟨_, identity, _, live, _, budget, _, attenuated, later⟩
        exact ⟨⟨identity.1, identity.2.1, identity.2.2.1, identity.2.2.2,
          live.1, live.2, budget, attenuated⟩, later⟩
      · rintro ⟨link, later⟩
        exact ⟨(), ⟨link.tenantEq, link.depthEq, link.fresh, link.parentEq⟩,
          (), ⟨link.unrevoked, link.unexpired⟩, (), link.withinBudget, (),
          link.attenuated, later⟩

theorem validateChain_eq_ok_iff {chain : List Grant} {tenant : Uuid}
    {nowMs : Int64} {done : Unit} :
    validateChain chain tenant nowMs = .ok done ↔
      (chain ≠ [] ∧ chain.length ≤ 5) ∧
        LinksOk tenant nowMs 0 [] none chain := by
  simp only [validateChain, Except.bind_eq_ok_iff, Except.require_eq_ok_iff,
    validateLinks_eq_ok_iff, exists_const]

namespace LinksOk

variable {tenant : Uuid} {nowMs : Int64} {index : Nat} {seen : List Uuid}
  {previous : Option Grant} {chain : List Grant}

/-- Every grant of a checked chain passed its own link check. -/
theorem exists_link (links : LinksOk tenant nowMs index seen previous chain)
    {grant : Grant} (member : grant ∈ chain) :
    ∃ index seen previous, LinkOk tenant nowMs index seen previous grant := by
  induction chain generalizing index seen previous with
  | nil => simp at member
  | cons head rest ih =>
      rcases List.mem_cons.mp member with rfl | later
      · exact ⟨index, seen, previous, links.1⟩
      · exact ih links.2 later

theorem ids_fresh (links : LinksOk tenant nowMs index seen previous chain) :
    (chain.map Grant.id).Nodup ∧ ∀ id ∈ chain.map Grant.id, id ∉ seen := by
  induction chain generalizing index seen previous with
  | nil => simp
  | cons head rest ih =>
      obtain ⟨distinct, apart⟩ := ih links.2
      rw [List.map_cons, List.nodup_cons]
      refine ⟨⟨?_, distinct⟩, ?_⟩
      · intro repeated
        exact apart head.id repeated List.mem_cons_self
      · intro id member
        rcases List.mem_cons.mp member with rfl | later
        · exact links.1.fresh
        · intro inSeen
          exact apart id later (List.mem_cons_of_mem head.id inSeen)

/-- A chain with one more grant passes when the chain does and the new grant
passes at the next position. -/
theorem append_singleton_iff {grant : Grant} :
    LinksOk tenant nowMs index seen previous (chain ++ [grant]) ↔
      LinksOk tenant nowMs index seen previous chain ∧
        LinkOk tenant nowMs (index + chain.length)
          ((chain.map Grant.id).reverse ++ seen) (chain.getLast?.or previous)
          grant := by
  induction chain generalizing index seen previous with
  | nil => simp [LinksOk]
  | cons head rest ih =>
      have position : index + 1 + rest.length =
          index + (head :: rest).length := by
        simp only [List.length_cons]
        omega
      have last : rest.getLast?.or (some head) =
          (head :: rest).getLast?.or previous := by
        cases rest with
        | nil => simp
        | cons second others => simp [List.getLast?_cons]
      have identities : (rest.map Grant.id).reverse ++ head.id :: seen =
          ((head :: rest).map Grant.id).reverse ++ seen := by
        simp
      rw [List.cons_append, LinksOk, LinksOk, ih, position, last, identities,
        and_assoc]

/-- Adjacent grants of a checked chain attenuate. -/
theorem isChain (links : LinksOk tenant nowMs index seen previous chain) :
    chain.IsChain fun parent child =>
      child.authority.attenuates parent.authority := by
  induction chain generalizing index seen previous with
  | nil => exact .nil
  | cons head rest ih =>
      refine (ih links.2).cons ?_
      intro next first
      cases rest with
      | nil => simp at first
      | cons second others =>
          obtain rfl : second = next := by simpa using first
          exact links.2.1.attenuated head rfl

/-- The leaf of a checked chain attenuates every grant on it. -/
theorem leaf_attenuates (links : LinksOk tenant nowMs index seen previous chain)
    {leaf : Grant} (last : chain.getLast? = some leaf) :
    ∀ grant ∈ chain, leaf.authority.attenuates grant.authority := by
  have transitive : Trans
      (fun parent child : Grant => child.authority.attenuates parent.authority)
      (fun parent child : Grant => child.authority.attenuates parent.authority)
      (fun parent child : Grant =>
        child.authority.attenuates parent.authority) :=
    ⟨fun upper lower => Authority.attenuates_trans lower upper⟩
  have ordered := List.isChain_iff_pairwise.mp links.isChain
  obtain ⟨front, rfl⟩ := List.getLast?_eq_some_iff.mp last
  intro grant member
  rcases List.mem_append.mp member with above | itself
  · exact (List.pairwise_append.mp ordered).2.2 grant above leaf (by simp)
  · rw [List.mem_singleton.mp itself]
    exact Authority.attenuates_refl _

end LinksOk

/-- An accepted lifetime ends after the current time. -/
theorem Authority.expiresAtMs_of_validate {authority : Authority}
    {nowMs : Int64} {done : Unit}
    (validated : authority.validate nowMs = .ok done) :
    nowMs < authority.expiresAtMs := by
  simp only [Authority.validate, Except.bind_eq_ok_iff,
    Except.require_eq_ok_iff, Except.fetch_eq_ok_iff] at validated
  obtain ⟨_, _, ttl, difference, positive, _⟩ := validated
  simp only [checkedSub] at difference
  split at difference
  next inRange =>
    rw [← Option.some.inj difference, Int64.lt_iff_toInt_lt,
      Int64.toInt_ofInt_of_le inRange.1 (Int.lt_of_le_sub_one inRange.2)]
      at positive
    rw [Int64.lt_iff_toInt_lt]
    have zero : Int64.toInt 0 = 0 := by decide
    omega
  next => simp at difference

theorem checkedAdd_one {used limit : UInt64} (left : used < limit) :
    (used + 1).toNat = used.toNat + 1 ∧ checkedAdd used 1 = some (used + 1) := by
  have one : (1 : UInt64).toNat = 1 := rfl
  have small := limit.toNat_lt
  have below := UInt64.lt_iff_toNat_lt.mp left
  have fits : used.toNat + 1 < 2 ^ 64 := by omega
  refine ⟨?_, ?_⟩
  · rw [UInt64.toNat_add, one, Nat.mod_eq_of_lt fits]
  · rw [checkedAdd, one, if_pos fits]

/-- A plan exists when every grant covers the effect and has budget left, and it
continues the count of each. -/
theorem planReservations_eq_ok_iff {action destination project : String}
    {chain : List Grant} {plan : List (Uuid × UInt64)} :
    planReservations action destination project chain = .ok plan ↔
      (∀ grant ∈ chain, action ∈ grant.authority.actions ∧
        destination ∈ grant.authority.destinations ∧
        project ∈ grant.authority.projects) ∧
      (∀ grant ∈ chain, grant.usedEffects < grant.authority.maxEffects) ∧
      plan = chain.map fun grant => (grant.id, grant.usedEffects + 1) := by
  induction chain generalizing plan with
  | nil =>
      simp only [planReservations, Except.pure_eq_ok_iff, List.not_mem_nil,
        false_imp_iff, implies_true, List.map_nil, true_and]
      exact eq_comm
  | cons grant rest ih =>
      simp only [planReservations, Except.bind_eq_ok_iff,
        Except.require_eq_ok_iff, Except.fetch_eq_ok_iff,
        Except.pure_eq_ok_iff, List.forall_mem_cons, List.map_cons, ih]
      constructor
      · rintro ⟨_, covered, _, left, next, counted, _, ⟨others, budgets, rfl⟩,
          rfl⟩
        rw [(checkedAdd_one left).2] at counted
        rw [Option.some.inj counted]
        exact ⟨⟨covered, others⟩, ⟨left, budgets⟩, rfl⟩
      · rintro ⟨⟨covered, others⟩, ⟨left, budgets⟩, rfl⟩
        exact ⟨(), covered, (), left, _, (checkedAdd_one left).2, _,
          ⟨others, budgets, rfl⟩, rfl⟩

/-- Every entry of a plan continues the count of a grant with budget left. -/
theorem counts_of_planReservations {action destination project : String}
    {chain : List Grant} {plan : List (Uuid × UInt64)}
    (planned : planReservations action destination project chain = .ok plan) :
    ∀ entry ∈ plan, ∃ grant ∈ chain, grant.id = entry.1 ∧
      grant.usedEffects < grant.authority.maxEffects ∧
      grant.usedEffects.toNat + 1 = entry.2.toNat := by
  obtain ⟨_, budgets, rfl⟩ := planReservations_eq_ok_iff.mp planned
  intro entry member
  obtain ⟨grant, stored, rfl⟩ := List.mem_map.mp member
  have left := budgets grant stored
  exact ⟨grant, stored, rfl, left, (checkedAdd_one left).1.symm⟩

/-- A planned effect is within the authority of every grant of the chain. -/
theorem authorised_of_planReservations {action destination project : String}
    {chain : List Grant} {plan : List (Uuid × UInt64)}
    (planned : planReservations action destination project chain = .ok plan) :
    ∀ grant ∈ chain, action ∈ grant.authority.actions ∧
      destination ∈ grant.authority.destinations ∧
      project ∈ grant.authority.projects :=
  (planReservations_eq_ok_iff.mp planned).1

/-- A reservation plan charges every grant of a valid chain once. -/
theorem reservationPlan_eq_ok {chain : List Grant} {tenant : Uuid}
    {nowMs : Int64} {action destination project : String}
    {plan : List (Uuid × UInt64)}
    (planned : reservationPlan chain tenant nowMs action destination project =
      .ok plan) :
    validateChain chain tenant nowMs = .ok () ∧
      plan.map Prod.fst = chain.map Grant.id := by
  simp only [reservationPlan, Except.bind_eq_ok_iff] at planned
  obtain ⟨_, validated, planned⟩ := planned
  obtain ⟨_, _, rfl⟩ := planReservations_eq_ok_iff.mp planned
  exact ⟨validated, by rw [List.map_map]; rfl⟩

end EffectLatch
