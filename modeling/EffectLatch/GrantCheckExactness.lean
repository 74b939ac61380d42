import EffectLatch.GrantForestInvariant

/-!
# Exactness of the grant checks

A plan asks every ancestor for the effect, and creation compares a child with
every ancestor; a chain check compares neighbours only.  Attenuation is
transitive, so the leaf speaks for its ancestry and the checks agree.
-/

namespace EffectLatch

/-- What an effect needs of a chain: it is valid, its leaf covers the effect and
no grant on it is used up. -/
structure Reservable (chain : List Grant) (tenant : Uuid) (nowMs : Int64)
    (action destination project : String) : Prop where
  valid : validateChain chain tenant nowMs = .ok ()
  leaf : ∃ leaf, chain.getLast? = some leaf ∧
    action ∈ leaf.authority.actions ∧
    destination ∈ leaf.authority.destinations ∧
    project ∈ leaf.authority.projects
  budget : ∀ grant ∈ chain, grant.usedEffects < grant.authority.maxEffects

/-- The new count of every grant on the chain, root first. -/
def nextCounts (chain : List Grant) : List (Uuid × UInt64) :=
  chain.map fun grant => (grant.id, grant.usedEffects + 1)

/-- What the leaf of a valid chain covers, every grant on it covers. -/
theorem covered_of_leaf {chain : List Grant} {tenant : Uuid} {nowMs : Int64}
    {action destination project : String} {leaf : Grant}
    (valid : validateChain chain tenant nowMs = .ok ())
    (last : chain.getLast? = some leaf)
    (covered : action ∈ leaf.authority.actions ∧
      destination ∈ leaf.authority.destinations ∧
      project ∈ leaf.authority.projects) :
    ∀ grant ∈ chain, action ∈ grant.authority.actions ∧
      destination ∈ grant.authority.destinations ∧
      project ∈ grant.authority.projects := by
  intro grant member
  have links := (validateChain_eq_ok_iff.mp valid).2
  obtain ⟨actions, destinations, projects, _⟩ :=
    links.leaf_attenuates last grant member
  exact ⟨actions action covered.1, destinations destination covered.2.1,
    projects project covered.2.2⟩

/-- A plan is made exactly when the chain is valid, its leaf covers the effect
and every grant has budget left.  It is then the next count of every grant, root
first, each grant once, within the budget and without overflow. -/
theorem reservationPlan_exact (chain : List Grant) (tenant : Uuid)
    (nowMs : Int64) (action destination project : String) :
    (∀ plan, reservationPlan chain tenant nowMs action destination project =
        .ok plan ↔
      Reservable chain tenant nowMs action destination project ∧
        plan = nextCounts chain) ∧
    (Reservable chain tenant nowMs action destination project →
      ((nextCounts chain).map Prod.fst).Nodup ∧
      ∀ grant ∈ chain,
        (grant.usedEffects + 1).toNat = grant.usedEffects.toNat + 1 ∧
        grant.usedEffects + 1 ≤ grant.authority.maxEffects) := by
  constructor
  · intro plan
    simp only [reservationPlan, Except.bind_eq_ok_iff,
      planReservations_eq_ok_iff]
    constructor
    · rintro ⟨_, valid, covered, budget, rfl⟩
      have nonempty := (validateChain_eq_ok_iff.mp valid).1.1
      have last := List.getLast?_eq_some_getLast nonempty
      exact ⟨⟨valid, ⟨_, last, covered _ (List.getLast_mem nonempty)⟩, budget⟩,
        rfl⟩
    · rintro ⟨⟨valid, ⟨leaf, last, covered⟩, budget⟩, rfl⟩
      exact ⟨(), valid, covered_of_leaf valid last covered, budget, rfl⟩
  · intro reservable
    have links := (validateChain_eq_ok_iff.mp reservable.valid).2
    refine ⟨?_, ?_⟩
    · have ids : (nextCounts chain).map Prod.fst = chain.map Grant.id := by
        rw [nextCounts, List.map_map]
        rfl
      rw [ids]
      exact links.ids_fresh.1
    · intro grant member
      have left := reservable.budget grant member
      have counted := (checkedAdd_one left).1
      refine ⟨counted, ?_⟩
      rw [UInt64.le_iff_toNat_le, counted]
      exact UInt64.lt_iff_toNat_lt.mp left

/-- The grant `create_grant` appends to the ancestry it loaded. -/
def appendedGrant (id tenant : Uuid) (parent : Option Uuid)
    (ancestry : List Grant) (authority : Authority) : Grant where
  id := id
  tenantId := tenant
  parentId := parent
  depth := UInt8.ofNat ancestry.length
  authority := authority
  usedEffects := 0
  revoked := false

/-- The row creation inserts decodes to the grant it appends. -/
theorem decoded_createdGrantRow (id tenant : Uuid) (parent : Option Uuid)
    (ancestry : List Grant) (authority : Authority) :
    (createdGrantRow id tenant parent ancestry.length authority).decoded =
      appendedGrant id tenant parent ancestry authority := by
  have carried := (GrantRow.carries_createdGrantRow id tenant parent
    ancestry.length authority).authority_eq
  rw [GrantRow.decoded, carried]
  rfl

/-- An appended grant stands below its ancestry when it attenuates the last
grant of it and outlives the clock. -/
theorem linkOk_appendedGrant_iff {ancestry : List Grant} {tenant id : Uuid}
    {nowMs : Int64} {child : Authority} (few : ancestry.length < 5)
    (fresh : id ∉ ancestry.map Grant.id) :
    LinkOk tenant nowMs (0 + ancestry.length)
        ((ancestry.map Grant.id).reverse ++ []) (ancestry.getLast?.or none)
        (appendedGrant id tenant (ancestry.getLast?.map Grant.id) ancestry
          child) ↔
      nowMs < child.expiresAtMs ∧
        ∀ leaf ∈ ancestry.getLast?, child.attenuates leaf.authority := by
  rw [Option.or_none, List.append_nil, Nat.zero_add]
  constructor
  · intro link
    exact ⟨link.unexpired, link.attenuated⟩
  · rintro ⟨unexpired, attenuated⟩
    have depth : (UInt8.ofNat ancestry.length).toNat = ancestry.length :=
      UInt8.toNat_ofNat_of_lt' (by simp only [UInt8.size]; omega)
    exact
      { tenantEq := rfl
        depthEq := depth
        fresh := by simpa [appendedGrant] using fresh
        parentEq := rfl
        unrevoked := rfl
        unexpired := unexpired
        withinBudget := UInt64.zero_le
        attenuated := attenuated }

/-- The chain of an accepted child is valid with the grant creation appends. -/
theorem validateChain_of_validateChild {ancestry : List Grant}
    {tenant id : Uuid} {nowMs : Int64} {child : Authority}
    (accepted : validateChild child ancestry tenant nowMs = .ok ())
    (fresh : id ∉ ancestry.map Grant.id) :
    validateChain (ancestry ++
      [appendedGrant id tenant (ancestry.getLast?.map Grant.id) ancestry
        child]) tenant nowMs = .ok () := by
  simp only [validateChild, Except.bind_eq_ok_iff, Except.require_eq_ok_iff,
    validateChain_eq_ok_iff] at accepted
  obtain ⟨_, valid, _, ⟨_, links⟩, _, few, attenuated⟩ := accepted
  rw [validateChain_eq_ok_iff, LinksOk.append_singleton_iff,
    linkOk_appendedGrant_iff few fresh]
  have sized : (ancestry ++ [appendedGrant id tenant
      (ancestry.getLast?.map Grant.id) ancestry child]).length ≤ 5 := by
    rw [List.length_append, List.length_singleton]
    exact few
  refine ⟨⟨by simp, sized⟩, links, Authority.expiresAtMs_of_validate valid, ?_⟩
  intro leaf last
  exact attenuated leaf (List.mem_of_getLast? last)

/-- A child whose appended grant makes a valid chain is accepted. -/
theorem validateChild_of_validateChain {ancestry : List Grant}
    {tenant id : Uuid} {nowMs : Int64} {child : Authority} {leaf : Grant}
    (last : ancestry.getLast? = some leaf) (fresh : id ∉ ancestry.map Grant.id)
    (accepted : child.validate nowMs = .ok ())
    (valid : validateChain (ancestry ++
      [appendedGrant id tenant (ancestry.getLast?.map Grant.id) ancestry
        child]) tenant nowMs = .ok ()) :
    validateChild child ancestry tenant nowMs = .ok () := by
  rw [validateChain_eq_ok_iff, LinksOk.append_singleton_iff,
    List.length_append, List.length_singleton] at valid
  obtain ⟨⟨_, few⟩, links, link⟩ := valid
  have nonempty : ancestry ≠ [] := List.ne_nil_of_mem (List.mem_of_getLast? last)
  have attenuated := ((linkOk_appendedGrant_iff few fresh).mp link).2 leaf last
  simp only [validateChild, Except.bind_eq_ok_iff, Except.require_eq_ok_iff,
    validateChain_eq_ok_iff]
  refine ⟨(), accepted, (), ⟨⟨nonempty, by omega⟩, links⟩, (), few, ?_⟩
  intro grant member
  exact Authority.attenuates_trans attenuated
    (links.leaf_attenuates last grant member)

/-- A child is accepted exactly when its authority is valid and the chain with
the grant that creation would append is. -/
theorem validateChild_agrees {ancestry : List Grant} {id : Uuid}
    (nonempty : ancestry ≠ []) (fresh : id ∉ ancestry.map Grant.id)
    (tenant : Uuid) (nowMs : Int64) (child : Authority) :
    validateChild child ancestry tenant nowMs = .ok () ↔
      child.validate nowMs = .ok () ∧
        validateChain (ancestry ++
          [appendedGrant id tenant (ancestry.getLast?.map Grant.id) ancestry
            child]) tenant nowMs = .ok () := by
  constructor
  · intro accepted
    refine ⟨?_, validateChain_of_validateChild accepted fresh⟩
    simp only [validateChild, Except.bind_eq_ok_iff] at accepted
    obtain ⟨_, valid, _⟩ := accepted
    exact valid
  · rintro ⟨accepted, valid⟩
    exact validateChild_of_validateChain
      (List.getLast?_eq_some_getLast nonempty) fresh accepted valid

theorem validateChild_agrees_delegation :
    validateChild ⟨OrderedSet.ofList ["ticket.create"],
        OrderedSet.ofList ["tickets-idem"], OrderedSet.ofList ["DEMO"], 900, 2⟩
      [appendedGrant 1 2 none [] Sample.authority] 2 1 = .ok () := by
  have fresh : (3 : Uuid) ∉ [appendedGrant 1 2 none [] Sample.authority].map
      Grant.id := by
    decide
  exact (validateChild_agrees (by simp) fresh 2 1 _).mpr (by decide +kernel)

namespace Database

variable {db : Database} {clock : Clock} {command : Command}

/-- The ancestry a child is created under ends with its parent. -/
theorem GrantForest.last_of_load (forest : db.GrantForest)
    {tenant parent : Uuid} {ancestry : List Grant}
    (loaded : db.loadGrantChainLocked tenant parent = .ok ancestry) :
    ancestry.getLast?.map Grant.id = some parent := by
  obtain ⟨path, lineage, rfl⟩ := forest.exists_of_load loaded
  obtain ⟨row, found⟩ :=
    forest.known_of_ancestry lineage parent lineage.self_mem
  rw [List.getLast?_map, (forest.linksOk lineage).2, found]
  exact congrArg some (findGrant_eq_some_iff.mp found).2.2

/-- The chain a child is created under stays valid with the child's row. -/
theorem GrantForest.validateChain_created (forest : db.GrantForest)
    {row : GrantRow} {parent : Uuid}
    (creation : db.GrantCreation clock command row)
    (link : row.parentId = some parent) :
    ∃ ancestry nowMs,
      db.loadGrantChainLocked row.tenantId parent = .ok ancestry ∧
      epochMs (clock 0) = .ok nowMs ∧
      validateChain (ancestry ++ [row.decoded]) row.tenantId nowMs =
        .ok () := by
  cases creation with
  | @created id tenant under _ authority ancestry nowMs loaded _ now validated
      fresh =>
      change under = some parent at link
      subst link
      refine ⟨ancestry, nowMs, loaded, now, ?_⟩
      have last := forest.last_of_load loaded
      have nonempty : ancestry ≠ [] := by
        rintro rfl
        simp at last
      rw [if_neg nonempty] at validated
      rw [decoded_createdGrantRow, ← last]
      apply validateChain_of_validateChild validated
      obtain ⟨path, lineage, rfl⟩ := forest.exists_of_load loaded
      intro repeated
      have ids : ((db.chainRows tenant path).map GrantRow.decoded).map
          Grant.id = path := by
        rw [List.map_map]
        exact forest.ids_chainRows lineage
      rw [ids] at repeated
      obtain ⟨row, found⟩ := forest.known_of_ancestry lineage id repeated
      rw [fresh] at found
      simp at found

end Database

end EffectLatch
