import EffectLatch.StoreReferences

/-!
# Stored grants and the authorities they carry

Creation writes an authority into columns and every later load decodes it.  The
decoding is faithful: a stored grant carries its decoded authority, and the
order of attenuation is the column-wise order of the rows.
-/

namespace EffectLatch

namespace GrantRow

/-- The authority the columns of a grant spell. -/
def authority (row : GrantRow) : Authority where
  actions := OrderedSet.ofList row.actions
  destinations := OrderedSet.ofList row.destinations
  projects := OrderedSet.ofList row.projects
  expiresAtMs := Int64.ofInt (row.expiresAt / 1000)
  maxEffects := UInt64.ofNat row.maxEffects.toNat

/-- The grant a row decodes to. -/
def decoded (row : GrantRow) : Grant where
  id := row.id
  tenantId := row.tenantId
  parentId := row.parentId
  depth := UInt8.ofNat row.depth.toNat
  authority := row.authority
  usedEffects := UInt64.ofNat row.usedEffects.toNat
  revoked := row.revokedAt.isSome

/-- The columns of the row are those written for the authority. -/
structure Carries (row : GrantRow) (authority : Authority) : Prop where
  actions : row.actions = authority.actions.toList
  destinations : row.destinations = authority.destinations.toList
  projects : row.projects = authority.projects.toList
  maxEffects : row.maxEffects = authority.maxEffects.toNat
  expiresAt : row.expiresAt = authority.expiresAtMs.toInt * 1000

/-- Column-wise, the row asks for no more than `above`. -/
structure Narrows (row above : GrantRow) : Prop where
  actions : row.actions ⊆ above.actions
  destinations : row.destinations ⊆ above.destinations
  projects : row.projects ⊆ above.projects
  expiresAt : row.expiresAt ≤ above.expiresAt
  maxEffects : row.maxEffects ≤ above.maxEffects

theorem Narrows.refl (row : GrantRow) : row.Narrows row :=
  ⟨List.Subset.refl _, List.Subset.refl _, List.Subset.refl _, le_refl _,
    le_refl _⟩

theorem Narrows.trans {first second third : GrantRow}
    (left : first.Narrows second) (right : second.Narrows third) :
    first.Narrows third :=
  ⟨List.Subset.trans left.actions right.actions,
    List.Subset.trans left.destinations right.destinations,
    List.Subset.trans left.projects right.projects,
    left.expiresAt.trans right.expiresAt,
    left.maxEffects.trans right.maxEffects⟩

theorem Narrows.evolve {row above newRow newAbove : GrantRow}
    (narrows : row.Narrows above) (evolved : row.Evolves newRow)
    (aboveEvolved : above.Evolves newAbove) : newRow.Narrows newAbove := by
  obtain ⟨actions, destinations, projects, expiresAt, maxEffects⟩ := narrows
  constructor
  · rwa [evolved.actions, aboveEvolved.actions]
  · rwa [evolved.destinations, aboveEvolved.destinations]
  · rwa [evolved.projects, aboveEvolved.projects]
  · rwa [evolved.expiresAt, aboveEvolved.expiresAt]
  · rwa [evolved.maxEffects, aboveEvolved.maxEffects]

theorem authority_eq_of_evolves {row new : GrantRow}
    (evolved : row.Evolves new) : new.authority = row.authority := by
  simp only [authority, evolved.actions, evolved.destinations,
    evolved.projects, evolved.expiresAt, evolved.maxEffects]

theorem Carries.evolve {row new : GrantRow} {authority : Authority}
    (carries : row.Carries authority) (evolved : row.Evolves new) :
    new.Carries authority :=
  ⟨evolved.actions.trans carries.actions,
    evolved.destinations.trans carries.destinations,
    evolved.projects.trans carries.projects,
    evolved.maxEffects.trans carries.maxEffects,
    evolved.expiresAt.trans carries.expiresAt⟩

theorem Carries.authority_eq {row : GrantRow} {authority : Authority}
    (carries : row.Carries authority) : row.authority = authority := by
  obtain ⟨actions, destinations, projects, maxEffects, expiresAt⟩ := carries
  have wholeMs : row.expiresAt / 1000 = authority.expiresAtMs.toInt := by
    rw [expiresAt, Int.mul_ediv_cancel _ (by decide)]
  have budget : row.maxEffects.toNat = authority.maxEffects.toNat := by
    rw [maxEffects, Int.toNat_natCast]
  simp only [GrantRow.authority, actions, destinations, projects, wholeMs,
    budget, OrderedSet.ofList_toList, Int64.ofInt_toInt, UInt64.ofNat_toNat]

theorem carries_createdGrantRow (id tenant : Uuid) (parent : Option Uuid)
    (depth : Nat) (authority : Authority) :
    (createdGrantRow id tenant parent depth authority).Carries authority :=
  ⟨rfl, rfl, rfl, rfl, rfl⟩

/-- Attenuation of carried authorities is the order of the rows. -/
theorem narrows_iff_attenuates {row above : GrantRow}
    {child parent : Authority} (carries : row.Carries child)
    (aboveCarries : above.Carries parent) :
    row.Narrows above ↔ child.attenuates parent := by
  have actions : row.actions ⊆ above.actions ↔
      child.actions ⊆ parent.actions := by
    rw [carries.actions, aboveCarries.actions]
    exact Iff.rfl
  have destinations : row.destinations ⊆ above.destinations ↔
      child.destinations ⊆ parent.destinations := by
    rw [carries.destinations, aboveCarries.destinations]
    exact Iff.rfl
  have projects : row.projects ⊆ above.projects ↔
      child.projects ⊆ parent.projects := by
    rw [carries.projects, aboveCarries.projects]
    exact Iff.rfl
  have expiresAt : row.expiresAt ≤ above.expiresAt ↔
      child.expiresAtMs ≤ parent.expiresAtMs := by
    rw [carries.expiresAt, aboveCarries.expiresAt, Int64.le_iff_toInt_le]
    exact Int.mul_le_mul_right (by decide)
  have maxEffects : row.maxEffects ≤ above.maxEffects ↔
      child.maxEffects ≤ parent.maxEffects := by
    rw [carries.maxEffects, aboveCarries.maxEffects, UInt64.le_iff_toNat_le]
    omega
  constructor
  · intro narrows
    exact ⟨actions.mp narrows.actions, destinations.mp narrows.destinations,
      projects.mp narrows.projects, expiresAt.mp narrows.expiresAt,
      maxEffects.mp narrows.maxEffects⟩
  · intro attenuates
    exact ⟨actions.mpr attenuates.1, destinations.mpr attenuates.2.1,
      projects.mpr attenuates.2.2.1, expiresAt.mpr attenuates.2.2.2.1,
      maxEffects.mpr attenuates.2.2.2.2⟩

/-- The bounds the check clause puts on a stored grant. -/
structure Bounded (row : GrantRow) : Prop where
  depth : 0 ≤ row.depth ∧ row.depth ≤ 4
  maxEffects : 1 ≤ row.maxEffects ∧ row.maxEffects ≤ 100
  usedEffects : 0 ≤ row.usedEffects ∧ row.usedEffects ≤ row.maxEffects
  root : row.parentId = none → row.depth = 0

theorem bounded_of_mem {db : Database} {row : GrantRow}
    (member : row ∈ db.grants.rows) : row.Bounded := by
  have checked := db.grants.checked row member
  simp only [schema, decide_eq_true_eq] at checked
  obtain ⟨depthLow, depthHigh, _, _, _, _, _, _, maxLow, maxHigh, usedLow,
    usedHigh, placed⟩ := checked
  refine ⟨⟨depthLow, depthHigh⟩, ⟨maxLow, maxHigh⟩, ⟨usedLow, usedHigh⟩, ?_⟩
  intro noParent
  rcases placed with ⟨_, root⟩ | ⟨hasParent, _⟩
  · exact root
  · exact absurd noParent hasParent

theorem epochMs_expiresAt {row : GrantRow}
    (carries : row.Carries row.authority) :
    epochMs row.expiresAt = .ok row.authority.expiresAtMs := by
  have wholeMs : row.expiresAt / 1000 = row.authority.expiresAtMs.toInt := by
    rw [carries.expiresAt, Int.mul_ediv_cancel _ (by decide)]
  have low := Int64.le_toInt row.authority.expiresAtMs
  have high := Int64.toInt_lt row.authority.expiresAtMs
  have inRange : i64Min ≤ row.expiresAt / 1000 ∧
      row.expiresAt / 1000 ≤ i64Max := by
    rw [wholeMs]
    exact ⟨low, Int.le_sub_one_of_lt high⟩
  rw [epochMs, Except.require_of inRange, wholeMs, Int64.ofInt_toInt]
  rfl

/-- A stored grant decodes without an error. -/
theorem toGrant_eq {row : GrantRow} (carries : row.Carries row.authority)
    (bounded : row.Bounded) : row.toGrant row.tenantId = .ok row.decoded := by
  have depth : 0 ≤ row.depth ∧ row.depth < 256 := by
    have := bounded.depth
    omega
  have maxEffects : 0 ≤ row.maxEffects := by
    have := bounded.maxEffects
    omega
  rw [toGrant, epochMs_expiresAt carries]
  simp only [Except.ok_bind_eq, Except.require_of depth,
    Except.require_of maxEffects, Except.require_of bounded.usedEffects.1]
  rfl

end GrantRow

end EffectLatch
