import EffectLatch.GrantRowDecoding
import EffectLatch.Lineages

/-!
# The grant forest

Delegation links the grants of a tenant into a forest in which depth is the
distance from the root and authority only narrows.  The ancestry query finds
the lineage of a grant, root first, and its re-validation always passes.
-/

namespace EffectLatch

namespace Database

/-- The grant exists and has no parent. -/
def IsRoot (db : Database) (tenant id : Uuid) : Prop :=
  ∃ row, db.findGrant tenant id = some row ∧ row.parentId = none

/-- `child` was created under `parent`. -/
def Delegates (db : Database) (tenant parent child : Uuid) : Prop :=
  ∃ row, db.findGrant tenant child = some row ∧ row.parentId = some parent

/-- `id` is `ancestor` or a descendant of it at any depth. -/
def Descends (db : Database) (tenant ancestor id : Uuid) : Prop :=
  Relation.ReflTransGen (db.Delegates tenant) ancestor id

/-- The identities from the root down to a grant. -/
abbrev Ancestry (db : Database) (tenant : Uuid) : Uuid → List Uuid → Prop :=
  Lineage (db.IsRoot tenant) (db.Delegates tenant)

/-- The rows of a list of identities. -/
def chainRows (db : Database) (tenant : Uuid) (ids : List Uuid) :
    List GrantRow :=
  ids.filterMap (db.findGrant tenant)

/-- Every stored grant carries an authority that ends some time, and a child
stands one step below its parent with no more authority. -/
structure GrantForest (db : Database) : Prop where
  carried : ∀ row ∈ db.grants.rows, row.Carries row.authority
  dated : ∀ row ∈ db.grants.rows,
    Int64.minValue < row.authority.expiresAtMs
  linked : ∀ row ∈ db.grants.rows, ∀ parent, row.parentId = some parent →
    ∃ above, db.findGrant row.tenantId parent = some above ∧
      row.depth = above.depth + 1 ∧ row.Narrows above

variable {db next : Database} {tenant id ancestor : Uuid} {path : List Uuid}
  {row : GrantRow}

theorem forest_delegates (db : Database) (tenant : Uuid) :
    Forest (db.IsRoot tenant) (db.Delegates tenant) where
  oneParent := by
    rintro first second node ⟨row, found, firstLink⟩ ⟨other, otherFound,
      secondLink⟩
    obtain rfl := Option.some.inj (found.symm.trans otherFound)
    exact Option.some.inj (firstLink.symm.trans secondLink)
  rootless := by
    rintro above node ⟨row, found, link⟩ ⟨other, otherFound, noParent⟩
    obtain rfl := Option.some.inj (found.symm.trans otherFound)
    simp [link] at noParent

/-- The ancestry lists exactly the grants the last one descends from. -/
theorem mem_ancestry_iff (lineage : db.Ancestry tenant id path) :
    ancestor ∈ path ↔ db.Descends tenant ancestor id :=
  lineage.mem_iff (db.forest_delegates tenant)

theorem Extends.isRoot (extended : db.Extends next)
    (isRoot : db.IsRoot tenant id) : next.IsRoot tenant id := by
  obtain ⟨row, found, noParent⟩ := isRoot
  obtain ⟨new, newFound, evolved⟩ := extended.findGrant_eq_some found
  exact ⟨new, newFound, evolved.parentId.trans noParent⟩

theorem Extends.delegates {parent : Uuid} (extended : db.Extends next)
    (link : db.Delegates tenant parent id) :
    next.Delegates tenant parent id := by
  obtain ⟨row, found, hasParent⟩ := link
  obtain ⟨new, newFound, evolved⟩ := extended.findGrant_eq_some found
  exact ⟨new, newFound, evolved.parentId.trans hasParent⟩

theorem Extends.ancestry (extended : db.Extends next)
    (lineage : db.Ancestry tenant id path) : next.Ancestry tenant id path :=
  lineage.mono (fun _ => extended.isRoot) fun _ _ => extended.delegates

theorem Extends.descends (extended : db.Extends next)
    (descends : db.Descends tenant ancestor id) :
    next.Descends tenant ancestor id :=
  Relation.ReflTransGen.mono (fun _ _ => extended.delegates) ancestor id
    descends

/-- The depth column as the rank of a grant. -/
def grantDepth (db : Database) (tenant id : Uuid) : Nat :=
  match db.findGrant tenant id with
  | some row => row.depth.toNat
  | none => 0

theorem grantDepth_of_found (found : db.findGrant tenant id = some row) :
    db.grantDepth tenant id = row.depth.toNat := by
  simp [grantDepth, found]

theorem grantDepth_of_isRoot (isRoot : db.IsRoot tenant id) :
    db.grantDepth tenant id = 0 := by
  obtain ⟨row, found, noParent⟩ := isRoot
  have bounded := GrantRow.bounded_of_mem (findGrant_eq_some_iff.mp found).1
  rw [grantDepth_of_found found, bounded.root noParent]
  rfl

namespace GrantForest

variable (forest : db.GrantForest)

include forest

/-- The parent of a stored grant, with the order between the two. -/
theorem exists_parent {parent : Uuid}
    (found : db.findGrant tenant id = some row)
    (link : row.parentId = some parent) :
    ∃ above, db.findGrant tenant parent = some above ∧
      row.depth = above.depth + 1 ∧ row.Narrows above := by
  obtain ⟨member, rfl, _⟩ := findGrant_eq_some_iff.mp found
  exact forest.linked row member parent link

theorem grantDepth_child {parent : Uuid}
    (link : db.Delegates tenant parent id) :
    db.grantDepth tenant id = db.grantDepth tenant parent + 1 := by
  obtain ⟨row, found, hasParent⟩ := link
  obtain ⟨above, aboveFound, depth, _⟩ := forest.exists_parent found hasParent
  have bounded :=
    GrantRow.bounded_of_mem (findGrant_eq_some_iff.mp aboveFound).1
  rw [grantDepth_of_found found, grantDepth_of_found aboveFound, depth]
  have := bounded.depth
  omega

theorem exists_ancestry (known : db.findGrant tenant id ≠ none) :
    ∃ path, db.Ancestry tenant id path := by
  refine Lineage.exists_of_rank (db.grantDepth tenant)
    (fun id => db.findGrant tenant id ≠ none) ?_ known
  intro node nodeKnown
  obtain ⟨row, found⟩ := Option.ne_none_iff_exists'.mp nodeKnown
  cases link : row.parentId with
  | none => exact .inl ⟨row, found, link⟩
  | some parent =>
      obtain ⟨above, aboveFound, _⟩ := forest.exists_parent found link
      refine .inr ⟨parent, by simp [aboveFound], ⟨row, found, link⟩, ?_⟩
      rw [forest.grantDepth_child ⟨row, found, link⟩]
      exact Nat.lt_succ_self _

theorem length_ancestry (lineage : db.Ancestry tenant id path) :
    path.length = db.grantDepth tenant id + 1 :=
  lineage.length_eq (db.grantDepth tenant) (fun _ => grantDepth_of_isRoot)
    fun _ _ => forest.grantDepth_child

theorem nodup_ancestry (lineage : db.Ancestry tenant id path) : path.Nodup :=
  lineage.nodup (db.grantDepth tenant) (fun _ => grantDepth_of_isRoot)
    fun _ _ => forest.grantDepth_child

/-- Every identity of an ancestry is a stored grant that has at least the
authority of the last one. -/
theorem found_of_mem (lineage : db.Ancestry tenant id path)
    (found : db.findGrant tenant id = some row) (member : ancestor ∈ path) :
    ∃ above, db.findGrant tenant ancestor = some above ∧
      row.Narrows above := by
  have related := lineage.relates_of_mem
    (fun lower upper => ∃ row above,
      db.findGrant tenant lower = some row ∧
        db.findGrant tenant upper = some above ∧ row.Narrows above)
    (fun {first second third} left right => by
      obtain ⟨row, middle, rowFound, middleFound, lower⟩ := left
      obtain ⟨other, above, otherFound, aboveFound, upper⟩ := right
      obtain rfl := Option.some.inj (middleFound.symm.trans otherFound)
      exact ⟨row, above, rowFound, aboveFound, lower.trans upper⟩)
    (fun {above node} link => by
      obtain ⟨row, rowFound, hasParent⟩ := link
      obtain ⟨upper, upperFound, _, narrows⟩ :=
        forest.exists_parent rowFound hasParent
      exact ⟨row, upper, rowFound, upperFound, narrows⟩)
    ⟨row, row, found, found, .refl row⟩ member
  obtain ⟨lower, above, lowerFound, aboveFound, narrows⟩ := related
  obtain rfl := Option.some.inj (found.symm.trans lowerFound)
  exact ⟨above, aboveFound, narrows⟩

end GrantForest

end Database

end EffectLatch
