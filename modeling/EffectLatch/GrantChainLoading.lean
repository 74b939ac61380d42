import EffectLatch.DomainGrantLaws
import EffectLatch.GrantForest

/-!
# Loading a grant ancestry

In a grant forest the recursive query collects the lineage of a grant, the
ordering by depth leaves it as it is, every row decodes, and the structural
re-validation accepts the result.
-/

namespace EffectLatch

namespace Database

variable {db : Database} {tenant id : Uuid} {path : List Uuid}
  {row : GrantRow}

theorem chainRows_append_found (found : db.findGrant tenant id = some row) :
    db.chainRows tenant (path ++ [id]) = db.chainRows tenant path ++ [row] := by
  simp [chainRows, found]

theorem mem_chainRows_iff :
    row ∈ db.chainRows tenant path ↔
      row.id ∈ path ∧ row ∈ db.grants.rows ∧ row.tenantId = tenant := by
  rw [chainRows, List.mem_filterMap]
  constructor
  · rintro ⟨id, member, found⟩
    obtain ⟨stored, tenantEq, rfl⟩ := findGrant_eq_some_iff.mp found
    exact ⟨member, stored, tenantEq⟩
  · rintro ⟨member, stored, tenantEq⟩
    exact ⟨row.id, member,
      findGrant_eq_some_iff.mpr ⟨stored, tenantEq, rfl⟩⟩

/-- The rows of stored identities are those identities. -/
theorem map_id_chainRows
    (known : ∀ id ∈ path, ∃ row, db.findGrant tenant id = some row) :
    (db.chainRows tenant path).map GrantRow.id = path := by
  induction path with
  | nil => rfl
  | cons head rest ih =>
      obtain ⟨row, found⟩ := known head List.mem_cons_self
      have rest := ih fun id member => known id (List.mem_cons_of_mem head member)
      have idEq := (findGrant_eq_some_iff.mp found).2.2
      simp only [chainRows] at rest ⊢
      rw [List.filterMap_cons_some found, List.map_cons, rest, idEq]

namespace GrantForest

variable (forest : db.GrantForest)

include forest

theorem known_of_ancestry (lineage : db.Ancestry tenant id path) :
    ∀ ancestor ∈ path, ∃ row, db.findGrant tenant ancestor = some row := by
  intro ancestor member
  have known : ∃ row, db.findGrant tenant id = some row := by
    cases lineage with
    | root isRoot => exact ⟨_, isRoot.choose_spec.1⟩
    | child _ link => exact ⟨_, link.choose_spec.1⟩
  obtain ⟨row, found⟩ := known
  obtain ⟨above, aboveFound, _⟩ := forest.found_of_mem lineage found member
  exact ⟨above, aboveFound⟩

theorem ids_chainRows (lineage : db.Ancestry tenant id path) :
    (db.chainRows tenant path).map GrantRow.id = path :=
  map_id_chainRows (forest.known_of_ancestry lineage)

/-- The recursive query collects the lineage in front of what it has. -/
theorem ancestorRows_eq {fuel : Nat} {later : List GrantRow}
    (lineage : db.Ancestry tenant id path)
    (found : db.findGrant tenant id = some row)
    (enough : path.length ≤ fuel + 1)
    (deeper : ∀ other ∈ later, row.depth < other.depth) :
    db.ancestorRows tenant fuel (row :: later) row =
      db.chainRows tenant path ++ later := by
  induction lineage generalizing fuel later row with
  | @root id isRoot =>
      obtain ⟨stored, storedFound, noParent⟩ := isRoot
      obtain rfl := Option.some.inj (found.symm.trans storedFound)
      have rows : db.chainRows tenant [id] = [row] := by
        simp [chainRows, found]
      cases fuel with
      | zero => simp [ancestorRows, rows]
      | succ fuel => simp [ancestorRows, noParent, rows]
  | @child above id path upper link ih =>
      obtain ⟨stored, storedFound, hasParent⟩ := link
      obtain rfl := Option.some.inj (found.symm.trans storedFound)
      obtain ⟨parent, parentFound, depth, _⟩ :=
        forest.exists_parent found hasParent
      have nonempty : 0 < path.length :=
        List.length_pos_of_mem upper.self_mem
      rw [List.length_append, List.length_singleton] at enough
      obtain ⟨less, rfl⟩ : ∃ less, fuel = less + 1 :=
        Nat.exists_eq_add_of_le' (by omega)
      have shallower : ∀ other ∈ row :: later, parent.depth < other.depth := by
        intro other member
        rcases List.mem_cons.mp member with rfl | inLater
        · omega
        · have := deeper other inLater
          omega
      have fresh : parent.link ∉ (row :: later).map GrantRow.link := by
        intro repeated
        obtain ⟨other, member, equal⟩ := List.mem_map.mp repeated
        have sameDepth : other.depth = parent.depth :=
          congrArg (fun link => link.2.2) equal
        exact absurd (shallower other member) (by omega)
      rw [ancestorRows, hasParent, Option.bind_some, parentFound]
      simp only [if_neg fresh]
      rw [ih parentFound (by omega) shallower, chainRows_append_found found,
        List.append_assoc, List.singleton_append]

theorem length_ancestry_le (lineage : db.Ancestry tenant id path) :
    path.length ≤ db.grants.rows.length := by
  have subset : path ⊆ db.grants.rows.map GrantRow.id := by
    intro ancestor member
    obtain ⟨row, found⟩ := forest.known_of_ancestry lineage ancestor member
    obtain ⟨stored, _, rfl⟩ := findGrant_eq_some_iff.mp found
    exact List.mem_map_of_mem stored
  have shorter :=
    (List.subperm_of_subset (forest.nodup_ancestry lineage) subset).length_le
  rwa [List.length_map] at shorter

theorem depth_chainRows (lineage : db.Ancestry tenant id path) :
    (db.chainRows tenant path).Pairwise
      fun first second => first.depth ≤ second.depth := by
  have ranked := lineage.pairwise_rank (db.grantDepth tenant)
    (fun _ => grantDepth_of_isRoot) fun _ _ => forest.grantDepth_child
  rw [chainRows, List.pairwise_filterMap]
  refine ranked.imp ?_
  intro first second lower firstRow firstFound secondRow secondFound
  have firstBounded :=
    GrantRow.bounded_of_mem (findGrant_eq_some_iff.mp firstFound).1
  have secondBounded :=
    GrantRow.bounded_of_mem (findGrant_eq_some_iff.mp secondFound).1
  rw [grantDepth_of_found firstFound, grantDepth_of_found secondFound] at lower
  have := firstBounded.depth
  have := secondBounded.depth
  omega

theorem chainIds_eq (lineage : db.Ancestry tenant id path)
    (found : db.findGrant tenant id = some row) :
    db.chainIds tenant id = path := by
  have enough : path.length ≤ db.grants.rows.length + 1 :=
    Nat.le_succ_of_le (forest.length_ancestry_le lineage)
  have collected : db.ancestorRows tenant db.grants.rows.length [row] row =
      db.chainRows tenant path ++ [] :=
    forest.ancestorRows_eq lineage found enough (by simp)
  rw [chainIds, found]
  simp only [collected, List.append_nil]
  rw [List.Pairwise.insertionSort_eq (forest.depth_chainRows lineage),
    forest.ids_chainRows lineage]

/-- Every identity of the ancestry is loaded and decoded. -/
theorem mapM_toGrant
    (known : ∀ id ∈ path, ∃ row, db.findGrant tenant id = some row) :
    (path.mapM fun id => do
        let row ← Except.fetch (db.findGrant tenant id) Error.grantNotFound
        row.toGrant tenant) =
      .ok ((db.chainRows tenant path).map GrantRow.decoded) := by
  induction path with
  | nil => rfl
  | cons head rest ih =>
      obtain ⟨row, found⟩ := known head List.mem_cons_self
      have later := ih fun id member =>
        known id (List.mem_cons_of_mem head member)
      obtain ⟨stored, rfl, _⟩ := findGrant_eq_some_iff.mp found
      have decodes := GrantRow.toGrant_eq (forest.carried row stored)
        (GrantRow.bounded_of_mem stored)
      rw [List.mapM_cons, later, found]
      simp only [Except.fetch_some, Except.ok_bind_eq, decodes, chainRows,
        List.filterMap_cons_some found, List.map_cons]
      rfl

end GrantForest

/-- The grant with its revocation cleared, as the re-validation sees it. -/
def structural (row : GrantRow) : Grant := { row.decoded with revoked := false }

namespace GrantForest

variable (forest : db.GrantForest)

include forest

/-- The new last grant of a chain passes the link check. -/
theorem linkOk (path : List Uuid) (previous : Option GrantRow)
    (stored : row ∈ db.grants.rows)
    (fresh : row.id ∉ path)
    (position : row.depth.toNat = path.length)
    (parent : row.parentId = previous.map GrantRow.id)
    (narrows : ∀ above ∈ previous, above ∈ db.grants.rows ∧
      row.Narrows above) :
    LinkOk row.tenantId Int64.minValue path.length path.reverse
      (previous.map structural) (structural row) := by
  have bounded := GrantRow.bounded_of_mem stored
  constructor
  · rfl
  · have small : row.depth.toNat < 256 := by
      have := bounded.depth
      omega
    simp only [structural, GrantRow.decoded]
    rw [UInt8.toNat_ofNat_of_lt' small, position]
  · simpa [structural, GrantRow.decoded] using fresh
  · simp only [structural, GrantRow.decoded, parent, Option.map_map]
    rfl
  · rfl
  · exact forest.dated row stored
  · have max := bounded.maxEffects
    have used := bounded.usedEffects
    have usedSmall : row.usedEffects.toNat < 2 ^ 64 := by omega
    have maxSmall : row.maxEffects.toNat < 2 ^ 64 := by omega
    simp only [structural, GrantRow.decoded, GrantRow.authority]
    rw [UInt64.le_iff_toNat_le, UInt64.toNat_ofNat_of_lt' usedSmall,
      UInt64.toNat_ofNat_of_lt' maxSmall]
    omega
  · intro above member
    obtain ⟨aboveRow, given, rfl⟩ := Option.map_eq_some_iff.mp member
    obtain ⟨aboveStored, narrow⟩ := narrows aboveRow given
    exact (GrantRow.narrows_iff_attenuates (forest.carried row stored)
      (forest.carried aboveRow aboveStored)).mp narrow

theorem linksOk (lineage : db.Ancestry tenant id path) :
    LinksOk tenant Int64.minValue 0 [] none
        ((db.chainRows tenant path).map structural) ∧
      (db.chainRows tenant path).getLast? = db.findGrant tenant id := by
  induction lineage with
  | @root id isRoot =>
      obtain ⟨row, found, noParent⟩ := isRoot
      obtain ⟨stored, rfl, rfl⟩ := findGrant_eq_some_iff.mp found
      have rows : db.chainRows row.tenantId [row.id] = [row] := by
        simp [chainRows, found]
      have bounded := GrantRow.bounded_of_mem stored
      have link := forest.linkOk [] none stored (by simp)
        (by simp [bounded.root noParent]) noParent (by simp)
      rw [rows, found]
      exact ⟨⟨link, trivial⟩, rfl⟩
  | @child above id path upper link ih =>
      obtain ⟨row, found, hasParent⟩ := link
      obtain ⟨parent, parentFound, depth, narrow⟩ :=
        forest.exists_parent found hasParent
      obtain ⟨parentStored, _, parentId⟩ :=
        findGrant_eq_some_iff.mp parentFound
      have whole : db.Ancestry tenant id (path ++ [id]) :=
        upper.child ⟨row, found, hasParent⟩
      have length := forest.length_ancestry whole
      rw [grantDepth_of_found found, List.length_append,
        List.length_singleton] at length
      have distinct := forest.nodup_ancestry whole
      obtain ⟨stored, rfl, rfl⟩ := findGrant_eq_some_iff.mp found
      have last := forest.linkOk path (some parent) stored
        (fun repeated => (List.nodup_append.mp distinct).2.2 row.id repeated
          row.id (by simp) rfl)
        (by omega) (by simp [hasParent, parentId])
        (by simpa using ⟨parentStored, narrow⟩)
      have ids : ((db.chainRows row.tenantId path).map structural).map
          Grant.id = path := by
        rw [List.map_map]
        exact forest.ids_chainRows upper
      have count : ((db.chainRows row.tenantId path).map structural).length =
          path.length := by
        rw [← List.length_map (f := Grant.id), ids]
      rw [chainRows_append_found found, List.map_append]
      refine ⟨LinksOk.append_singleton_iff.mpr ⟨ih.1, ?_⟩, by simp [found]⟩
      rw [ids, count, List.getLast?_map, ih.2, parentFound]
      simpa using last

/-- The locked load of a stored grant returns its decoded ancestry, root
first. -/
theorem loadGrantChainLocked_eq (lineage : db.Ancestry tenant id path) :
    db.loadGrantChainLocked tenant id =
      .ok ((db.chainRows tenant path).map GrantRow.decoded) := by
  have known := forest.known_of_ancestry lineage
  obtain ⟨row, found⟩ := known id lineage.self_mem
  have bounded := GrantRow.bounded_of_mem (findGrant_eq_some_iff.mp found).1
  have length := forest.length_ancestry lineage
  rw [grantDepth_of_found found] at length
  have sized : path ≠ [] ∧ path.length ≤ 5 := by
    have := bounded.depth
    exact ⟨List.ne_nil_of_mem lineage.self_mem, by omega⟩
  have validated : validateChain ((db.chainRows tenant path).map structural)
      tenant Int64.minValue = .ok () := by
    have count : (db.chainRows tenant path).length = path.length := by
      conv_rhs => rw [← forest.ids_chainRows lineage]
      rw [List.length_map]
    rw [validateChain_eq_ok_iff]
    refine ⟨⟨?_, by rw [List.length_map, count]; exact sized.2⟩,
      (forest.linksOk lineage).1⟩
    intro empty
    rw [List.map_eq_nil_iff] at empty
    rw [empty, List.length_nil] at count
    exact sized.1 (List.length_eq_zero_iff.mp count.symm)
  have cleared : ((db.chainRows tenant path).map GrantRow.decoded).map
      (fun grant => { grant with revoked := false }) =
        (db.chainRows tenant path).map structural := by
    rw [List.map_map]
    rfl
  simp only [loadGrantChainLocked, forest.chainIds_eq lineage found,
    Except.require_of sized, Except.ok_bind_eq, forest.mapM_toGrant known,
    cleared, validated]
  rfl

end GrantForest

theorem findGrant_ne_none_of_load {chain : List Grant}
    (loaded : db.loadGrantChainLocked tenant id = .ok chain) :
    db.findGrant tenant id ≠ none := by
  intro missing
  simp only [loadGrantChainLocked, chainIds, missing, Except.bind_eq_ok_iff,
    Except.require_eq_ok_iff] at loaded
  obtain ⟨_, ⟨nonempty, _⟩, _⟩ := loaded
  exact nonempty rfl

/-- A successful load found the ancestry of the grant. -/
theorem GrantForest.exists_of_load (forest : db.GrantForest)
    {chain : List Grant}
    (loaded : db.loadGrantChainLocked tenant id = .ok chain) :
    ∃ path, db.Ancestry tenant id path ∧
      chain = (db.chainRows tenant path).map GrantRow.decoded := by
  obtain ⟨path, lineage⟩ :=
    forest.exists_ancestry (findGrant_ne_none_of_load loaded)
  refine ⟨path, lineage, ?_⟩
  rw [forest.loadGrantChainLocked_eq lineage] at loaded
  exact (Except.ok.inj loaded).symm

end Database

end EffectLatch
