import EffectLatch.GrantChainLoading

/-!
# Every reachable state holds a grant forest

Creation validates a child against its whole ancestry, later loads re-validate
adjacent pairs only.  The forest invariant is what makes the two agree: nothing
that creation accepts is ever refused by a load.
-/

namespace EffectLatch

namespace Database

variable {sha256 : Sha256} {db next : Database} {clock : Clock}
  {command : Command} {response : Response}

theorem grantForest_migrated : migrated.GrantForest := by
  constructor <;> simp [migrated, Table.empty]

theorem GrantCreation.carries {row : GrantRow}
    (creation : db.GrantCreation clock command row) :
    row.Carries row.authority := by
  cases creation with
  | @created id tenant parent _ authority ancestry _ _ _ _ _ _ =>
      have carries := GrantRow.carries_createdGrantRow id tenant parent
        ancestry.length authority
      rw [carries.authority_eq]
      exact carries

theorem GrantCreation.dated {row : GrantRow}
    (creation : db.GrantCreation clock command row) :
    Int64.minValue < row.authority.expiresAtMs := by
  cases creation with
  | @created id tenant parent _ authority ancestry nowMs _ _ _ validated _ =>
      have carries := GrantRow.carries_createdGrantRow id tenant parent
        ancestry.length authority
      have accepted : authority.validate nowMs = .ok () := by
        split at validated
        · exact validated
        · simp only [validateChild, Except.bind_eq_ok_iff] at validated
          obtain ⟨_, accepted, _⟩ := validated
          exact accepted
      have later := Authority.expiresAtMs_of_validate accepted
      rw [carries.authority_eq]
      exact Int64.lt_of_le_of_lt (Int64.minValue_le nowMs) later

/-- A created child stands directly below its parent. -/
theorem GrantCreation.linked {row : GrantRow} {parent : Uuid}
    (forest : db.GrantForest)
    (creation : db.GrantCreation clock command row)
    (link : row.parentId = some parent) :
    ∃ above, db.findGrant row.tenantId parent = some above ∧
      row.depth = above.depth + 1 ∧ row.Narrows above := by
  cases creation with
  | @created id tenant under _ authority ancestry nowMs loaded _ _ validated
      _ =>
      change under = some parent at link
      subst link
      obtain ⟨path, lineage, rfl⟩ := forest.exists_of_load loaded
      obtain ⟨above, found⟩ :=
        forest.known_of_ancestry lineage parent lineage.self_mem
      obtain ⟨stored, tenantEq, idEq⟩ := findGrant_eq_some_iff.mp found
      have inChain : above.decoded ∈
          (db.chainRows tenant path).map GrantRow.decoded :=
        List.mem_map_of_mem
          (mem_chainRows_iff.mpr ⟨idEq ▸ lineage.self_mem, stored, tenantEq⟩)
      have depth := forest.length_ancestry lineage
      have count := congrArg List.length (forest.ids_chainRows lineage)
      rw [grantDepth_of_found found] at depth
      rw [List.length_map] at count
      have bounded := (GrantRow.bounded_of_mem stored).depth
      refine ⟨above, found, ?_, ?_⟩
      · simp only [createdGrantRow, List.length_map]
        omega
      · rw [if_neg (List.ne_nil_of_mem inChain)] at validated
        simp only [validateChild, Except.bind_eq_ok_iff,
          Except.require_eq_ok_iff] at validated
        obtain ⟨_, _, _, _, _, _, attenuated⟩ := validated
        exact (GrantRow.narrows_iff_attenuates
          (GrantRow.carries_createdGrantRow _ _ _ _ _)
          (forest.carried above stored)).mpr (attenuated _ inChain)

theorem Transition.grantForest
    (moved : Transition sha256 db clock command response next)
    (forest : db.GrantForest) : next.GrantForest where
  carried row member := by
    rcases moved.grant_origin member with ⟨old, stored, evolved⟩ | creation
    · rw [GrantRow.authority_eq_of_evolves evolved]
      exact (forest.carried old stored).evolve evolved
    · exact creation.carries
  dated row member := by
    rcases moved.grant_origin member with ⟨old, stored, evolved⟩ | creation
    · rw [GrantRow.authority_eq_of_evolves evolved]
      exact forest.dated old stored
    · exact creation.dated
  linked row member parent link := by
    rcases moved.grant_origin member with ⟨old, stored, evolved⟩ | creation
    · obtain ⟨above, found, depth, narrows⟩ :=
        forest.linked old stored parent (evolved.parentId ▸ link)
      obtain ⟨new, newFound, aboveEvolved⟩ :=
        moved.extends.findGrant_eq_some found
      refine ⟨new, evolved.tenantId ▸ newFound, ?_,
        narrows.evolve evolved aboveEvolved⟩
      rw [evolved.depth, aboveEvolved.depth, depth]
    · obtain ⟨above, found, depth, narrows⟩ := creation.linked forest link
      obtain ⟨new, newFound, aboveEvolved⟩ :=
        moved.extends.findGrant_eq_some found
      refine ⟨new, newFound, ?_, narrows.evolve (.refl row) aboveEvolved⟩
      rw [aboveEvolved.depth, depth]

end Database

variable {sha256 : Sha256} {allowed : Database → Call → Prop} {db : Database}

theorem Reachable.grantForest (reached : Reachable sha256 allowed db) :
    db.GrantForest :=
  reached.invariant Database.GrantForest Database.grantForest_migrated
    fun _ _ _ _ forest _ moved => moved.grantForest forest

namespace Database.GrantForest

variable {tenant id : Uuid} {row : GrantRow} {path : List Uuid}

/-- The grant at each position of an ancestry has that position as its depth
and at least the authority of the last one. -/
theorem position (forest : db.GrantForest)
    (lineage : db.Ancestry tenant id path)
    (found : db.findGrant tenant id = some row) (index : Nat)
    (inside : index < path.length) :
    ∃ above, db.findGrant tenant (path.get ⟨index, inside⟩) = some above ∧
      above.tenantId = tenant ∧ above.depth = index ∧ row.Narrows above := by
  obtain ⟨above, aboveFound, narrows⟩ :=
    forest.found_of_mem lineage found (List.get_mem path ⟨index, inside⟩)
  obtain ⟨stored, tenantEq, _⟩ := findGrant_eq_some_iff.mp aboveFound
  have ranks := lineage.map_rank (db.grantDepth tenant)
    (fun _ => grantDepth_of_isRoot) fun _ _ => forest.grantDepth_child
  have rank : db.grantDepth tenant (path.get ⟨index, inside⟩) = index := by
    have here := congrArg (fun ranks => ranks[index]?) ranks
    simpa [List.getElem?_map, List.getElem?_eq_getElem inside,
      List.getElem?_range inside] using here
  rw [grantDepth_of_found aboveFound] at rank
  have bounded := (GrantRow.bounded_of_mem stored).depth
  exact ⟨above, aboveFound, tenantEq, by omega, narrows⟩

end Database.GrantForest

/-- Every grant of a reachable state has an acyclic ancestry within its tenant,
at most five long, with depth as position and authority narrowing from each
ancestor; the ancestry loads without an error; and no continuation changes the
parent or the authority of a grant. -/
theorem grants_wellFormed (reached : Reachable sha256 allowed db) :
    (∀ tenant id row, db.findGrant tenant id = some row →
      ¬ Relation.TransGen (db.Delegates tenant) id id ∧
      ∃ path, db.Ancestry tenant id path ∧ path.Nodup ∧ path.length ≤ 5 ∧
        (∀ index, ∀ inside : index < path.length,
          ∃ above, db.findGrant tenant (path.get ⟨index, inside⟩) = some above ∧
            above.tenantId = tenant ∧ above.depth = index ∧
            row.Narrows above) ∧
        (db.chainRows tenant path).map GrantRow.id = path ∧
        db.loadGrantChainLocked tenant id =
          .ok ((db.chainRows tenant path).map GrantRow.decoded)) ∧
    ∀ permitted later last,
      Execution (Database.perform sha256) permitted db later last →
      ∀ row ∈ db.grants.rows, ∃ new ∈ last.grants.rows, row.Evolves new := by
  have forest := reached.grantForest
  constructor
  · intro tenant id row found
    refine ⟨not_transGen_self (db.grantDepth tenant)
      (fun _ _ => forest.grantDepth_child) id, ?_⟩
    obtain ⟨path, lineage⟩ := forest.exists_ancestry
      (Option.ne_none_iff_exists'.mpr ⟨row, found⟩)
    have length := forest.length_ancestry lineage
    rw [Database.grantDepth_of_found found] at length
    have bounded := (GrantRow.bounded_of_mem
      (Database.findGrant_eq_some_iff.mp found).1).depth
    exact ⟨path, lineage, forest.nodup_ancestry lineage, by omega,
      forest.position lineage found, forest.ids_chainRows lineage,
      forest.loadGrantChainLocked_eq lineage⟩
  · intro permitted later last continued
    exact (Database.extends_of_execution continued).grants

theorem grants_wellFormed_delegation :
    ∃ row, (Sample.after Sample.delegation).findGrant 1 11 = some row ∧
      ∃ path, (Sample.after Sample.delegation).Ancestry 1 11 path ∧
        path.length ≤ 5 := by
  have present : ((Sample.after Sample.delegation).findGrant 1 11).isSome =
      true := by decide +kernel
  obtain ⟨row, found⟩ := Option.isSome_iff_exists.mp present
  have reached : Reachable Sample.sha256 (fun _ _ => True)
      (Sample.after Sample.delegation) :=
    Sample.reachable_after fun _ _ _ => trivial
  obtain ⟨_, path, lineage, _, short, _⟩ :=
    (grants_wellFormed reached).1 1 11 row found
  exact ⟨row, found, path, lineage, short⟩

end EffectLatch
