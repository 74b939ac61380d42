import EffectLatch.GrantForestInvariant

/-!
# Liveness of a grant ancestry

A claim looks at every grant of the locked chain, admission and renewal at the
row of the grant itself.  A child never outlives its ancestors, so the single
row answers for the expiry of the whole chain; it does not answer for a
revocation further up.
-/

namespace EffectLatch

namespace Database

/-- Every grant from the root down to `grant` is stored, unrevoked and
unexpired. -/
def AncestryLive (db : Database) (tenant grant : Uuid) (now : Timestamp) :
    Prop :=
  ∀ ancestor, db.Descends tenant ancestor grant →
    ∃ row, db.findGrant tenant ancestor = some row ∧ row.revokedAt = none ∧
      now < row.expiresAt

/-- No grant above `grant` is revoked. -/
def AncestorsUnrevoked (db : Database) (tenant grant : Uuid) : Prop :=
  ∀ ancestor, Relation.TransGen (db.Delegates tenant) ancestor grant →
    ∀ row, db.findGrant tenant ancestor = some row → row.revokedAt = none

/-- A fresh admission under a grant, or the renewal of a lease of a run under
it, at the moment its liveness was looked at. -/
inductive Authorises (db : Database) (clock : Clock) :
    Command → Response → Uuid → Uuid → Timestamp → Prop
  | admitted {runId tenant : Uuid} {key : String} {request : NormalizedRun}
      {maxPendingGlobal maxPendingTenant : Nat} {record : RunRecord} :
      Authorises db clock
        (.admitRun runId tenant key request maxPendingGlobal maxPendingTenant)
        (.admission ⟨.created, record⟩) tenant request.grantId (clock 0)
  | renewed {run : Uuid} {worker : String} {allowedTenants : List Uuid}
      {epoch : Int} {leaseMs : Nat} {result : Heartbeat} {row : RunRow}
      (found : db.findRunById run = some row) :
      Authorises db clock
        (.heartbeatRun run worker allowedTenants epoch leaseMs)
        (.heartbeat result) row.tenantId row.grantId (clock 1)

variable {sha256 : Sha256} {db next : Database} {clock : Clock}
  {command : Command} {response : Response} {tenant grant : Uuid}
  {now : Timestamp}

theorem GrantForest.found_of_descends (forest : db.GrantForest)
    {ancestor : Uuid} {row : GrantRow}
    (found : db.findGrant tenant grant = some row)
    (descends : db.Descends tenant ancestor grant) :
    ∃ above, db.findGrant tenant ancestor = some above ∧
      row.Narrows above := by
  obtain ⟨path, lineage⟩ := forest.exists_ancestry
    (Option.ne_none_iff_exists'.mpr ⟨row, found⟩)
  exact forest.found_of_mem lineage found
    ((mem_ancestry_iff lineage).mpr descends)

/-- The condition a claim puts on the locked chain is the liveness of the whole
ancestry. -/
theorem GrantForest.chainLive_iff (forest : db.GrantForest)
    {chain : List Grant}
    (loaded : db.loadGrantChainLocked tenant grant = .ok chain) :
    db.ChainLive tenant chain now ↔ db.AncestryLive tenant grant now := by
  obtain ⟨path, lineage, rfl⟩ := forest.exists_of_load loaded
  have ids : ((db.chainRows tenant path).map GrantRow.decoded).map Grant.id =
      path := by
    rw [List.map_map]
    exact forest.ids_chainRows lineage
  simp only [ChainLive, AncestryLive, ids, grantRows, List.mem_filter,
    decide_eq_true_eq, ← mem_ancestry_iff lineage]
  constructor
  · intro live ancestor member
    obtain ⟨row, found⟩ := forest.known_of_ancestry lineage ancestor member
    obtain ⟨stored, tenantEq, rfl⟩ := findGrant_eq_some_iff.mp found
    exact ⟨row, found, live row ⟨stored, tenantEq, member⟩⟩
  · rintro live row ⟨stored, rfl, member⟩
    obtain ⟨other, found, alive⟩ := live row.id member
    obtain ⟨otherStored, sameTenant, sameId⟩ := findGrant_eq_some_iff.mp found
    rw [← grant_eq_of_id otherStored stored sameTenant sameId]
    exact alive

/-- Admission and renewal found the grant itself live. -/
theorem Transition.grant_live
    (moved : Transition sha256 db clock command response next)
    (authorised : db.Authorises clock command response tenant grant now) :
    ∃ row, db.findGrant tenant grant = some row ∧ row.revokedAt = none ∧
      now < row.expiresAt := by
  cases authorised with
  | admitted =>
      cases moved with
      | unchanged observed => cases observed
      | admitted _ _ _ _ live _ _ _ _ _ =>
          simp only [grantLive, List.any_eq_true, decide_eq_true_eq] at live
          obtain ⟨row, stored, tenantEq, idEq, unrevoked, fresh⟩ := live
          exact ⟨row, findGrant_eq_some_iff.mpr ⟨stored, tenantEq, idEq⟩,
            unrevoked, fresh⟩
  | renewed found =>
      cases moved with
      | unchanged observed => cases observed
      | @renewed _ _ _ _ _ leased above _ _ lease _ stored sameTenant sameId
          fresh unrevoked _ _ =>
          obtain ⟨member, idEq⟩ := findRunById_eq_some_iff.mp found
          obtain rfl := run_eq_of_id lease.member member
            (lease.identity.trans idEq.symm)
          exact ⟨above, findGrant_eq_some_iff.mpr ⟨stored, sameTenant, sameId⟩,
            unrevoked, fresh⟩

/-- A live grant answers for the expiry of its ancestors, and for nothing
else. -/
theorem GrantForest.ancestryLive_iff (forest : db.GrantForest)
    {row : GrantRow} (found : db.findGrant tenant grant = some row)
    (unrevoked : row.revokedAt = none) (fresh : now < row.expiresAt) :
    db.AncestryLive tenant grant now ↔
      db.AncestorsUnrevoked tenant grant := by
  constructor
  · intro live ancestor above other otherFound
    obtain ⟨stored, storedFound, clear, _⟩ := live ancestor above.to_reflTransGen
    obtain rfl := Option.some.inj (storedFound.symm.trans otherFound)
    exact clear
  · intro clear ancestor descends
    obtain ⟨above, aboveFound, narrows⟩ :=
      forest.found_of_descends found descends
    refine ⟨above, aboveFound, ?_, lt_of_lt_of_le fresh narrows.expiresAt⟩
    rcases Relation.reflTransGen_iff_eq_or_transGen.mp descends with
      rfl | proper
    · obtain rfl := Option.some.inj (found.symm.trans aboveFound)
      exact unrevoked
    · exact clear ancestor proper above aboveFound

end Database

/-- In every run of the store, a fresh admission or a renewal finds the whole
ancestry of its grant live exactly when no grant above it is revoked at that
moment. -/
theorem authorised_ancestry_live_iff {sha256 : Sha256}
    {allowed : Database → Call → Prop} {db : Database}
    {history : List Event}
    (execution : StoreExecution sha256 allowed history db) :
    ∀ event ∈ history, ∀ response tenant grant now,
      event.outcome = .ok response →
      event.before.Authorises event.call.clock event.call.command response
        tenant grant now →
      (event.before.AncestryLive tenant grant now ↔
        event.before.AncestorsUnrevoked tenant grant) := by
  intro event member response tenant grant now outcome authorised
  obtain ⟨_, _, reached, _, done, _⟩ := execution.split_mem member
  rw [outcome] at done
  have moved := Database.transition_of_perform done
  obtain ⟨row, found, unrevoked, fresh⟩ := moved.grant_live authorised
  have forest := Reachable.grantForest ⟨_, reached⟩
  exact forest.ancestryLive_iff found unrevoked fresh

namespace Sample

def laterAdmission : Call := ⟨.admitRun 21 1 "other" request 10 10, fun _ => 5⟩

def renewal : Call := ⟨.heartbeatRun 20 "worker" [1] 1 1000, fun _ => 5⟩

/-- The root of the delegation revoked while a run of the child is leased. -/
def rootRevoked : List Command :=
  lease ++ [.revokeGrant 1 10 "owner" "leaked"]

/-- The second run as it is admitted. -/
def laterRecord : RunRecord where
  id := 21
  state := .queued
  moduleDigest := Digest.zero
  grantId := 11
  createdAt := 5
  updatedAt := 5
  leaseEpoch := 0
  attempt := 0
  cancelRequested := false
  output := none
  errorCode := none
  effects := []

theorem authorises_renewal {db : Database} {row : RunRow}
    (found : db.findRunById 20 = some row) (result : Heartbeat) :
    db.Authorises renewal.clock renewal.command (.heartbeat result)
      row.tenantId row.grantId 5 :=
  .renewed found

end Sample

theorem authorised_ancestry_live_iff_lease :
    ((Sample.after Sample.lease).perform Sample.sha256
        Sample.laterAdmission).1 =
      .ok (.admission ⟨.created, Sample.laterRecord⟩) ∧
    ((Sample.after Sample.lease).AncestryLive 1 11 5 ↔
      (Sample.after Sample.lease).AncestorsUnrevoked 1 11) := by
  have leased : StoreExecution Sample.sha256 (fun _ _ => True) _
      (Sample.after Sample.lease) :=
    Sample.execution_after fun _ _ _ => trivial
  have execution := leased.next Sample.laterAdmission trivial
  have outcome : ((Sample.after Sample.lease).perform Sample.sha256
      Sample.laterAdmission).1 =
        .ok (.admission ⟨.created, Sample.laterRecord⟩) :=
    Except.eq_ok_of_toOption (by decide +kernel)
  exact ⟨outcome, authorised_ancestry_live_iff execution _
    (List.mem_append_right _ List.mem_cons_self) _ 1 11 5 outcome .admitted⟩

/-- With the root revoked, a run is still admitted under the child and the
lease of an earlier one is still renewed. -/
theorem revoked_ancestor_overlooked :
    Reachable Sample.sha256 (fun _ _ => True)
      (Sample.after Sample.rootRevoked) ∧
    ¬ (Sample.after Sample.rootRevoked).AncestryLive 1 11 5 ∧
    (∃ response, ((Sample.after Sample.rootRevoked).perform Sample.sha256
        Sample.laterAdmission).1 = .ok response ∧
      (Sample.after Sample.rootRevoked).Authorises Sample.laterAdmission.clock
        Sample.laterAdmission.command response 1 11 5) ∧
    ∃ response, ((Sample.after Sample.rootRevoked).perform Sample.sha256
        Sample.renewal).1 = .ok response ∧
      (Sample.after Sample.rootRevoked).Authorises Sample.renewal.clock
        Sample.renewal.command response 1 11 5 := by
  refine ⟨Sample.reachable_after fun _ _ _ => trivial, ?_, ?_, ?_⟩
  · intro live
    have child : ((Sample.after Sample.rootRevoked).findGrant 1 11).map
        GrantRow.parentId = some (some 10) := by decide +kernel
    have root : ((Sample.after Sample.rootRevoked).findGrant 1 10).map
        GrantRow.revokedAt = some (some 5) := by decide +kernel
    obtain ⟨row, found, link⟩ := Option.map_eq_some_iff.mp child
    obtain ⟨above, aboveFound, unrevoked, _⟩ :=
      live 10 (.single ⟨row, found, link⟩)
    simp [aboveFound, unrevoked] at root
  · exact ⟨.admission ⟨.created, Sample.laterRecord⟩,
      Except.eq_ok_of_toOption (by decide +kernel), .admitted⟩
  · have leased : ((Sample.after Sample.rootRevoked).findRunById 20).map
        (fun row => (row.tenantId, row.grantId)) = some (1, 11) := by
      decide +kernel
    obtain ⟨row, found, columns⟩ := Option.map_eq_some_iff.mp leased
    simp only [Prod.mk.injEq] at columns
    refine ⟨.heartbeat ⟨1000000, false⟩,
      Except.eq_ok_of_toOption (by decide +kernel), ?_⟩
    rw [← columns.1, ← columns.2]
    exact Sample.authorises_renewal found _

end EffectLatch
