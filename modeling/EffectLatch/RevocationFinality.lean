import EffectLatch.ClaimSelection

/-!
# Revocation is final for new authority

A revocation marks one row, and no later call takes the mark away.  Every path
that creates authority below the grant, charges it or leases a run of it walks
the whole locked ancestry and meets the mark.
-/

namespace EffectLatch

/-- The metadata `revokeGrant` accepts. -/
def RevocationAccepted (actorId reason : String) : Prop :=
  (utf8 actorId).length ≠ 0 ∧ (utf8 actorId).length ≤ 64 ∧
    (utf8 reason).length ≠ 0 ∧ (utf8 reason).length ≤ 1024 ∧
    reason.length ≤ 256

namespace Database

/-- The grant carries a revocation of this moment. -/
def RevokedFrom (db : Database) (tenant grant : Uuid) (since : Timestamp) :
    Prop :=
  ∃ row, db.findGrant tenant grant = some row ∧ row.revokedAt = some since

variable {sha256 : Sha256} {db next : Database} {clock : Clock}
  {command : Command} {response : Response} {tenant grant leaf : Uuid}
  {since : Timestamp} {chain : List Grant}

theorem Extends.revokedFrom (extended : db.Extends next)
    (revoked : db.RevokedFrom tenant grant since) :
    next.RevokedFrom tenant grant since := by
  obtain ⟨row, found, marked⟩ := revoked
  obtain ⟨new, newFound, evolved⟩ := extended.findGrant_eq_some found
  exact ⟨new, newFound, evolved.revoked since marked⟩

/-- An answered revocation leaves the grant marked with the time it
answered. -/
theorem Transition.revokedFrom {actorId reason : String}
    {record : RevocationRecord}
    (moved : Transition sha256 db clock
      (.revokeGrant tenant grant actorId reason) (.revocation record) next) :
    next.RevokedFrom tenant grant record.revokedAt := by
  cases moved with
  | unchanged observed =>
      cases observed with
      | revokedBefore found revoked => exact ⟨_, found, revoked⟩
  | @grantRevoked _ _ _ _ row _ found _ replaced =>
      obtain ⟨_, tenantEq, idEq⟩ := findGrant_eq_some_iff.mp found
      exact ⟨row.revokedFrom (clock 0), findGrant_eq_some_iff.mpr
        ⟨replaced.new_mem, tenantEq, idEq⟩, rfl⟩

/-- Revoking a revoked grant writes nothing. -/
theorem Transition.eq_of_revoked {actorId reason : String}
    (moved : Transition sha256 db clock
      (.revokeGrant tenant grant actorId reason) response next)
    (revoked : db.RevokedFrom tenant grant since) : next = db := by
  obtain ⟨row, found, marked⟩ := revoked
  cases moved with
  | unchanged _ => rfl
  | grantRevoked otherFound unrevoked _ =>
      obtain rfl := Option.some.inj (found.symm.trans otherFound)
      simp [marked] at unrevoked

/-- A loaded chain below a revoked grant contains it as revoked. -/
theorem GrantForest.revoked_mem_chain (forest : db.GrantForest)
    (revoked : db.RevokedFrom tenant grant since)
    (descends : db.Descends tenant grant leaf)
    (loaded : db.loadGrantChainLocked tenant leaf = .ok chain) :
    ∃ ancestor ∈ chain, ancestor.revoked = true := by
  obtain ⟨path, lineage, rfl⟩ := forest.exists_of_load loaded
  obtain ⟨row, found, marked⟩ := revoked
  obtain ⟨stored, tenantEq, rfl⟩ := findGrant_eq_some_iff.mp found
  have member : row ∈ db.chainRows tenant path := mem_chainRows_iff.mpr
    ⟨(mem_ancestry_iff lineage).mpr descends, stored, tenantEq⟩
  exact ⟨row.decoded, List.mem_map_of_mem member,
    by simp [GrantRow.decoded, marked]⟩

/-- No chain below a revoked grant validates. -/
theorem GrantForest.validateChain_ne_ok (forest : db.GrantForest)
    (revoked : db.RevokedFrom tenant grant since)
    (descends : db.Descends tenant grant leaf)
    (loaded : db.loadGrantChainLocked tenant leaf = .ok chain)
    (nowMs : Int64) : validateChain chain tenant nowMs ≠ .ok () := by
  intro validated
  obtain ⟨ancestor, member, marked⟩ :=
    forest.revoked_mem_chain revoked descends loaded
  obtain ⟨_, links⟩ := validateChain_eq_ok_iff.mp validated
  obtain ⟨_, _, _, link⟩ := links.exists_link member
  simp [link.unrevoked] at marked

theorem not_ancestryLive_of_revoked
    (revoked : db.RevokedFrom tenant grant since)
    (descends : db.Descends tenant grant leaf) (now : Timestamp) :
    ¬ db.AncestryLive tenant leaf now := by
  intro live
  obtain ⟨row, found, marked⟩ := revoked
  obtain ⟨other, otherFound, unrevoked, _⟩ := live grant descends
  obtain rfl := Option.some.inj (found.symm.trans otherFound)
  simp [marked] at unrevoked

/-- A repeated revocation answers the original time. -/
theorem GrantForest.revokeGrant_eq (forest : db.GrantForest)
    (revoked : db.RevokedFrom tenant grant since) {actorId reason : String}
    (accepted : RevocationAccepted actorId reason) :
    db.revokeGrant sha256 clock tenant grant actorId reason =
      .ok (⟨grant, since⟩, db) := by
  obtain ⟨row, found, marked⟩ := revoked
  obtain ⟨path, lineage⟩ := forest.exists_ancestry
    (Option.ne_none_iff_exists'.mpr ⟨row, found⟩)
  rw [RevocationAccepted] at accepted
  simp only [revokeGrant, Except.require_of accepted, Except.ok_bind_eq,
    forest.loadGrantChainLocked_eq lineage, found, Except.fetch_some, marked]
  rfl

/-- No grant is created below a revoked one. -/
theorem Transition.not_createGrant_below {id parent : Uuid}
    {actorId : String} {authority : Authority}
    (moved : Transition sha256 db clock
      (.createGrant id tenant (some parent) actorId authority) response next)
    (forest : db.GrantForest) (revoked : db.RevokedFrom tenant grant since) :
    ¬ db.Descends tenant grant parent := by
  intro descends
  cases moved with
  | unchanged observed => cases observed
  | @grantCreated _ _ _ _ _ ancestry nowMs _ _ loaded _ _ validated _ =>
      have nonempty : ancestry ≠ [] := by
        obtain ⟨_, member, _⟩ :=
          forest.revoked_mem_chain revoked descends loaded
        exact List.ne_nil_of_mem member
      rw [if_neg nonempty] at validated
      simp only [validateChild, Except.bind_eq_ok_iff] at validated
      obtain ⟨_, _, _, chainValid, _⟩ := validated
      exact forest.validateChain_ne_ok revoked descends loaded nowMs chainValid

/-- Nothing is charged to a chain below a revoked grant. -/
theorem Transition.not_reserved_below {request : GrantReservation}
    {row : RunRow}
    (moved : Transition sha256 db clock (.reserveGrantChain request)
      (.reservation .created) next)
    (found : db.findRun request.tenant request.run = some row)
    (forest : db.GrantForest)
    (revoked : db.RevokedFrom request.tenant grant since) :
    ¬ db.Descends request.tenant grant row.grantId := by
  intro descends
  cases moved with
  | unchanged observed => cases observed
  | @reserved _ run _ _ nowMs _ _ _ _ runFound loaded _ _ _ _ planned _ _
      _ =>
      obtain rfl := Option.some.inj (found.symm.trans runFound)
      exact forest.validateChain_ne_ok revoked descends loaded nowMs
        (reservationPlan_eq_ok planned).1

/-- No run below a revoked grant is leased. -/
theorem Transition.not_leased_below {worker : String}
    {allowedTenants : List Uuid} {availableSlots : Nat}
    {policy : ClaimPolicy} {lease : Lease} {row : RunRow}
    (moved : Transition sha256 db clock
      (.claimRun worker allowedTenants availableSlots policy)
      (.lease (some lease)) next)
    (found : db.findRun lease.tenant lease.run = some row)
    (forest : db.GrantForest)
    (revoked : db.RevokedFrom lease.tenant grant since) :
    ¬ db.Descends lease.tenant grant row.grantId := by
  intro descends
  cases moved with
  | unchanged observed => cases observed
  | leased selected live _ _ _ _ _ _ =>
      obtain rfl := Option.some.inj (found.symm.trans selected.findRun_eq)
      exact not_ancestryLive_of_revoked revoked descends (clock 0)
        ((forest.chainLive_iff selected.loaded).mp live)

/-- A claim that selects a run below a revoked grant fails it. -/
theorem Sound.claimRun_denied (sound : db.Sound) (sha256 : Sha256)
    (clock : Clock) {worker : String} {allowedTenants : List Uuid}
    {availableSlots : Nat} {policy : ClaimPolicy} {owner : TenantRow} {row : RunRow}
    (accepted : ClaimAccepted worker allowedTenants availableSlots policy)
    (globalRoom : db.activeTotal < policy.maxActiveGlobal)
    (workerRoom : db.ownedCount worker < 2)
    (candidate : db.claimCandidate allowedTenants policy = some (owner, row))
    (revoked : db.RevokedFrom owner.id grant since)
    (descends : db.Descends owner.id grant row.grantId) :
    ∃ next, db.claimRun sha256 clock worker allowedTenants availableSlots
        policy = .ok (none, next) ∧
      ∃ new, next.findRun owner.id row.id = some new ∧ new.state = .failed ∧
        new.errorCode = some "GRANT_DENIED" := by
  obtain ⟨_, _, _, member, owned, _⟩ := claimCandidate_eq_some candidate
  have found : db.findRun owner.id row.id = some row :=
    findRun_eq_some_iff.mpr ⟨member, owned, rfl⟩
  rw [sound.claimRun_eq accepted globalRoom workerRoom candidate]
  obtain ⟨_, _, ⟨live, _⟩ | ⟨_, denied⟩⟩ :=
    sound.claimSelected_eq sha256 clock worker candidate
  · exact absurd live (not_ancestryLive_of_revoked revoked descends (clock 0))
  · rw [denied]
    exact sound.heads.denyGrant_ok found

end Database

/-- In every state of every continuation after an answered revocation of a
grant: the mark is as it was answered; revoking again changes nothing and, with
accepted metadata, answers the same time; no grant is created under it or a
descendant; no effect of a run below it is charged; no run below it is leased;
and a claim that selects one moves it to failed. -/
theorem revocation_final {sha256 : Sha256}
    {allowed : Database → Call → Prop} {db : Database}
    {history earlier later :
      List Event}
    {event : Event}
    {tenant grant : Uuid} {actorId reason : String} {record : RevocationRecord}
    (execution : StoreExecution sha256 allowed history db)
    (position : history = earlier ++ event :: later)
    (asked : event.call.command = .revokeGrant tenant grant actorId reason)
    (answered : event.outcome = .ok (.revocation record)) :
    db.RevokedFrom tenant grant record.revokedAt ∧
    (∀ clock actorId reason,
      (db.perform sha256
        ⟨.revokeGrant tenant grant actorId reason, clock⟩).2 = db ∧
      (RevocationAccepted actorId reason →
        (db.perform sha256
          ⟨.revokeGrant tenant grant actorId reason, clock⟩).1 =
            .ok (.revocation ⟨grant, record.revokedAt⟩))) ∧
    (∀ clock id parent actorId authority response,
      db.Descends tenant grant parent →
      (db.perform sha256
        ⟨.createGrant id tenant (some parent) actorId authority, clock⟩).1 ≠
          .ok response) ∧
    (∀ clock run ordinal row, db.findRun tenant run = some row →
      db.Descends tenant grant row.grantId →
      (db.perform sha256
        ⟨.reserveGrantChain ⟨tenant, run, ordinal⟩, clock⟩).1 ≠
          .ok (.reservation .created)) ∧
    (∀ clock worker allowedTenants availableSlots policy lease row,
      db.findRun tenant lease.run = some row →
      db.Descends tenant grant row.grantId → lease.tenant = tenant →
      (db.perform sha256
        ⟨.claimRun worker allowedTenants availableSlots policy, clock⟩).1 ≠
          .ok (.lease (some lease))) ∧
    ∀ clock worker allowedTenants availableSlots policy owner row,
      ClaimAccepted worker allowedTenants availableSlots policy →
      db.activeTotal < policy.maxActiveGlobal → db.ownedCount worker < 2 →
      db.claimCandidate allowedTenants policy = some (owner, row) →
      owner.id = tenant → db.Descends tenant grant row.grantId →
      ∃ next, db.perform sha256
          ⟨.claimRun worker allowedTenants availableSlots policy, clock⟩ =
            (.ok (.lease none), next) ∧
        ∃ new, next.findRun tenant row.id = some new ∧ new.state = .failed ∧
          new.errorCode = some "GRANT_DENIED" := by
  have sound := Reachable.sound ⟨history, execution⟩
  obtain ⟨_, _, done, continued⟩ := execution.split position
  rw [answered] at done
  have revoking := Database.transition_of_perform done
  rw [asked] at revoking
  have revoked := (Database.extends_of_execution continued).revokedFrom
    revoking.revokedFrom
  -- whatever a call answers from here on, it is a transition from `db`
  have transition : ∀ {call : Call} {response : Response},
      (db.perform sha256 call).1 = .ok response →
      Database.Transition sha256 db call.clock call.command response
        (db.perform sha256 call).2 := by
    intro call response succeeded
    exact Database.transition_of_perform (Prod.ext succeeded rfl)
  refine ⟨revoked, ?_, ?_, ?_, ?_, ?_⟩
  · intro clock actorId reason
    refine ⟨?_, fun accepted => ?_⟩
    · rcases db.perform_cases sha256
        ⟨.revokeGrant tenant grant actorId reason, clock⟩ with
        ⟨_, _, failed⟩ | ⟨response, next, moved, succeeded⟩
      · rw [failed]
      · rw [succeeded]
        exact moved.eq_of_revoked revoked
    · have repeated : db.revokeGrant sha256 clock tenant grant actorId reason =
          .ok (⟨grant, record.revokedAt⟩, db) :=
        sound.forest.revokeGrant_eq revoked accepted
      simp [Database.perform, Database.execute, repeated, Except.map]
  · intro clock id parent actorId authority response descends succeeded
    exact (transition succeeded).not_createGrant_below sound.forest revoked
      descends
  · intro clock run ordinal row found descends succeeded
    exact (transition succeeded).not_reserved_below found sound.forest revoked
      descends
  · rintro clock worker allowedTenants availableSlots policy lease row found
      descends rfl succeeded
    exact (transition succeeded).not_leased_below found sound.forest revoked
      descends
  · rintro clock worker allowedTenants availableSlots policy owner row accepted
      globalRoom workerRoom candidate rfl descends
    obtain ⟨next, denied, failed⟩ := sound.claimRun_denied sha256 clock accepted
      globalRoom workerRoom candidate revoked descends
    exact ⟨next,
      by simp [Database.perform, Database.execute, denied, Except.map], failed⟩

namespace Sample

def revocation : Call := ⟨.revokeGrant 1 10 "owner" "leaked", fun _ => 5⟩

/-- The waiting run with the root of its chain revoked. -/
def waitingRevoked : Database :=
  ((after admission).perform sha256 revocation).2

end Sample

theorem revocation_final_claim :
    ∃ next, Sample.waitingRevoked.perform Sample.sha256
        ⟨.claimRun "worker" [1] 1 Sample.claimPolicy, fun _ => 6⟩ =
          (.ok (.lease none), next) ∧
      ∃ new, next.findRun 1 20 = some new ∧ new.state = .failed ∧
        new.errorCode = some "GRANT_DENIED" := by
  have admitted : StoreExecution Sample.sha256 (fun _ _ => True) _
      (Sample.after Sample.admission) :=
    Sample.execution_after fun _ _ _ => trivial
  have execution := admitted.next Sample.revocation trivial
  have answered : ((Sample.after Sample.admission).perform Sample.sha256
      Sample.revocation).1 = .ok (.revocation ⟨10, 5⟩) :=
    Except.eq_ok_of_toOption (by decide +kernel)
  have chosen : (Sample.waitingRevoked.claimCandidate [1]
      Sample.claimPolicy).map
        (fun pair => (pair.1.id, pair.2.id, pair.2.grantId)) =
          some (1, 20, 11) := by decide +kernel
  have child : (Sample.waitingRevoked.findGrant 1 11).map GrantRow.parentId =
      some (some 10) := by decide +kernel
  obtain ⟨⟨owner, row⟩, candidate, columns⟩ := Option.map_eq_some_iff.mp chosen
  obtain ⟨grantRow, found, link⟩ := Option.map_eq_some_iff.mp child
  simp only [Prod.mk.injEq] at columns
  obtain ⟨ownerEq, rowEq, grantEq⟩ := columns
  have denied := (revocation_final execution rfl rfl answered).2.2.2.2.2
    (fun _ => 6) "worker" [1] 1 Sample.claimPolicy owner row
    (by unfold ClaimAccepted; decide) (by decide +kernel) (by decide +kernel)
    candidate ownerEq (grantEq ▸ .single ⟨grantRow, found, link⟩)
  rw [rowEq] at denied
  exact denied

end EffectLatch
