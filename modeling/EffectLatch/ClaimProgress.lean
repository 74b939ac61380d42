import EffectLatch.StoreProgress

/-!
# Claims reach a run that can be leased

A claim that selects a run whose authority is gone fails that run and answers
nothing, so a worker may be turned away while there is work for it.  Each such
answer takes one run out of the queue for good: claims repeated while some run
keeps its authority soon end in a lease.
-/

namespace EffectLatch

/-- A worker that claims under a policy. -/
structure Claimant where
  worker : String
  allowedTenants : List Uuid
  availableSlots : Nat
  policy : ClaimPolicy

namespace Claimant

def Accepted (claimant : Claimant) : Prop :=
  ClaimAccepted claimant.worker claimant.allowedTenants
    claimant.availableSlots claimant.policy

/-- A claim under a clock. -/
def call (claimant : Claimant) (clock : Clock) : Call :=
  ⟨.claimRun claimant.worker claimant.allowedTenants claimant.availableSlots
    claimant.policy, clock⟩

end Claimant

namespace Database

variable {sha256 : Sha256} {db next : Database} {clock : Clock}
  {claimant : Claimant}

/-- What every transition keeps of a sound state. -/
theorem Sound.transition (sound : db.Sound) {command : Command}
    {response : Response}
    (moved : Transition sha256 db clock command response next) :
    next.Sound where
  references := moved.references sound.references
  forest := moved.grantForest sound.forest
  slots := moved.slotsAccounted
    (fun _ _ _ _ _ valid => Int.ofNat_le.mpr valid.global.2)
    sound.references sound.slots
  heads := moved.eventHeads sound.heads

/-- A slot is free for the worker, in all and of its own. -/
structure Room (db : Database) (claimant : Claimant) : Prop where
  global : db.activeTotal < claimant.policy.maxActiveGlobal
  worker : db.ownedCount claimant.worker < 2

/-- The claimant may serve the tenant and lease its run. -/
structure Eligible (db : Database) (claimant : Claimant) (tenant : TenantRow)
    (row : RunRow) : Prop where
  tenantStored : tenant ∈ db.tenants.rows
  allowed : tenant.id ∈ claimant.allowedTenants
  free : tenant.activeCount <
    min tenant.activeLimit claimant.policy.maxActivePerTenant
  stored : row ∈ db.runs.rows
  owned : row.tenantId = tenant.id
  claimable : row.claimable claimant.policy.maxAttempts = true

theorem eligible_of_candidate {tenant : TenantRow} {row : RunRow}
    (candidate : db.claimCandidate claimant.allowedTenants claimant.policy =
      some (tenant, row)) : db.Eligible claimant tenant row := by
  obtain ⟨tenantStored, allowed, free, stored, owned, claimable⟩ :=
    claimCandidate_eq_some candidate
  exact ⟨tenantStored, allowed, free, stored, owned, claimable⟩

/-- The claim query finds a run when there is one. -/
theorem Eligible.exists_candidate {tenant : TenantRow} {row : RunRow}
    (eligible : db.Eligible claimant tenant row) :
    ∃ selected, db.claimCandidate claimant.allowedTenants claimant.policy =
      some selected := by
  apply Option.ne_none_iff_exists'.mp
  intro none
  have empty := List.filterMap_eq_nil_iff.mp
    (List.first_eq_none_iff.mp none) tenant eligible.tenantStored
  rw [if_pos ⟨eligible.allowed, eligible.free⟩, Option.map_eq_none_iff,
    List.first_eq_none_iff, List.filter_eq_nil_iff] at empty
  exact empty row eligible.stored
    (by simp [eligible.owned, eligible.claimable])

/-- How a claim ends. -/
inductive ClaimOutcome (sha256 : Sha256) (db : Database) (claimant : Claimant)
    (clock : Clock) : Prop
  | nothing
      (idle : ¬ db.Room claimant ∨
        ∀ tenant row, ¬ db.Eligible claimant tenant row)
      (performed : db.perform sha256 (claimant.call clock) =
        (.ok (.lease none), db))
  | leased {tenant : TenantRow} {row : RunRow} {lease : Lease}
      {next : Database} (room : db.Room claimant)
      (eligible : db.Eligible claimant tenant row)
      (live : db.AncestryLive tenant.id row.grantId (clock 0))
      (performed : db.perform sha256 (claimant.call clock) =
        (.ok (.lease (some lease)), next))
  | denied {tenant : TenantRow} {row : RunRow} {next : Database}
      (room : db.Room claimant) (eligible : db.Eligible claimant tenant row)
      (dead : ¬ db.AncestryLive tenant.id row.grantId (clock 0))
      (performed : db.perform sha256 (claimant.call clock) =
        (.ok (.lease none), next))
      (replaced : ∃ entries, Table.Replaced db.runs next.runs row
        ((row.deniedAt (clock 1)).advance sha256 entries))
      (tenants : next.tenants = db.tenants) (grants : next.grants = db.grants)
      (numbered : next.schedulerState = db.schedulerState)

/-- What a denial writes. -/
theorem denyGrant_replaced {tenant run : Uuid} {row : RunRow}
    {result : Option Lease} (found : db.findRun tenant run = some row)
    (denied : db.denyGrant sha256 clock tenant run = .ok (result, next)) :
    result = none ∧
      (∃ entries, Table.Replaced db.runs next.runs row
        ((row.deniedAt (clock 1)).advance sha256 entries)) ∧
      next.tenants = db.tenants ∧ next.grants = db.grants ∧
      next.schedulerState = db.schedulerState := by
  simp only [denyGrant, Except.bind_eq_ok_iff, Except.pure_eq_ok_iff,
    Prod.mk.injEq] at denied
  obtain ⟨_, updated, _, first, _, second, rfl, rfl⟩ := denied
  obtain ⟨runs, rfl, moved⟩ := updateRun_recorded sha256 updated found
  obtain ⟨_, _, rfl, denied⟩ := moved.append found first rfl rfl
  obtain ⟨_, _, rfl, failed⟩ := denied.append found second rfl rfl
  exact ⟨rfl, ⟨_, failed.replaced⟩, rfl, rfl, rfl⟩

/-- A claim without room or without a candidate changes nothing. -/
theorem Sound.claimRun_idle (sound : db.Sound) (accepted : claimant.Accepted)
    (idle : ¬ db.Room claimant ∨
      db.claimCandidate claimant.allowedTenants claimant.policy = none) :
    db.claimRun sha256 clock claimant.worker claimant.allowedTenants
      claimant.availableSlots claimant.policy = .ok (none, db) := by
  have counted : 0 ≤ (db.tenants.rows.map TenantRow.activeCount).sum ∧
      (db.tenants.rows.map TenantRow.activeCount).sum ≤ 4 :=
    ⟨db.activeTotal_nonneg, sound.slots.total⟩
  rw [Claimant.Accepted, ClaimAccepted] at accepted
  simp only [claimRun, beginScheduler, Except.ok_bind_eq,
    Except.require_of accepted, Except.require_of sound.references.scheduler,
    Except.require_of counted]
  split
  · rfl
  next globalRoom =>
  split
  · rfl
  next workerRoom =>
  have room : db.Room claimant := ⟨not_le.mp globalRoom, not_le.mp workerRoom⟩
  rcases idle with full | none
  · exact absurd room full
  · rw [none]
    rfl

/-- An accepted claim ends one of three ways, as the room, the queue and the
ancestry of the selected run say. -/
theorem Sound.claim_cases (sound : db.Sound) (sha256 : Sha256)
    (accepted : claimant.Accepted)
    (numbers : ∀ seq, db.schedulerState = some seq → seq < i64Max)
    (clock : Clock) : ClaimOutcome sha256 db claimant clock := by
  obtain ⟨seq, numbered⟩ :=
    Option.ne_none_iff_exists'.mp sound.references.scheduler
  have performed : ∀ {result : Option Lease × Database},
      db.claimRun sha256 clock claimant.worker
          claimant.allowedTenants claimant.availableSlots claimant.policy =
        .ok result →
      db.perform sha256 (claimant.call clock) =
        (.ok (.lease result.1), result.2) := by
    intro result claimed
    simp [perform, execute, Claimant.call, claimed, Except.map]
  by_cases room : db.Room claimant
  · cases candidate : db.claimCandidate claimant.allowedTenants
      claimant.policy with
    | none =>
        refine .nothing (.inr fun tenant row eligible => ?_)
          (performed (sound.claimRun_idle accepted (.inr candidate)))
        obtain ⟨selected, found⟩ := eligible.exists_candidate
        exact absurd (candidate.symm.trans found) (by simp)
    | some selected =>
        obtain ⟨tenant, row⟩ := selected
        have eligible := eligible_of_candidate candidate
        have claimed : db.claimRun sha256 clock claimant.worker
            claimant.allowedTenants claimant.availableSlots claimant.policy =
              db.claimSelected sha256 clock claimant.worker claimant.policy
                tenant.id row.id :=
          sound.claimRun_eq accepted room.global room.worker candidate
        obtain ⟨chain, _, ⟨live, issued⟩ | ⟨dead, denied⟩⟩ :=
          sound.claimSelected_eq sha256 clock claimant.worker
            candidate
        · obtain ⟨lease, next, leased⟩ := sound.exists_issueLease sha256
            clock accepted.1 accepted.2.2.2.2.2.2.1.2 numbered
            (numbers seq numbered) candidate
          exact .leased room eligible live
            (performed (claimed.trans (issued.trans leased)))
        · obtain ⟨_, _, found, _, _⟩ := sound.claimCandidate_free candidate
          obtain ⟨next, failed, _⟩ := sound.heads.denyGrant_ok found
          obtain ⟨_, replaced, tenants, grants, state⟩ :=
            denyGrant_replaced found failed
          exact .denied room eligible dead
            (performed (claimed.trans (denied.trans failed))) replaced tenants
            grants state
  · exact .nothing (.inl room)
      (performed (sound.claimRun_idle accepted (.inl room)))

/-! ## Claims one after another -/

/-- Liveness looks at the grants only. -/
theorem ancestryLive_congr (same : next.grants = db.grants)
    (tenant grant : Uuid) (now : Timestamp) :
    next.AncestryLive tenant grant now ↔ db.AncestryLive tenant grant now := by
  unfold AncestryLive Descends Delegates findGrant
  rw [same]

/-- The runs a claim may still select. -/
def claimableCount (db : Database) (policy : ClaimPolicy) : Nat :=
  db.runs.rows.countP (RunRow.claimable policy.maxAttempts)

/-- The state after the first claims of a sequence. -/
def afterClaims (sha256 : Sha256) (db : Database) (claimant : Claimant)
    (clocks : Nat → Clock) : Nat → Database
  | 0 => db
  | turn + 1 =>
      ((db.afterClaims sha256 claimant clocks turn).perform sha256
        (claimant.call (clocks turn))).2

/-- The answer to a claim of a sequence. -/
def claimAnswer (sha256 : Sha256) (db : Database) (claimant : Claimant)
    (clocks : Nat → Clock) (turn : Nat) : Except Error Response :=
  ((db.afterClaims sha256 claimant clocks turn).perform sha256
    (claimant.call (clocks turn))).1

/-- There is room, a number for another lease, and the run can be claimed. -/
structure Waiting (db : Database) (claimant : Claimant) (tenant : TenantRow)
    (row : RunRow) : Prop where
  sound : db.Sound
  numbers : ∀ seq, db.schedulerState = some seq → seq < i64Max
  room : db.Room claimant
  eligible : db.Eligible claimant tenant row

/-- A claim fails a run the claimant could have been given, because its
authority is not live. -/
structure Denies (sha256 : Sha256) (db next : Database) (claimant : Claimant)
    (clock : Clock) (tenant : TenantRow) (lost : RunRow) : Prop where
  eligible : db.Eligible claimant tenant lost
  dead : ¬ db.AncestryLive tenant.id lost.grantId (clock 0)
  failed : ∃ entries, Table.Replaced db.runs next.runs lost
    ((lost.deniedAt (clock 1)).advance sha256 entries)

/-- A denial of another run leaves a waiting run waiting, with one run fewer
before it. -/
theorem Waiting.denied {tenant : TenantRow} {row lost : RunRow}
    {entries : List (String × List UInt8)} {now : Timestamp}
    (waiting : db.Waiting claimant tenant row) (sound : next.Sound)
    (replaced : Table.Replaced db.runs next.runs lost
      ((lost.deniedAt now).advance sha256 entries))
    (tenants : next.tenants = db.tenants)
    (numbered : next.schedulerState = db.schedulerState)
    (claimable : lost.claimable claimant.policy.maxAttempts = true)
    (other : row ≠ lost) :
    next.Waiting claimant tenant row ∧
      next.claimableCount claimant.policy <
        db.claimableCount claimant.policy := by
  have owned : next.ownedCount claimant.worker =
      db.ownedCount claimant.worker :=
    replaced.countP_eq _ (by rfl)
  have fewer := replaced.countP_add
    (RunRow.claimable claimant.policy.maxAttempts)
  have gone : ((lost.deniedAt now).advance sha256 entries).claimable
      claimant.policy.maxAttempts = false := by
    simp [RunRow.claimable, RunRow.advance, RunRow.deniedAt]
  rw [if_pos claimable, gone, if_neg Bool.false_ne_true] at fewer
  refine ⟨⟨sound, ?_, ⟨?_, ?_⟩, ?_⟩, by simp only [claimableCount]; omega⟩
  · rw [numbered]
    exact waiting.numbers
  · simp only [activeTotal, tenants]
    exact waiting.room.global
  · rw [owned]
    exact waiting.room.worker
  · exact { waiting.eligible with
      tenantStored := tenants ▸ waiting.eligible.tenantStored
      stored := replaced.mem_iff.mpr (.inr ⟨waiting.eligible.stored, other⟩) }

theorem Waiting.claimableCount_pos {tenant : TenantRow} {row : RunRow}
    (waiting : db.Waiting claimant tenant row) :
    0 < db.claimableCount claimant.policy :=
  List.countP_pos_iff.mpr
    ⟨row, waiting.eligible.stored, waiting.eligible.claimable⟩

/-- While a run waits with its authority live, a claim leases a run, or fails
another one and leaves this one waiting. -/
theorem Waiting.claim (sha256 : Sha256) {tenant : TenantRow} {row : RunRow}
    (waiting : db.Waiting claimant tenant row) (accepted : claimant.Accepted)
    (live : db.AncestryLive tenant.id row.grantId (clock 0)) :
    (∃ lease, (db.perform sha256 (claimant.call clock)).1 =
        .ok (.lease (some lease))) ∨
      ∃ next, db.perform sha256 (claimant.call clock) =
          (.ok (.lease none), next) ∧
        (∃ owner lost, Denies sha256 db next claimant clock owner lost) ∧
        next.grants = db.grants ∧ next.Waiting claimant tenant row ∧
        next.claimableCount claimant.policy <
          db.claimableCount claimant.policy := by
  cases waiting.sound.claim_cases sha256 accepted waiting.numbers clock with
  | nothing idle =>
      rcases idle with full | none
      · exact absurd waiting.room full
      · exact absurd waiting.eligible (none tenant row)
  | @leased _ _ lease _ _ _ _ performed =>
      exact .inl ⟨lease, by rw [performed]⟩
  | @denied owner lost next _ eligible dead performed replaced tenants grants
      numbered =>
      have denies : Denies sha256 db next claimant clock owner lost :=
        ⟨eligible, dead, replaced⟩
      obtain ⟨_, replaced⟩ := replaced
      have other : row ≠ lost := by
        rintro rfl
        apply dead
        rwa [← eligible.owned, waiting.eligible.owned]
      have sound := waiting.sound.transition (transition_of_perform performed)
      exact .inr ⟨next, performed, ⟨owner, lost, denies⟩, grants,
        waiting.denied sound replaced tenants numbered eligible.claimable
          other⟩

end Database

open Database

/-- While there is room for a worker and a run it may serve keeps its authority,
its claims are answered with nothing fewer times than runs are claimable, each
time because a run whose authority is not live is failed; and then one of them
is answered with a lease. -/
theorem claims_reach_lease {sha256 : Sha256}
    {allowed : Database → Call → Prop} {db : Database} {claimant : Claimant}
    {clocks : Nat → Clock} {tenant : TenantRow} {row : RunRow}
    (reached : Reachable sha256 allowed db) (accepted : claimant.Accepted)
    (numbers : ∀ seq, db.schedulerState = some seq → seq < i64Max)
    (room : db.Room claimant) (eligible : db.Eligible claimant tenant row)
    (live : ∀ turn < db.claimableCount claimant.policy,
      db.AncestryLive tenant.id row.grantId (clocks turn 0)) :
    ∃ count < db.claimableCount claimant.policy,
      (∀ turn < count,
        db.claimAnswer sha256 claimant clocks turn = .ok (.lease none) ∧
          ∃ owner lost, Denies sha256
            (db.afterClaims sha256 claimant clocks turn)
            (db.afterClaims sha256 claimant clocks (turn + 1)) claimant
            (clocks turn) owner lost) ∧
      ∃ lease, db.claimAnswer sha256 claimant clocks count =
        .ok (.lease (some lease)) := by
  let states := db.afterClaims sha256 claimant clocks
  let weight := fun turn => (states turn).claimableCount claimant.policy
  let Leases := fun turn => ∃ lease,
    db.claimAnswer sha256 claimant clocks turn = .ok (.lease (some lease))
  let Holds := fun turn => turn + weight turn ≤ weight 0 ∧
    (states turn).grants = db.grants ∧
    (states turn).Waiting claimant tenant row
  have step : ∀ turn, Holds turn → ¬ Leases turn →
      (db.claimAnswer sha256 claimant clocks turn = .ok (.lease none) ∧
        ∃ owner lost, Denies sha256 (states turn) (states (turn + 1)) claimant
          (clocks turn) owner lost) ∧
        Holds (turn + 1) ∧ weight (turn + 1) < weight turn := by
    intro turn ⟨used, grants, waiting⟩ denied
    have left : 0 < weight turn := waiting.claimableCount_pos
    have alive := (ancestryLive_congr grants tenant.id row.grantId _).mpr
      (live turn (show turn < weight 0 by omega))
    rcases waiting.claim sha256 accepted alive with
      leased | ⟨next, performed, denies, kept, still, fewer⟩
    · exact absurd leased denied
    · have moved : states (turn + 1) = next := congrArg Prod.snd performed
      have lower : weight (turn + 1) < weight turn := by
        simpa only [weight, moved] using fewer
      refine ⟨⟨congrArg Prod.fst performed, ?_⟩, ⟨by omega, ?_, ?_⟩, lower⟩
      · rw [moved]
        exact denies
      · rw [moved, kept, grants]
      · rw [moved]
        exact still
  have start : Holds 0 :=
    ⟨by omega, rfl, reached.sound, numbers, room, eligible⟩
  obtain ⟨count, used, ⟨_, _, waiting⟩, leased, first⟩ :=
    exists_first_turn (fun turn holds denied => (step turn holds denied).2)
      start
  have left : 0 < weight count := waiting.claimableCount_pos
  refine ⟨count, show count < weight 0 by omega, fun turn before => ?_, leased⟩
  exact (step turn (first turn before).1 (first turn before).2).1

namespace Sample

/-- A run of the child grant, which is revoked, and a later one of the root. -/
def stranded : List Command :=
  admission ++ [.admitRun 21 1 "other" { request with grantId := 10 } 10 10,
    .revokeGrant 1 11 "owner" "leaked"]

def claimant : Claimant := ⟨"worker", [1], 1, claimPolicy⟩

end Sample

theorem claims_reach_lease_stranded :
    (Sample.after Sample.stranded).claimAnswer Sample.sha256 Sample.claimant
        (fun _ _ => 5) 0 = .ok (.lease none) ∧
      ∃ count < 2,
        (∀ turn < count,
          (Sample.after Sample.stranded).claimAnswer Sample.sha256
              Sample.claimant (fun _ _ => 5) turn = .ok (.lease none) ∧
            ∃ owner lost, Denies Sample.sha256
              ((Sample.after Sample.stranded).afterClaims Sample.sha256
                Sample.claimant (fun _ _ => 5) turn)
              ((Sample.after Sample.stranded).afterClaims Sample.sha256
                Sample.claimant (fun _ _ => 5) (turn + 1)) Sample.claimant
              (fun _ => 5) owner lost) ∧
        ∃ lease, (Sample.after Sample.stranded).claimAnswer Sample.sha256
            Sample.claimant (fun _ _ => 5) count =
          .ok (.lease (some lease)) := by
  have reached : Reachable Sample.sha256 (fun _ _ => True)
      (Sample.after Sample.stranded) :=
    Sample.reachable_after fun _ _ _ => trivial
  have numbered : (Sample.after Sample.stranded).schedulerState = some 0 := by
    decide +kernel
  have few : (Sample.after Sample.stranded).claimableCount Sample.claimPolicy =
      2 := by
    decide +kernel
  have room : (Sample.after Sample.stranded).Room Sample.claimant :=
    ⟨by decide +kernel, by decide +kernel⟩
  obtain ⟨tenant, stored, same, free⟩ :
      ∃ tenant ∈ (Sample.after Sample.stranded).tenants.rows, tenant.id = 1 ∧
        tenant.activeCount < min tenant.activeLimit 1 := by
    decide +kernel
  obtain ⟨row, waiting, owned, under, claimable⟩ :
      ∃ row ∈ (Sample.after Sample.stranded).runs.rows, row.tenantId = 1 ∧
        row.grantId = 10 ∧ row.claimable 3 = true := by
    decide +kernel
  have eligible : (Sample.after Sample.stranded).Eligible Sample.claimant
      tenant row :=
    ⟨stored, by rw [same]; decide, free, waiting, owned.trans same.symm,
      claimable⟩
  have live : (Sample.after Sample.stranded).AncestryLive tenant.id row.grantId
      5 := by
    rw [same, under]
    have root : ((Sample.after Sample.stranded).findGrant 1 10).map
        (fun grant => (grant.parentId, grant.revokedAt, grant.expiresAt)) =
          some (none, none, 1000000) := by
      decide +kernel
    obtain ⟨grant, found, columns⟩ := Option.map_eq_some_iff.mp root
    simp only [Prod.mk.injEq] at columns
    obtain ⟨rooted, unrevoked, expires⟩ := columns
    refine (reached.grantForest.ancestryLive_iff found unrevoked
      (by rw [expires]; decide)).mpr fun ancestor above => ?_
    obtain ⟨_, _, other, otherFound, link⟩ :=
      Relation.TransGen.tail'_iff.mp above
    rw [Option.some.inj (otherFound.symm.trans found), rooted] at link
    exact absurd link (by simp)
  refine ⟨Except.eq_ok_of_toOption (by decide +kernel), few ▸ ?_⟩
  have accepted : Sample.claimant.Accepted := by
    unfold Claimant.Accepted ClaimAccepted
    decide
  exact claims_reach_lease reached accepted
    (fun seq known => by
      rw [← Option.some.inj (numbered.symm.trans known)]
      decide)
    room eligible fun _ _ => live

end EffectLatch
