import EffectLatch.StoreSchedulerSoundness
import Mathlib.Data.Prod.Lex

/-!
# Bounded bypass between tenants

A claim serves the least recently served tenant it may serve.  A served tenant
carries the newest dispatch number, so a tenant that waits and could be served
is passed over at most once for each other tenant.
-/

namespace EffectLatch

/-- The rank `ORDER BY created_at,id` gives a run. -/
def RunRow.rank (row : RunRow) : Timestamp ×ₗ Uuid :=
  toLex (row.createdAt, row.id)

/-- The rank `ORDER BY last_served_seq,id` gives a tenant. -/
def TenantRow.rank (row : TenantRow) : Int ×ₗ Uuid :=
  toLex (row.lastServedSeq, row.id)

theorem RunRow.older_iff (first second : RunRow) :
    first.older second = true ↔ first.rank < second.rank := by
  simp only [older, decide_eq_true_eq, rank, Prod.Lex.toLex_lt_toLex]

/-- The call leased a run of the tenant. -/
def Event.leases (tenant : Uuid) (event : Event) : Bool :=
  match event.outcome with
  | .ok (.lease (some lease)) => decide (lease.tenant = tenant)
  | _ => false

theorem Event.leases_eq {event : Event} {lease : Lease}
    (outcome : event.outcome = .ok (.lease (some lease))) (tenant : Uuid) :
    event.leases tenant = decide (lease.tenant = tenant) := by
  rw [leases, outcome]

theorem Event.leases_eq_false {event : Event}
    (unleased : ∀ lease, event.outcome ≠ .ok (.lease (some lease)))
    (tenant : Uuid) : event.leases tenant = false := by
  rw [leases]
  split
  next lease outcome => exact absurd outcome (unleased lease)
  next => rfl

namespace Database

variable {sha256 : Sha256} {db next : Database} {clock : Clock}
  {command : Command} {response : Response} {worker : String}
  {policy : ClaimPolicy} {allowedTenants : List Uuid} {id : Uuid}

/-- The tenant is allowed, has a free slot and a run waiting that a claim may
lease. -/
structure Servable (db : Database) (tenant : Uuid)
    (allowedTenants : List Uuid) (policy : ClaimPolicy) : Prop where
  permitted : tenant ∈ allowedTenants
  free : ∃ row ∈ db.tenants.rows, row.id = tenant ∧
    row.activeCount < min row.activeLimit 1
  waiting : ∃ run ∈ db.runs.rows, run.tenantId = tenant ∧
    run.claimable policy.maxAttempts = true

/-- The selected run is the oldest of its tenant that can be claimed. -/
theorem claimCandidate_oldest {tenant : TenantRow} {row other : RunRow}
    (found : db.claimCandidate allowedTenants policy = some (tenant, row))
    (member : other ∈ db.runs.rows) (owned : other.tenantId = tenant.id)
    (claimable : other.claimable policy.maxAttempts = true) :
    row.rank ≤ other.rank := by
  have paired := List.first_mem found
  simp only [List.mem_filterMap] at paired
  obtain ⟨owner, _, paired⟩ := paired
  split at paired
  next eligible =>
    simp only [Option.map_eq_some_iff, Prod.mk.injEq] at paired
    obtain ⟨run, oldest, rfl, rfl⟩ := paired
    apply List.first_le RunRow.rank RunRow.older_iff oldest
    simp [member, owned, claimable]
  next => simp at paired

/-- The selected tenant is the least recently served of those that could be
served. -/
theorem claimCandidate_least {tenant other : TenantRow} {row : RunRow}
    (found : db.claimCandidate allowedTenants policy = some (tenant, row))
    (single : policy.maxActivePerTenant = 1) (member : other ∈ db.tenants.rows)
    (servable : db.Servable other.id allowedTenants policy) :
    tenant.rank ≤ other.rank := by
  obtain ⟨permitted, ⟨stored, storedMember, sameId, free⟩,
    ⟨run, runMember, owned, claimable⟩⟩ := servable
  obtain rfl : stored = other :=
    db.tenants.eq_of_key_eq storedMember member sameId
  have waiting : (db.runs.rows.filter fun row =>
      decide (row.tenantId = stored.id) &&
        row.claimable policy.maxAttempts).first RunRow.older ≠ none := by
    rw [ne_eq, List.first_eq_none_iff]
    apply List.ne_nil_of_mem
    rw [List.mem_filter]
    exact ⟨runMember, by simp [owned, claimable]⟩
  obtain ⟨oldest, first⟩ := Option.ne_none_iff_exists'.mp waiting
  have ordered (one other : TenantRow × RunRow) :
      decide (one.1.lastServedSeq < other.1.lastServedSeq ∨
        (one.1.lastServedSeq = other.1.lastServedSeq ∧
          one.1.id < other.1.id)) = true ↔ one.1.rank < other.1.rank := by
    simp only [decide_eq_true_eq, TenantRow.rank, Prod.Lex.toLex_lt_toLex]
  have selected : (if stored.id ∈ allowedTenants ∧ stored.activeCount <
      min stored.activeLimit (policy.maxActivePerTenant : Int) then
        ((db.runs.rows.filter fun row =>
          decide (row.tenantId = stored.id) &&
            row.claimable policy.maxAttempts).first RunRow.older).map
          fun run => (stored, run)
      else none) = some (stored, oldest) := by
    rw [if_pos ⟨permitted, by simpa [single] using free⟩, first]
    rfl
  exact List.first_le (fun pair => pair.1.rank) ordered found
    (List.mem_filterMap.mpr ⟨stored, member, selected⟩)

/-- The dispatch number the tenant was last served with, if any. -/
def servedSeq (db : Database) (tenant : Uuid) : Int :=
  ((db.findTenant tenant).map TenantRow.lastServedSeq).getD 0

def dispatchSeq (db : Database) : Int := db.schedulerState.getD 0

theorem servedSeq_eq {row : TenantRow} (member : row ∈ db.tenants.rows) :
    db.servedSeq row.id = row.lastServedSeq := by
  have found : db.findTenant row.id = some row :=
    findTenant_eq_some_iff.mpr ⟨member, rfl⟩
  rw [servedSeq, found]
  rfl

/-- Tables with the same rows of a tenant tell the same of it. -/
theorem servedSeq_congr
    (same : ∀ row : TenantRow, row.id = id →
      (row ∈ next.tenants.rows ↔ row ∈ db.tenants.rows)) :
    next.servedSeq id = db.servedSeq id := by
  have found : next.findTenant id = db.findTenant id := by
    apply Option.ext
    intro row
    rw [findTenant_eq_some_iff, findTenant_eq_some_iff]
    exact and_congr_left fun sameId => same row sameId
  rw [servedSeq, servedSeq, found]

/-- Rewriting one tenant's row is seen at that tenant only. -/
theorem servedSeq_of_replaced {old new : TenantRow}
    (replaced : Table.Replaced db.tenants next.tenants old new) (id : Uuid) :
    next.servedSeq id =
      if id = old.id then new.lastServedSeq else db.servedSeq id := by
  have sameId : new.id = old.id := replaced.sameKey
  split
  next here =>
    rw [here, ← sameId]
    exact servedSeq_eq replaced.new_mem
  next elsewhere =>
    apply servedSeq_congr
    intro row owned
    rw [replaced.mem_iff]
    constructor
    · rintro (rfl | ⟨stored, _⟩)
      · exact absurd (owned.symm.trans sameId) elsewhere
      · exact stored
    · intro stored
      refine .inr ⟨stored, ?_⟩
      rintro rfl
      exact elsewhere owned.symm

theorem servedSeq_of_kept {old new : TenantRow}
    (replaced : Table.Replaced db.tenants next.tenants old new)
    (kept : new.lastServedSeq = old.lastServedSeq) (id : Uuid) :
    next.servedSeq id = db.servedSeq id := by
  rw [servedSeq_of_replaced replaced id]
  split
  next here => rw [here, kept, servedSeq_eq replaced.member]
  next => rfl

/-- A new tenant was never served. -/
theorem servedSeq_of_inserted {queueLimit activeLimit : Int} {fresh : Uuid}
    (inserted : Table.Inserted db.tenants next.tenants
      ⟨fresh, queueLimit, activeLimit, 0, 0⟩) (id : Uuid) :
    next.servedSeq id = db.servedSeq id := by
  by_cases here : id = fresh
  · have missing : db.findTenant fresh = none := by
      rw [Option.eq_none_iff_forall_ne_some]
      intro row found
      obtain ⟨stored, sameId⟩ := findTenant_eq_some_iff.mp found
      have apart := inserted.fresh row stored
      simp [TenantRow.schema, sameId] at apart
    have found : ⟨fresh, queueLimit, activeLimit, 0, 0⟩ ∈
        next.tenants.rows := by
      rw [inserted.rows]
      simp
    rw [here, servedSeq_eq found, servedSeq, missing]
    rfl
  · apply servedSeq_congr
    intro row owned
    rw [inserted.rows, List.mem_append, List.mem_singleton]
    constructor
    · rintro (stored | rfl)
      · exact stored
      · exact absurd owned.symm here
    · exact .inl

/-- A lease serves the first candidate with the next dispatch number. -/
structure Serves (db : Database) (allowedTenants : List Uuid)
    (policy : ClaimPolicy) (lease : Lease) (next : Database) : Prop where
  candidate : ∃ tenant row,
    db.claimCandidate allowedTenants policy = some (tenant, row) ∧
      lease.tenant = tenant.id ∧ lease.run = row.id
  single : policy.maxActivePerTenant = 1
  numbered : next.dispatchSeq = db.dispatchSeq + 1
  served : ∀ id, next.servedSeq id =
    if id = lease.tenant then db.dispatchSeq + 1 else db.servedSeq id

/-- Nobody is served. -/
structure ServesNobody (db next : Database) : Prop where
  numbered : next.dispatchSeq = db.dispatchSeq
  served : ∀ id, next.servedSeq id = db.servedSeq id

theorem Transition.serves_of_lease {lease : Lease}
    (moved : Transition sha256 db clock command (.lease (some lease)) next) :
    ∃ worker allowedTenants slots policy,
      command = .claimRun worker allowedTenants slots policy ∧
        db.Serves allowedTenants policy lease next := by
  cases moved with
  | unchanged observed => cases observed
  | leased selected _ numbered _ _ served _ _ =>
      refine ⟨_, _, _, _, rfl, ⟨_, _, selected.candidate, rfl, rfl⟩,
        selected.valid.perTenant, ?_, ?_⟩
      · simp [dispatchSeq, numbered]
      · intro id
        rw [servedSeq_of_replaced served id]
        simp [dispatchSeq, numbered, TenantRow.servedAt]

theorem Transition.servesNobody
    (moved : Transition sha256 db clock command response next)
    (unleased : ∀ lease, response ≠ .lease (some lease)) :
    db.ServesNobody next := by
  cases moved with
  | leased => exact absurd rfl (unleased _)
  | expired _ _ _ _ _ _ _ _ released =>
      exact ⟨rfl, servedSeq_of_kept released rfl⟩
  | finished _ _ _ _ _ released =>
      exact ⟨rfl, servedSeq_of_kept released rfl⟩
  | tenantProvisioned inserted =>
      exact ⟨rfl, fun id => servedSeq_of_inserted inserted id⟩
  | _ => exact ⟨rfl, fun _ => rfl⟩

/-- No tenant was served with a number that was not given out. -/
structure DispatchOrdered (db : Database) : Prop where
  started : 0 ≤ db.dispatchSeq
  served : ∀ id, db.servedSeq id ≤ db.dispatchSeq

theorem dispatchOrdered_migrated : migrated.DispatchOrdered :=
  ⟨by decide, fun _ => le_of_eq rfl⟩

/-- A performed call leases to a servable tenant or serves nobody. -/
theorem perform_serves (sha256 : Sha256) (db : Database) (call : Call) :
    (∃ lease worker allowedTenants slots policy,
      (db.perform sha256 call).1 = .ok (.lease (some lease)) ∧
        call.command = .claimRun worker allowedTenants slots policy ∧
        db.Serves allowedTenants policy lease (db.perform sha256 call).2) ∨
      (∀ lease, (db.perform sha256 call).1 ≠ .ok (.lease (some lease))) ∧
        db.ServesNobody (db.perform sha256 call).2 := by
  rcases db.perform_cases sha256 call with
    ⟨failure, _, failed⟩ | ⟨response, next, moved, done⟩
  · rw [failed]
    exact .inr ⟨fun lease same => by simp at same, rfl, fun _ => rfl⟩
  · rw [done]
    by_cases leased : ∃ lease, response = .lease (some lease)
    · obtain ⟨lease, rfl⟩ := leased
      obtain ⟨worker, tenants, slots, policy, named, serves⟩ :=
        moved.serves_of_lease
      exact .inl ⟨lease, worker, tenants, slots, policy, rfl, named, serves⟩
    · have unleased : ∀ lease, response ≠ .lease (some lease) :=
        fun lease same => leased ⟨lease, same⟩
      refine .inr ⟨fun lease same => ?_, moved.servesNobody unleased⟩
      exact unleased lease (Except.ok.inj same)

theorem DispatchOrdered.perform (ordered : db.DispatchOrdered) (call : Call) :
    (db.perform sha256 call).2.DispatchOrdered := by
  rcases db.perform_serves sha256 call with
    ⟨lease, _, _, _, _, _, _, serves⟩ | ⟨_, nobody⟩
  · constructor
    · rw [serves.numbered]
      have := ordered.started
      omega
    · intro id
      rw [serves.numbered, serves.served id]
      have := ordered.served id
      split <;> omega
  · constructor
    · exact nobody.numbered ▸ ordered.started
    · intro id
      rw [nobody.numbered, nobody.served id]
      exact ordered.served id

/-- A lease to another tenant takes it behind a tenant that could be served,
and finds it not behind. -/
theorem Serves.passes {lease : Lease} {tenant : Uuid}
    (serves : db.Serves allowedTenants policy lease next)
    (ordered : db.DispatchOrdered)
    (servable : db.Servable tenant allowedTenants policy)
    (apart : lease.tenant ≠ tenant) :
    db.servedSeq lease.tenant ≤ db.servedSeq tenant ∧
      next.servedSeq tenant < next.servedSeq lease.tenant := by
  obtain ⟨served, run, candidate, owned, _⟩ := serves.candidate
  obtain ⟨row, member, rfl, _⟩ := servable.free
  have least := claimCandidate_least candidate serves.single member servable
  have servedMember := (claimCandidate_eq_some candidate).1
  constructor
  · rw [owned, servedSeq_eq servedMember, servedSeq_eq member]
    simp only [TenantRow.rank, Prod.Lex.toLex_le_toLex] at least
    omega
  · rw [serves.served, serves.served, if_pos rfl, if_neg (Ne.symm apart)]
    have := ordered.served row.id
    omega

end Database

variable {sha256 : Sha256} {allowed permitted : Database → Call → Prop}
  {db last : Database} {history : List Event} {tenant other : Uuid}

theorem Reachable.dispatchOrdered (reached : Reachable sha256 allowed db) :
    db.DispatchOrdered := by
  obtain ⟨_, execution⟩ := reached
  exact execution.invariant Database.DispatchOrdered
    Database.dispatchOrdered_migrated fun _ call ordered _ =>
      ordered.perform call

/-- At every claim the tenant could be served. -/
def AlwaysServable (tenant : Uuid) (history : List Event) : Prop :=
  ∀ event ∈ history, ∀ worker allowedTenants slots policy,
    event.call.command = .claimRun worker allowedTenants slots policy →
      event.before.Servable tenant allowedTenants policy

/-- A tenant that was passed has passed only once, and is now behind. -/
structure PassedOnce (tenant other : Uuid) (history : List Event)
    (db : Database) : Prop where
  once : history.countP (Event.leases other) ≤ 1
  behind : history.countP (Event.leases other) = 1 →
    db.servedSeq tenant < db.servedSeq other

theorem PassedOnce.append {event : Event}
    (passed : PassedOnce tenant other history event.before)
    (performed : event.before.perform sha256 event.call =
      (event.outcome, event.after))
    (ordered : event.before.DispatchOrdered)
    (servable : ∀ worker allowedTenants slots policy,
      event.call.command = .claimRun worker allowedTenants slots policy →
        event.before.Servable tenant allowedTenants policy)
    (unserved : event.leases tenant = false) :
    PassedOnce tenant other (history ++ [event]) event.after := by
  have counted : (history ++ [event]).countP (Event.leases other) =
      history.countP (Event.leases other) +
        if event.leases other then 1 else 0 := by
    rw [List.countP_append, List.countP_singleton]
  have answered := event.before.perform_serves sha256 event.call
  rw [performed] at answered
  rcases answered with
    ⟨lease, worker, tenants, slots, policy, outcome, named, serves⟩ |
    ⟨unleased, nobody⟩
  · rw [Event.leases_eq outcome, decide_eq_false_iff_not] at unserved
    rw [Event.leases_eq outcome] at counted
    simp only [decide_eq_true_eq] at counted
    have passes := serves.passes ordered
      (servable worker tenants slots policy named) unserved
    by_cases here : lease.tenant = other
    · rw [if_pos here] at counted
      rw [here] at passes
      -- A second lease would have found the tenant behind.
      have first : history.countP (Event.leases other) = 0 := by
        have := passed.behind
        have := passed.once
        omega
      exact ⟨by omega, fun _ => passes.2⟩
    · rw [if_neg here, Nat.add_zero] at counted
      constructor
      · rw [counted]
        exact passed.once
      · rw [counted, serves.served, serves.served, if_neg (Ne.symm unserved),
          if_neg (Ne.symm here)]
        exact passed.behind
  · rw [Event.leases_eq_false unleased, if_neg (by decide),
      Nat.add_zero] at counted
    constructor
    · rw [counted]
      exact passed.once
    · rw [counted, nobody.served, nobody.served]
      exact passed.behind

theorem passedOnce (reached : Reachable sha256 allowed db)
    (continued :
      Execution (Database.perform sha256) permitted db history last)
    (servable : AlwaysServable tenant history)
    (unserved : ∀ event ∈ history, event.leases tenant = false) :
    PassedOnce tenant other history last := by
  induction continued with
  | start => exact ⟨by simp, by simp⟩
  | next call earlier _ ih =>
      have passed := ih
        (fun event member => servable event (List.mem_append_left _ member))
        (fun event member => unserved event (List.mem_append_left _ member))
      have ordered := earlier.invariant Database.DispatchOrdered
        reached.dispatchOrdered fun _ call ordered _ => ordered.perform call
      apply passed.append rfl ordered
      · exact servable _ (List.mem_append_right _ List.mem_cons_self)
      · exact unserved _ (List.mem_append_right _ List.mem_cons_self)

/-- Every lease goes to the oldest claimable run of its tenant, and a tenant
that could be served at every claim is passed at most once by each other. -/
theorem bypass_bounded (reached : Reachable sha256 allowed db)
    (continued :
      Execution (Database.perform sha256) permitted db history last) :
    (∀ event ∈ history, ∀ worker allowedTenants slots policy lease,
      event.call.command = .claimRun worker allowedTenants slots policy →
      event.outcome = .ok (.lease (some lease)) →
      ∃ row ∈ event.before.runs.rows,
        row.id = lease.run ∧ row.tenantId = lease.tenant ∧
          row.claimable policy.maxAttempts = true ∧
          ∀ older ∈ event.before.runs.rows, older.tenantId = lease.tenant →
            older.claimable policy.maxAttempts = true →
            row.rank ≤ older.rank) ∧
      ∀ tenant, AlwaysServable tenant history →
        (∀ event ∈ history, event.leases tenant = false) →
        ∀ other, other ≠ tenant →
          history.countP (Event.leases other) ≤ 1 := by
  constructor
  · intro event member worker allowedTenants slots policy lease named outcome
    obtain ⟨_, _, _, _, performed, _⟩ := continued.split_mem member
    rw [outcome] at performed
    obtain ⟨_, _, _, _, same, serves⟩ :=
      (Database.transition_of_perform performed).serves_of_lease
    cases named.symm.trans same
    obtain ⟨tenant, row, candidate, owned, identity⟩ := serves.candidate
    obtain ⟨_, _, _, stored, belongs, claimable⟩ :=
      Database.claimCandidate_eq_some candidate
    refine ⟨row, stored, identity.symm, belongs.trans owned.symm, claimable, ?_⟩
    intro older olderMember olderOwned olderClaimable
    exact Database.claimCandidate_oldest candidate olderMember
      (olderOwned.trans owned) olderClaimable
  · intro tenant servable unserved other _
    exact (passedOnce reached continued servable unserved).once

namespace Sample

/-- A second tenant with a run waiting beside the first one's. -/
def rivals : List Command :=
  admission ++
    [.provisionTenant 2 10 1, .createGrant 12 2 none "owner" authority,
      .putModule 2 Digest.zero [0],
      .admitRun 21 2 "key" { request with grantId := 12 } 10 10]

/-- A claim for either tenant. -/
def contendedClaim : Call :=
  ⟨.claimRun "worker" [1, 2] 1 claimPolicy, fun _ => 5⟩

end Sample

theorem bypass_bounded_rivals :
    let served := (performAll (Database.perform Sample.sha256)
      (Sample.after Sample.rivals) [Sample.contendedClaim]).1
    served.any (Event.leases 1) = true ∧
      served.countP (Event.leases 1) ≤ 1 := by
  intro served
  have reached : Reachable Sample.sha256 (fun _ _ => True)
      (Sample.after Sample.rivals) :=
    Sample.reachable_after fun _ _ _ => trivial
  have continued : Execution (Database.perform Sample.sha256)
      (fun _ _ => True) (Sample.after Sample.rivals) served _ :=
    Execution.of_performAll (AllPermitted.of_forall fun _ _ _ => trivial)
  have servable : AlwaysServable 2 served := by
    intro event member worker allowedTenants slots policy named
    obtain rfl := List.mem_singleton.mp member
    cases named
    have free : ∃ row ∈ (Sample.after Sample.rivals).tenants.rows,
        row.id = 2 ∧ row.activeCount < min row.activeLimit 1 := by
      decide +kernel
    have waiting : ∃ run ∈ (Sample.after Sample.rivals).runs.rows,
        run.tenantId = 2 ∧ run.claimable 3 = true := by
      decide +kernel
    exact ⟨by decide, free, waiting⟩
  refine ⟨by decide +kernel, ?_⟩
  exact (bypass_bounded reached continued).2 2 servable
    (by decide +kernel) 1 (by decide)

end EffectLatch
