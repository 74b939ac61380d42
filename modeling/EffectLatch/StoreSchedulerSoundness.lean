import EffectLatch.StoreTransitionSoundness

/-!
# The scheduler stays within the transition relation

The five scheduler operations and the calls of the surroundings, then
`execute_transition` for every call.
-/

namespace EffectLatch

namespace Database

variable {sha256 : Sha256} {db next : Database} {clock : Clock}

/-- What the claim query guarantees of the pair it selects. -/
theorem claimCandidate_eq_some {allowed : List Uuid} {policy : ClaimPolicy}
    {tenant : TenantRow} {row : RunRow}
    (found : db.claimCandidate allowed policy = some (tenant, row)) :
    tenant ∈ db.tenants.rows ∧ tenant.id ∈ allowed ∧
      tenant.activeCount < min tenant.activeLimit policy.maxActivePerTenant ∧
      row ∈ db.runs.rows ∧ row.tenantId = tenant.id ∧
      row.claimable policy.maxAttempts = true := by
  have member := List.first_mem found
  simp only [List.mem_filterMap] at member
  obtain ⟨owner, ownerMember, paired⟩ := member
  split at paired
  next eligible =>
    simp only [Option.map_eq_some_iff, Prod.mk.injEq] at paired
    obtain ⟨run, oldest, rfl, rfl⟩ := paired
    have runMember := List.first_mem oldest
    simp only [List.mem_filter, Bool.and_eq_true, decide_eq_true_eq]
      at runMember
    exact ⟨ownerMember, eligible.1, eligible.2, runMember.1, runMember.2.1,
      runMember.2.2⟩
  next => simp at paired

theorem Selected.findRun_eq {worker : String} {allowedTenants : List Uuid}
    {policy : ClaimPolicy} {tenant : TenantRow} {row : RunRow}
    {chain : List Grant}
    (selected : db.Selected worker allowedTenants policy tenant row chain) :
    db.findRun tenant.id row.id = some row :=
  findRun_eq_some_iff.mpr ⟨selected.member, selected.owned, rfl⟩

theorem denyGrant_transition {worker : String} {allowedTenants : List Uuid}
    {availableSlots : Nat} {policy : ClaimPolicy} {tenant : TenantRow}
    {row : RunRow} {chain : List Grant} {result : Option Lease}
    (selected : db.Selected worker allowedTenants policy tenant row chain)
    (dead : ¬ db.ChainLive tenant.id chain (clock 0))
    (succeeded : db.denyGrant sha256 clock tenant.id row.id =
      .ok (result, next)) :
    Transition sha256 db clock
      (.claimRun worker allowedTenants availableSlots policy) (.lease result)
      next := by
  simp only [denyGrant, Except.bind_eq_ok_iff, Except.pure_eq_ok_iff,
    Prod.mk.injEq] at succeeded
  obtain ⟨_, updated, _, first, _, second, rfl, rfl⟩ := succeeded
  obtain ⟨runs, rfl, moved⟩ :=
    updateRun_recorded sha256 updated selected.findRun_eq
  obtain ⟨_, _, rfl, denied⟩ :=
    moved.append selected.findRun_eq first rfl rfl
  obtain ⟨_, _, rfl, failed⟩ :=
    denied.append selected.findRun_eq second rfl rfl
  exact .denied selected dead failed

theorem issueLease_transition {worker : String} {allowedTenants : List Uuid}
    {availableSlots : Nat} {policy : ClaimPolicy} {tenant : TenantRow}
    {row : RunRow} {chain : List Grant} {result : Option Lease}
    (selected : db.Selected worker allowedTenants policy tenant row chain)
    (live : db.ChainLive tenant.id chain (clock 0))
    (succeeded : db.issueLease sha256 clock worker policy tenant.id row.id
      (chain.map Grant.id) = .ok (result, next)) :
    Transition sha256 db clock
      (.claimRun worker allowedTenants availableSlots policy) (.lease result)
      next := by
  simp only [issueLease, updateTenants, Except.bind_eq_ok_iff,
    Except.require_eq_ok_iff, Except.fetch_eq_ok_iff, Except.pure_eq_ok_iff,
    Prod.mk.injEq] at succeeded
  obtain ⟨seq, numbered, _, below, _, ⟨tenants, served, rfl⟩, _, updated, new,
    newFound, stored, storedFound, _, appended, rfl, rfl⟩ := succeeded
  have servedRow := Table.replaced_of_update served
    (db.tenants_alone tenant.id) selected.tenantMember (by simp)
  have found : ({ db with
      schedulerState := some (seq + 1)
      tenants := tenants } : Database).findRun tenant.id row.id = some row :=
    selected.findRun_eq
  obtain ⟨runs, rfl, moved⟩ :=
    updateRun_recorded sha256 updated found
  obtain rfl := Option.some.inj
    (newFound.symm.trans (findRun_of_replaced found moved.replaced))
  obtain ⟨_, _, rfl, logged⟩ := moved.append found appended rfl rfl
  exact .leased selected live numbered below rfl servedRow
    ⟨logged.replaced, logged.logged⟩ storedFound

theorem claimRun_transition {worker : String} {allowedTenants : List Uuid}
    {availableSlots : Nat} {policy : ClaimPolicy} {result : Option Lease}
    (succeeded : db.claimRun sha256 clock worker allowedTenants availableSlots
      policy = .ok (result, next)) :
    Transition sha256 db clock
      (.claimRun worker allowedTenants availableSlots policy) (.lease result)
      next := by
  simp only [claimRun, Except.bind_eq_ok_iff, Except.require_eq_ok_iff]
    at succeeded
  obtain ⟨_, ⟨_, _, _, _, global, perTenant, attempts, lease⟩, _, _, _, _,
    succeeded⟩ := succeeded
  split at succeeded
  · simp only [Except.pure_eq_ok_iff, Prod.mk.injEq] at succeeded
    obtain ⟨rfl, rfl⟩ := succeeded
    exact .unchanged .nothingClaimed
  next globalRoom =>
  split at succeeded
  · simp only [Except.pure_eq_ok_iff, Prod.mk.injEq] at succeeded
    obtain ⟨rfl, rfl⟩ := succeeded
    exact .unchanged .nothingClaimed
  next workerRoom =>
  split at succeeded
  · simp only [Except.pure_eq_ok_iff, Prod.mk.injEq] at succeeded
    obtain ⟨rfl, rfl⟩ := succeeded
    exact .unchanged .nothingClaimed
  next tenant row candidate =>
  obtain ⟨tenantMember, _, _, member, owned, claimable⟩ :=
    claimCandidate_eq_some candidate
  simp only [RunRow.claimable, decide_eq_true_eq] at claimable
  simp only [claimSelected, Except.bind_eq_ok_iff, Except.require_eq_ok_iff,
    Except.fetch_eq_ok_iff] at succeeded
  obtain ⟨tenantRow, tenantFound, _, tenantFree, runRow, runFound, _, runFree,
    chain, loaded, _, _, succeeded⟩ := succeeded
  obtain rfl : tenantRow = tenant :=
    Option.some.inj (tenantFound.symm.trans
      (findTenant_eq_some_iff.mpr ⟨tenantMember, rfl⟩))
  obtain rfl : runRow = row :=
    Option.some.inj (runFound.symm.trans
      (findRun_eq_some_iff.mpr ⟨member, owned, rfl⟩))
  have oneSlot : (policy.maxActivePerTenant : Int) = 1 := by omega
  have selected : db.Selected worker allowedTenants policy tenantRow runRow
      chain :=
    { valid := ⟨global, perTenant, attempts, lease⟩
      globalRoom := not_le.mp globalRoom
      workerRoom := not_le.mp workerRoom
      candidate := candidate
      tenantMember := tenantMember
      tenantFree := ⟨tenantFree.1, oneSlot ▸ tenantFree.2.2⟩
      member := member
      owned := owned
      queued := claimable.1
      notCancelled := claimable.2.1
      free := runFree.2.1
      attemptLeft := claimable.2.2
      loaded := loaded }
  split at succeeded
  next live =>
    simp only [List.all_eq_true, decide_eq_true_eq] at live
    exact issueLease_transition selected live succeeded
  next dead =>
    simp only [List.all_eq_true, decide_eq_true_eq] at dead
    exact denyGrant_transition selected dead succeeded

/-- A renewal is bounded by the one grant it looks at. -/
theorem leaseExpiry_grantRows_singleton {limit : Timestamp} {grant : GrantRow}
    (member : grant ∈ db.grants.rows) :
    leaseExpiry limit (db.grantRows grant.tenantId [grant.id]) =
      min limit grant.expiresAt := by
  have only : db.grantRows grant.tenantId [grant.id] = [grant] := by
    simp only [grantRows, List.mem_singleton]
    exact (db.grants_alone grant.tenantId grant.id).filter_eq_singleton member
      (by simp)
  rw [only]
  rfl

theorem heartbeatRun_transition {run : Uuid} {worker : String}
    {allowedTenants : List Uuid} {epoch : Int} {leaseMs : Nat}
    {result : Heartbeat}
    (succeeded : db.heartbeatRun clock run worker allowedTenants epoch
      leaseMs = .ok (result, next)) :
    Transition sha256 db clock
      (.heartbeatRun run worker allowedTenants epoch leaseMs)
      (.heartbeat result) next := by
  simp only [heartbeatRun, Except.bind_eq_ok_iff, Except.require_eq_ok_iff,
    Except.fetch_eq_ok_iff, Except.pure_eq_ok_iff, Prod.mk.injEq] at succeeded
  obtain ⟨_, _, found, foundRun, _, permitted, row, selected, _, updated, rfl,
    rfl⟩ := succeeded
  have member := List.mem_of_find?_eq_some selected
  have hit := List.find?_some selected
  have chosen := hit
  simp only [renewable, Bool.and_eq_true, decide_eq_true_eq, List.any_eq_true]
    at chosen
  obtain ⟨⟨tenantEq, idEq⟩, ⟨owner, current, live, held, active⟩, grant,
    grantMember, grantTenant, grantId, grantFresh, grantUnrevoked⟩ := chosen
  obtain ⟨runs, rfl, replaced⟩ := updateRuns_ok updated
    (fun other otherChosen => by
      simp only [Bool.and_eq_true, decide_eq_true_eq] at otherChosen
      rw [otherChosen.1.2, idEq]) member hit
  have lease : row.LeasedTo db run worker allowedTenants epoch (clock 0) :=
    { member := member
      identity := idEq
      permitted := tenantEq ▸ permitted
      owner := owner
      current := current
      live := live
      held := held }
  refine .renewed lease active grantMember grantTenant grantId grantFresh
    grantUnrevoked ?_ replaced
  rw [← grantTenant, ← grantId]
  exact leaseExpiry_grantRows_singleton grantMember

theorem markRunStarted_transition {run : Uuid} {worker : String}
    {allowedTenants : List Uuid} {epoch : Int}
    (succeeded : db.markRunStarted sha256 clock run worker allowedTenants
      epoch = .ok next) :
    Transition sha256 db clock
      (.markRunStarted run worker allowedTenants epoch) .started next := by
  simp only [markRunStarted, Except.bind_eq_ok_iff, Except.require_eq_ok_iff,
    Except.fetch_eq_ok_iff] at succeeded
  obtain ⟨_, _, found, _, _, permitted, row, rowFound, _,
    ⟨owner, current, live, held, active⟩, succeeded⟩ := succeeded
  obtain ⟨member, tenantEq, idEq⟩ := findRun_eq_some_iff.mp rowFound
  have lease : row.LeasedTo db run worker allowedTenants epoch (clock 0) :=
    { member := member
      identity := idEq
      permitted := tenantEq ▸ permitted
      owner := owner
      current := current
      live := live
      held := held }
  split at succeeded
  next waiting =>
    simp only [Except.bind_eq_ok_iff] at succeeded
    obtain ⟨_, updated, appended⟩ := succeeded
    obtain ⟨runs, rfl, moved⟩ := updateRun_recorded sha256 updated rowFound
    obtain ⟨_, _, rfl, logged⟩ := moved.append rowFound appended rfl rfl
    exact .started lease waiting logged
  next notWaiting =>
    simp only [Except.pure_eq_ok_iff] at succeeded
    subst succeeded
    exact .unchanged (.startedBefore lease (active.resolve_left notWaiting))

/-- The candidate for promotion is a stored run that waits for its retry. -/
theorem waitingCandidate_found {policy : ReapPolicy} {row : RunRow}
    (candidate : db.waitingCandidate policy = some row) :
    row ∈ db.runs.rows ∧ row.state = .retryWait ∧
      db.findRun row.tenantId row.id = some row := by
  have selected := List.first_mem candidate
  simp only [List.mem_filter, Bool.and_eq_true, beq_iff_eq] at selected
  obtain ⟨member, waiting, _⟩ := selected
  exact ⟨member, waiting, findRun_eq_some_iff.mpr ⟨member, rfl, rfl⟩⟩

/-- The candidate for expiry is a stored run that holds a slot beyond its
lease. -/
theorem expiredCandidate_found {now : Timestamp} {row : RunRow}
    (candidate : db.expiredCandidate now = some row) :
    row ∈ db.runs.rows ∧ row.activeSlotHeld = true ∧
      (row.state = .leased ∨ row.state = .running) ∧
      row.expired now = true ∧
      db.findRun row.tenantId row.id = some row := by
  have selected := List.first_mem candidate
  simp only [List.mem_filter, Bool.and_eq_true, decide_eq_true_eq] at selected
  obtain ⟨member, ⟨held, active⟩, overdue⟩ := selected
  exact ⟨member, held, active, overdue,
    findRun_eq_some_iff.mpr ⟨member, rfl, rfl⟩⟩

theorem promote_transition {policy : ReapPolicy} {row : RunRow}
    {result : Option (Uuid × Reaped)} (valid : policy.Valid)
    (room : db.queuedCount (fun _ => true) < policy.maxPendingGlobal)
    (candidate : db.waitingCandidate policy = some row)
    (succeeded : db.promote sha256 clock policy row.tenantId row.id =
      .ok (result, next)) :
    Transition sha256 db clock (.reapOne policy) (.reaped result) next := by
  obtain ⟨member, _, found⟩ := waitingCandidate_found candidate
  simp only [promote, found, Except.bind_eq_ok_iff, Except.require_eq_ok_iff,
    Except.fetch_eq_ok_iff, Except.pure_eq_ok_iff, Option.some.injEq,
    Prod.mk.injEq, exists_eq_left'] at succeeded
  obtain ⟨tenant, tenantFound, _, ⟨waiting, free⟩, _, updated, _, appended, rfl,
    rfl⟩ := succeeded
  obtain ⟨runs, rfl, moved⟩ := updateRun_recorded sha256 updated found
  obtain ⟨_, _, rfl, logged⟩ := moved.append found appended rfl rfl
  exact .promoted valid room candidate member tenantFound waiting free logged

theorem releaseSlot_ok {tenant : TenantRow}
    (found : db.findTenant tenant.id = some tenant)
    (counted : 0 < tenant.activeCount)
    (succeeded : db.releaseSlot tenant.id = .ok next) :
    ∃ tenants, next = { db with tenants := tenants } ∧
      Table.Replaced db.tenants tenants tenant tenant.slotReleased := by
  simp only [releaseSlot, updateTenants, Except.bind_eq_ok_iff,
    Except.require_eq_ok_iff, Except.fetch_eq_ok_iff, Except.pure_eq_ok_iff]
    at succeeded
  obtain ⟨_, ⟨tenants, updated, rfl⟩, _, _, rfl⟩ := succeeded
  refine ⟨tenants, rfl, Table.replaced_of_update updated ?_
    (findTenant_eq_some_iff.mp found).1 (by simp [counted])⟩
  refine (db.tenants_alone tenant.id).mono ?_
  intro other chosen
  simp only [decide_eq_true_eq] at chosen ⊢
  exact chosen.1

theorem expire_transition {policy : ReapPolicy} {row : RunRow}
    {result : Option (Uuid × Reaped)} (valid : policy.Valid)
    (candidate : db.expiredCandidate (clock 0) = some row)
    (succeeded : db.expire sha256 clock policy row.tenantId row.id =
      .ok (result, next)) :
    Transition sha256 db clock (.reapOne policy) (.reaped result) next := by
  obtain ⟨member, held, active, _, found⟩ := expiredCandidate_found candidate
  simp only [expire, found, Except.bind_eq_ok_iff, Except.require_eq_ok_iff,
    Except.fetch_eq_ok_iff, Option.some.injEq, exists_eq_left'] at succeeded
  obtain ⟨tenant, tenantFound, _, counted, _, _, succeeded⟩ := succeeded
  have owner := (findTenant_eq_some_iff.mp tenantFound).2
  split at succeeded
  · simp only [Except.pure_eq_ok_iff, Prod.mk.injEq] at succeeded
    obtain ⟨rfl, rfl⟩ := succeeded
    exact .unchanged .nothingReaped
  next overdue =>
    simp only [Except.bind_eq_ok_iff, Except.pure_eq_ok_iff, Prod.mk.injEq]
      at succeeded
    obtain ⟨_, released, _, updated, _, first, _, second, rfl, rfl⟩ := succeeded
    rw [← owner] at released
    obtain ⟨tenants, rfl, slot⟩ :=
      releaseSlot_ok (owner.symm ▸ tenantFound) counted released
    have foundThen : ({ db with tenants := tenants } : Database).findRun
        row.tenantId row.id = some row := found
    obtain ⟨runs, rfl, moved⟩ := updateRun_recorded sha256 updated foundThen
    obtain ⟨_, _, rfl, noted⟩ := moved.append foundThen first rfl rfl
    obtain ⟨_, _, rfl, logged⟩ := noted.append foundThen second rfl rfl
    exact .expired valid candidate member tenantFound counted held active
      (by simpa using overdue) slot ⟨logged.replaced, logged.logged⟩

theorem reapOne_transition {policy : ReapPolicy}
    {result : Option (Uuid × Reaped)}
    (succeeded : db.reapOne sha256 clock policy = .ok (result, next)) :
    Transition sha256 db clock (.reapOne policy) (.reaped result) next := by
  simp only [reapOne, Except.bind_eq_ok_iff, Except.require_eq_ok_iff]
    at succeeded
  obtain ⟨_, ⟨attempts, global, tenant, ordered⟩, _, _, succeeded⟩ := succeeded
  have valid : policy.Valid := ⟨attempts, global, tenant, ordered⟩
  split at succeeded
  next row waiting =>
    split at waiting
    next room => exact promote_transition valid room waiting succeeded
    next => simp at waiting
  next =>
    split at succeeded
    · simp only [Except.pure_eq_ok_iff, Prod.mk.injEq] at succeeded
      obtain ⟨rfl, rfl⟩ := succeeded
      exact .unchanged .nothingReaped
    next row candidate => exact expire_transition valid candidate succeeded

theorem finishRun_transition {run : Uuid} {worker : String}
    {allowedTenants : List Uuid} {epoch : Int} {output : Option (List UInt8)}
    {errorCode : Option String} {record : RunRecord}
    (succeeded : db.finishRun sha256 clock run worker allowedTenants epoch
      output errorCode = .ok (record, next)) :
    Transition sha256 db clock
      (.finishRun run worker allowedTenants epoch output errorCode)
      (.finished record) next := by
  simp only [finishRun, Except.bind_eq_ok_iff, Except.require_eq_ok_iff,
    Except.fetch_eq_ok_iff, Except.pure_eq_ok_iff, Prod.mk.injEq] at succeeded
  obtain ⟨_, _, _, _, found, _, _, permitted, tenant, tenantFound, _, counted,
    row, rowFound, _, ⟨running, owner, current, live, held⟩, _, resolved, _,
    released, _, updated, _, appended, _, _, rfl, rfl⟩ := succeeded
  obtain ⟨member, tenantEq, idEq⟩ := findRun_eq_some_iff.mp rowFound
  have tenantIs := (findTenant_eq_some_iff.mp tenantFound).2
  have lease : row.LeasedTo db run worker allowedTenants epoch (clock 0) :=
    { member := member
      identity := idEq
      permitted := tenantEq ▸ permitted
      owner := owner
      current := current
      live := live
      held := held }
  rw [← tenantIs] at released
  obtain ⟨tenants, rfl, slot⟩ :=
    releaseSlot_ok (tenantIs.symm ▸ tenantFound) counted released
  have foundThen : ({ db with tenants := tenants } : Database).findRun
      found.tenantId run = some row := rowFound
  obtain ⟨runs, rfl, moved⟩ := updateRun_recorded sha256 updated foundThen
  obtain ⟨_, _, rfl, logged⟩ := moved.append foundThen appended rfl rfl
  exact .finished lease running (tenantEq ▸ tenantFound) counted
    (tenantEq ▸ resolved) slot ⟨logged.replaced, logged.logged⟩

theorem provisionTenant_transition {id : Uuid} {queueLimit activeLimit : Int}
    (succeeded : db.provisionTenant id queueLimit activeLimit = .ok next) :
    Transition sha256 db clock (.provisionTenant id queueLimit activeLimit)
      .surroundings next := by
  simp only [provisionTenant, insertTenant, Except.bind_eq_ok_iff,
    Except.fetch_eq_ok_iff, Except.pure_eq_ok_iff] at succeeded
  obtain ⟨tenants, stored, rfl⟩ := succeeded
  exact .tenantProvisioned (Table.inserted_of_insert stored)

theorem requestCancel_transition {tenant run : Uuid}
    (succeeded : db.requestCancel tenant run = .ok next) :
    Transition sha256 db clock (.requestCancel tenant run) .surroundings
      next := by
  cases found : db.findRun tenant run with
  | some row =>
      obtain ⟨runs, rfl, replaced⟩ := updateRun_ok succeeded found
      exact .cancelRequested found replaced
  | none =>
      simp only [requestCancel, updateRun, updateRuns, Except.bind_eq_ok_iff,
        Except.fetch_eq_ok_iff, Except.pure_eq_ok_iff] at succeeded
      obtain ⟨runs, updated, rfl⟩ := succeeded
      rw [Table.eq_of_update_none updated found]
      exact .cancelMissed

theorem prepareEffect_transition {intent : EffectIntent}
    (succeeded : db.prepareEffect intent = .ok next) :
    Transition sha256 db clock (.prepareEffect intent) .surroundings
      next := by
  simp only [prepareEffect, insertEffect, Except.bind_eq_ok_iff,
    Except.require_eq_ok_iff, Except.fetch_eq_ok_iff, Except.pure_eq_ok_iff]
    at succeeded
  obtain ⟨_, runKnown, effects, stored, rfl⟩ := succeeded
  exact .effectPrepared runKnown (Table.inserted_of_insert stored)

theorem moveEffect_transition {tenant run : Uuid} {ordinal : Int}
    {target : EffectState}
    (succeeded : db.moveEffect tenant run ordinal target = .ok next) :
    Transition sha256 db clock (.moveEffect tenant run ordinal target)
      .surroundings next := by
  simp only [moveEffect, updateEffects, Except.bind_eq_ok_iff,
    Except.fetch_eq_ok_iff, Except.pure_eq_ok_iff] at succeeded
  obtain ⟨effects, updated, rfl⟩ := succeeded
  cases found : db.findEffect tenant run ordinal with
  | some row =>
      obtain ⟨member, chosen⟩ := findEffect_eq_some_iff.mp found
      exact .effectMoved found (Table.replaced_of_update updated
        (db.effects_alone tenant run ordinal) member (decide_eq_true chosen))
  | none =>
      rw [Table.eq_of_update_none updated found]
      exact .moveMissed

/-- Every successful call is a transition. -/
theorem execute_transition {call : Call} {response : Response}
    (succeeded : db.execute sha256 call = .ok (response, next)) :
    Transition sha256 db call.clock call.command response next := by
  obtain ⟨command, clock⟩ := call
  cases command <;>
    simp only [execute, Except.map_eq_ok_iff, Prod.exists, Prod.map_apply,
      id_eq, Prod.mk.injEq] at succeeded
  case putModule =>
    obtain ⟨_, _, done, rfl, rfl⟩ := succeeded
    exact putModule_transition done
  case admitRun =>
    obtain ⟨_, _, done, rfl, rfl⟩ := succeeded
    exact admitRun_transition done
  case createGrant =>
    obtain ⟨_, _, done, rfl, rfl⟩ := succeeded
    exact createGrant_transition done
  case getGrant =>
    obtain ⟨_, _, done, rfl, rfl⟩ := succeeded
    exact getGrant_transition done
  case revokeGrant =>
    obtain ⟨_, _, done, rfl, rfl⟩ := succeeded
    exact revokeGrant_transition done
  case reserveGrantChain =>
    obtain ⟨_, _, done, rfl, rfl⟩ := succeeded
    exact reserveGrantChain_transition done
  case claimRun =>
    obtain ⟨_, _, done, rfl, rfl⟩ := succeeded
    exact claimRun_transition done
  case heartbeatRun =>
    obtain ⟨_, _, done, rfl, rfl⟩ := succeeded
    exact heartbeatRun_transition done
  case markRunStarted =>
    obtain ⟨_, done, rfl, rfl⟩ := succeeded
    exact markRunStarted_transition done
  case reapOne =>
    obtain ⟨_, _, done, rfl, rfl⟩ := succeeded
    exact reapOne_transition done
  case finishRun =>
    obtain ⟨_, _, done, rfl, rfl⟩ := succeeded
    exact finishRun_transition done
  case provisionTenant =>
    obtain ⟨_, done, rfl, rfl⟩ := succeeded
    exact provisionTenant_transition done
  case requestCancel =>
    obtain ⟨_, done, rfl, rfl⟩ := succeeded
    exact requestCancel_transition done
  case prepareEffect =>
    obtain ⟨_, done, rfl, rfl⟩ := succeeded
    exact prepareEffect_transition done
  case moveEffect =>
    obtain ⟨_, done, rfl, rfl⟩ := succeeded
    exact moveEffect_transition done

/-- A performed call fails and changes nothing, or is a transition. -/
theorem perform_cases (sha256 : Sha256) (db : Database) (call : Call) :
    (∃ failure, db.execute sha256 call = .error failure ∧
        db.perform sha256 call = (.error failure, db)) ∨
      ∃ response next,
        Transition sha256 db call.clock call.command response next ∧
          db.perform sha256 call = (.ok response, next) := by
  cases done : db.execute sha256 call with
  | error failure =>
      exact Or.inl ⟨failure, rfl, by simp [perform, done]⟩
  | ok result =>
      obtain ⟨response, next⟩ := result
      exact Or.inr ⟨response, next, execute_transition done,
        by simp [perform, done]⟩

theorem moved_of_perform {sha256 : Sha256} {db next : Database} {call : Call}
    {outcome : Except Error Response}
    (performed : db.perform sha256 call = (outcome, next)) :
    (∃ failure, outcome = .error failure ∧ next = db) ∨
      ∃ response, outcome = .ok response ∧
        Transition sha256 db call.clock call.command response next := by
  rcases db.perform_cases sha256 call with
    ⟨failure, _, failed⟩ | ⟨response, reached, moved, succeeded⟩
  · rw [failed] at performed
    obtain ⟨rfl, rfl⟩ := Prod.mk.inj performed
    exact .inl ⟨failure, rfl, rfl⟩
  · rw [succeeded] at performed
    obtain ⟨rfl, rfl⟩ := Prod.mk.inj performed
    exact .inr ⟨response, rfl, moved⟩

/-- A performed call that answered is a transition. -/
theorem transition_of_perform {sha256 : Sha256} {db next : Database}
    {call : Call} {response : Response}
    (performed : db.perform sha256 call = (.ok response, next)) :
    Transition sha256 db call.clock call.command response next := by
  rcases moved_of_perform performed with ⟨_, failed, _⟩ | ⟨_, answered, moved⟩
  · simp at failed
  · rw [Except.ok.inj answered]
    exact moved

end Database

/-- What every transition keeps holds in every reachable state. -/
theorem Reachable.invariant {sha256 : Sha256}
    {allowed : Database → Call → Prop} {db : Database}
    (Holds : Database → Prop) (initially : Holds Database.migrated)
    (kept : ∀ db next call response, Holds db → allowed db call →
      Database.Transition sha256 db call.clock call.command response next →
      Holds next)
    (reached : Reachable sha256 allowed db) : Holds db := by
  obtain ⟨history, execution⟩ := reached
  refine execution.invariant Holds initially ?_
  intro state call holds permitted
  rcases state.perform_cases sha256 call with
    ⟨_, _, performed⟩ | ⟨response, next, moved, performed⟩
  · rw [performed]
    exact holds
  · rw [performed]
    exact kept state next call response holds permitted moved

end EffectLatch
