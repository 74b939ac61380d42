import EffectLatch.LockOrdering

/-!
# Wait-for cycles

As long as no foreign key on a tenant is looked up while another transaction
holds the tenant for update, every waiting transaction asks for a row above all
it holds, and no wait-for cycle forms.  Without that, two operations are enough
for one.
-/

namespace EffectLatch

/-- The depths agree with the stored grants. -/
def Database.Depths (db : Database) (depth : Uuid → Uuid → Nat) : Prop :=
  ∀ tenant id row, db.findGrant tenant id = some row →
    depth tenant id = row.depth.toNat

theorem Database.Extends.depths {db next : Database}
    {depth : Uuid → Uuid → Nat} (extended : db.Extends next)
    (agrees : next.Depths depth) : db.Depths depth := by
  intro tenant id row found
  obtain ⟨new, newFound, evolved⟩ := extended.findGrant_eq_some found
  rw [agrees tenant id new newFound, evolved.depth]

/-- An ancestry that was read is ordered by depth and ends in its grant. -/
theorem Database.GrantForest.chainIds_ordered {db : Database}
    (forest : db.GrantForest) {depth : Uuid → Uuid → Nat}
    (agrees : db.Depths depth) {tenant leaf : Uuid}
    (present : db.chainIds tenant leaf ≠ []) :
    leaf ∈ db.chainIds tenant leaf ∧
      (db.chainIds tenant leaf).Pairwise fun first second =>
        depth tenant first < depth tenant second := by
  obtain ⟨row, found⟩ : ∃ row, db.findGrant tenant leaf = some row := by
    rw [← Option.ne_none_iff_exists']
    intro missing
    exact present (by simp [Database.chainIds, missing])
  obtain ⟨path, lineage⟩ := forest.exists_ancestry
    (Option.ne_none_iff_exists'.mpr ⟨row, found⟩)
  rw [forest.chainIds_eq lineage found]
  have ranked := lineage.pairwise_rank (db.grantDepth tenant)
    (fun _ => Database.grantDepth_of_isRoot) fun _ _ => forest.grantDepth_child
  refine ⟨lineage.self_mem, ranked.imp_of_mem ?_⟩
  intro first second firstMember secondMember lower
  obtain ⟨firstRow, firstFound⟩ :=
    forest.known_of_ancestry lineage first firstMember
  obtain ⟨secondRow, secondFound⟩ :=
    forest.known_of_ancestry lineage second secondMember
  rw [Database.grantDepth_of_found firstFound,
    Database.grantDepth_of_found secondFound] at lower
  rw [agrees tenant first firstRow firstFound,
    agrees tenant second secondRow secondFound]
  exact lower

namespace LockSystem

variable {sha256 : Sha256} {system : LockSystem} {transaction : Nat}
  {session : Session} {request : Lock}

theorem getElem?_withSession (other : Nat) :
    (system.withSession transaction session).sessions[other]? =
      if transaction = other then
        (system.sessions[other]?).map fun _ => session
      else system.sessions[other]? := by
  simp only [withSession, List.getElem?_set]
  split
  next same =>
    subst same
    by_cases inside : transaction < system.sessions.length
    · simp [inside]
    · simp [inside]
  next => rfl

theorem blocked_eq_true_iff :
    system.blocked transaction request = true ↔
      ∃ other held, other ≠ transaction ∧ system.Holds other request.1 held ∧
        request.2.conflicts held = true := by
  simp only [blocked, Session.blocks, List.any_eq_true, List.mem_range,
    Bool.and_eq_true, decide_eq_true_eq, Option.any_eq_true, Holds]
  constructor
  · rintro ⟨other, _, different, session, found, lock, member, same, conflict⟩
    exact ⟨other, lock.2, different, ⟨session, found, same ▸ member⟩, conflict⟩
  · rintro ⟨other, held, different, ⟨session, found, member⟩, conflict⟩
    exact ⟨other, (List.getElem?_eq_some_iff.mp found).1, different, session,
      found, _, member, rfl, conflict⟩

/-- The invariant of the lock system. -/
structure Orderly (system : LockSystem) : Prop where
  forest : system.db.GrantForest
  exclusive : LockTable.Exclusive
    (fun mode held : LockMode => mode.conflicts held = true) system.Holds
  ordered : ∀ depth, system.db.Depths depth → ∀ session ∈ system.sessions,
    WellOrdered depth session.held session.program
  prompt : ∀ transaction tenant,
    ¬ system.Waits transaction (.tenant tenant) .keyShare

theorem orderly_initial : initial.Orderly where
  forest := Database.grantForest_migrated
  exclusive := by
    intro first second _ resource mode held holds
    obtain ⟨session, found, _⟩ := holds
    simp [initial] at found
  ordered := by simp [initial]
  prompt := by
    rintro transaction tenant ⟨session, rest, found, _⟩
    simp [initial] at found

/-- In an orderly system no wait-for cycle exists. -/
theorem Orderly.not_cycle (orderly : system.Orderly) (transaction : Nat) :
    ¬ Relation.TransGen system.WaitsFor transaction transaction := by
  have agrees : system.db.Depths system.db.grantDepth := fun _ _ _ found =>
    Database.grantDepth_of_found found
  refine LockTable.not_transGen_waitsFor_self
    (Resource.rank system.db.grantDepth) ?_ transaction
  rintro waiter other ⟨different, awaited, mode, held, waits, holds, conflict⟩
    resource requested ⟨session, rest, found, waiting, asks⟩ own ownMode
    ⟨same, sameFound, member⟩
  obtain rfl := Option.some.inj (found.symm.trans sameFound)
  obtain ⟨waitingSession, waitingRest, waitingFound, _, waitingAsks⟩ := waits
  obtain rfl := Option.some.inj (found.symm.trans waitingFound)
  have one : (resource, requested) = (awaited, mode) := by
    rw [asks] at waitingAsks
    exact (LockProgram.lock.inj waitingAsks).1
  obtain ⟨rfl, rfl⟩ := Prod.mk.inj one
  have ordered := orderly.ordered _ agrees session
    (List.mem_of_getElem? found)
  rw [asks] at ordered
  cases ordered with
  | lock inOrder _ =>
      rcases inOrder with ⟨lock, stored, sameResource, covers⟩ |
        ⟨tenant, reference⟩ | above
      · -- a covered request is held up by nobody
        change lock.1 = resource at sameResource
        have ownLock : system.Holds waiter resource lock.2 :=
          ⟨session, found, sameResource ▸ stored⟩
        exact absurd conflict
          (orderly.exclusive.not_conflicts_of_covered different ownLock
            (fun _ => LockMode.conflicts_of_covers covers) holds)
      · obtain ⟨rfl, rfl⟩ := Prod.mk.inj reference
        exact absurd ⟨session, rest, found, waiting, asks⟩
          (orderly.prompt waiter tenant)
      · exact above _ member

/-- An orderly system stays so when one session changes in order. -/
theorem Orderly.withSession (orderly : system.Orderly)
    (granted : ∀ lock ∈ session.held,
      system.Holds transaction lock.1 lock.2 ∨
        system.blocked transaction lock = false)
    (ordered : ∀ depth, system.db.Depths depth →
      WellOrdered depth session.held session.program)
    (prompt : session.waiting = true → ∀ tenant rest,
      session.program ≠ .lock (.tenant tenant, .keyShare) rest) :
    (system.withSession transaction session).Orderly where
  forest := orderly.forest
  exclusive := by
    -- what a transaction holds now, it held before or just got unopposed
    have origin : ∀ {tx resource mode},
        (system.withSession transaction session).Holds tx resource mode →
        system.Holds tx resource mode ∨
          (tx = transaction ∧
            system.blocked transaction (resource, mode) = false) := by
      rintro tx resource mode ⟨current, found, member⟩
      rw [getElem?_withSession] at found
      split at found
      next same =>
        subst same
        obtain ⟨_, _, rfl⟩ := Option.map_eq_some_iff.mp found
        rcases granted _ member with held | free
        · exact .inl held
        · exact .inr ⟨rfl, free⟩
      next => exact .inl ⟨current, found, member⟩
    intro first second different resource mode held firstHolds secondHolds
      conflict
    rcases origin firstHolds with firstOld | ⟨rfl, firstFree⟩
    · rcases origin secondHolds with secondOld | ⟨rfl, secondFree⟩
      · exact orderly.exclusive first second different resource mode held
          firstOld secondOld conflict
      · rw [LockMode.conflicts_comm] at conflict
        rw [blocked_eq_true_iff.mpr
          ⟨first, mode, different, firstOld, conflict⟩] at secondFree
        exact absurd secondFree (by decide)
    · rcases origin secondHolds with secondOld | ⟨rfl, _⟩
      · rw [blocked_eq_true_iff.mpr
          ⟨second, held, different.symm, secondOld, conflict⟩] at firstFree
        exact absurd firstFree (by decide)
      · exact absurd rfl different
  ordered := by
    intro depth agrees current member
    rcases List.mem_or_eq_of_mem_set member with earlier | rfl
    · exact orderly.ordered depth agrees current earlier
    · exact ordered depth agrees
  prompt := by
    rintro tx tenant ⟨current, rest, found, waiting, asks⟩
    rw [getElem?_withSession] at found
    split at found
    next same =>
      obtain ⟨_, _, rfl⟩ := Option.map_eq_some_iff.mp found
      exact prompt waiting tenant rest asks
    next =>
      exact orderly.prompt tx tenant ⟨current, rest, found, waiting, asks⟩

theorem Orderly.ended (orderly : system.Orderly) (transaction : Nat) :
    (system.withSession transaction Session.ended).Orderly :=
  orderly.withSession (by simp [Session.ended]) (fun _ _ => .done)
    (by simp [Session.ended])

/-- The next step of a transaction keeps the system orderly, unless it asks for
the foreign key of a tenant held for update. -/
theorem Orderly.proceed (orderly : system.Orderly)
    (free : system.tenantReferenceFree (.proceed transaction) = true) :
    (system.proceed transaction).Orderly := by
  unfold LockSystem.proceed
  cases found : system.sessions[transaction]? with
  | none => exact orderly
  | some session =>
      obtain ⟨program, held, waiting⟩ := session
      have ordered : ∀ depth, system.db.Depths depth →
          WellOrdered depth held program := fun depth agrees =>
        orderly.ordered depth agrees _ (List.mem_of_getElem? found)
      have holds : ∀ lock ∈ held, system.Holds transaction lock.1 lock.2 :=
        fun lock stored => ⟨_, found, stored⟩
      cases program with
      | done => exact orderly
      | loadGrantChainLocked tenant leaf rest =>
          dsimp only
          split
          · exact orderly.ended transaction
          next present =>
            rw [not_or] at present
            refine orderly.withSession (fun lock stored => .inl (holds lock stored))
              ?_ (by simp)
            intro depth agrees
            obtain ⟨known, deeper⟩ :=
              orderly.forest.chainIds_ordered agrees present.1
            cases ordered depth agrees with
            | loadGrantChainLocked each => exact each _ known deeper
      | lock request rest =>
          dsimp only
          split
          next stopped =>
            refine orderly.withSession (fun lock stored => .inl (holds lock stored))
              ordered ?_
            intro _ tenant later asks
            obtain ⟨rfl, rfl⟩ := LockProgram.lock.inj asks
            simp [tenantReferenceFree, nextRequest, found, stopped] at free
          next allowed =>
            refine orderly.withSession ?_ ?_ (by simp)
            · intro lock stored
              rcases List.mem_cons.mp stored with rfl | earlier
              · exact .inr (by simpa using allowed)
              · exact .inl (holds lock earlier)
            · intro depth agrees
              cases ordered depth agrees with
              | lock _ later => exact later

theorem Orderly.commit (orderly : system.Orderly) (sha256 : Sha256)
    (call : Call) :
    ({ system with db := (system.db.perform sha256 call).2 } :
      LockSystem).Orderly := by
  rcases system.db.perform_cases sha256 call with
    ⟨_, _, failed⟩ | ⟨response, next, moved, succeeded⟩
  · rw [failed]
    exact orderly
  · rw [succeeded]
    exact ⟨moved.grantForest orderly.forest, orderly.exclusive,
      fun depth agrees => orderly.ordered depth (moved.extends.depths agrees),
      orderly.prompt⟩

/-- A new transaction holds nothing and keeps to the order. -/
theorem Orderly.start (orderly : system.Orderly) (operation : Operation) :
    ({ system with
      sessions := system.sessions ++ [Session.opened operation] } :
        LockSystem).Orderly := by
  have earlier : ∀ {tx : Nat} {session : Session},
      (system.sessions ++ [Session.opened operation])[tx]? = some session →
      system.sessions[tx]? = some session ∨
        session = Session.opened operation := by
    intro tx session found
    rw [List.getElem?_append] at found
    split at found
    · exact .inl found
    · exact .inr (List.mem_singleton.mp (List.mem_of_getElem? found))
  constructor
  · exact orderly.forest
  · rintro first second different resource mode held
      ⟨firstSession, firstFound, firstMember⟩
      ⟨secondSession, secondFound, secondMember⟩
    rcases earlier firstFound with firstOld | rfl
    · rcases earlier secondFound with secondOld | rfl
      · exact orderly.exclusive first second different resource mode held
          ⟨firstSession, firstOld, firstMember⟩
          ⟨secondSession, secondOld, secondMember⟩
      · simp [Session.opened] at secondMember
    · simp [Session.opened] at firstMember
  · intro depth agrees session member
    rcases List.mem_append.mp member with old | new
    · exact orderly.ordered depth agrees session old
    · rw [List.mem_singleton.mp new]
      exact operation.wellOrdered
  · rintro tx tenant ⟨session, rest, found, waiting, asks⟩
    rcases earlier found with old | rfl
    · exact orderly.prompt tx tenant ⟨session, rest, old, waiting, asks⟩
    · simp [Session.opened] at waiting

end LockSystem

/-- In every run of any number of concurrent operations in which no foreign key
on a tenant is looked up while another transaction holds that tenant for update,
no state has a wait-for cycle. -/
theorem lockProtocol_no_cycle {sha256 : Sha256}
    {history : List (Performed LockSystem LockAction Unit)}
    {system : LockSystem}
    (execution : Execution (LockSystem.perform sha256)
      (fun system action => system.tenantReferenceFree action = true)
      LockSystem.initial history system) (transaction : Nat) :
    ¬ Relation.TransGen system.WaitsFor transaction transaction := by
  have orderly : system.Orderly := by
    refine execution.invariant LockSystem.Orderly LockSystem.orderly_initial ?_
    intro state action orderly free
    cases action with
    | commit call => exact orderly.commit sha256 call
    | start operation => exact orderly.start operation
    | proceed transaction => exact orderly.proceed free
    | finish transaction => exact orderly.ended transaction
  exact orderly.not_cycle transaction

namespace LockSystem

variable {system : LockSystem}

theorem waits_of_nextRequest {transaction : Nat} {resource : Resource}
    {mode : LockMode}
    (next : system.nextRequest transaction = some (resource, mode))
    (waiting : (system.sessions[transaction]?).map Session.waiting =
      some true) : system.Waits transaction resource mode := by
  obtain ⟨session, found, isWaiting⟩ := Option.map_eq_some_iff.mp waiting
  rw [nextRequest, found, Option.bind_some] at next
  split at next
  next asked rest asks =>
    obtain rfl := Option.some.inj next
    exact ⟨session, rest, found, isWaiting, asks⟩
  next => simp at next

theorem holds_of_mem {transaction : Nat} {resource : Resource}
    {mode : LockMode}
    (member : (resource, mode) ∈
      ((system.sessions[transaction]?).map Session.held).getD []) :
    system.Holds transaction resource mode := by
  cases found : system.sessions[transaction]? with
  | none => simp [found] at member
  | some session => exact ⟨session, found, by simpa [found] using member⟩

end LockSystem

namespace Sample

/-- The state after the actions, taken in order. -/
def locked (actions : List LockAction) : LockSystem :=
  (performAll (LockSystem.perform sha256) LockSystem.initial actions).2

/-- A tenant with two grants and a module is there. -/
def provisioned : List LockAction :=
  (calls (delegation ++ [.putModule 1 Digest.zero [0]])).map .commit

/-- A grant is created below the child and looks up its tenant before a run is
admitted there. -/
def creationFirst : List LockAction :=
  provisioned ++ [.start (.createChild 1 11), .proceed 0, .proceed 0,
    .proceed 0, .start (.admitFresh 1 20 Digest.zero 11), .proceed 1,
    .proceed 1, .proceed 0, .proceed 1]

/-- The same two operations, with the tenant locked for the admission before the
creation looks it up. -/
def crossed : List LockAction :=
  provisioned ++ [.start (.createChild 1 11), .proceed 0, .proceed 0,
    .proceed 0, .start (.admitFresh 1 20 Digest.zero 11), .proceed 1,
    .proceed 1, .proceed 1, .proceed 1, .proceed 1, .proceed 1, .proceed 1,
    .proceed 0]

end Sample

theorem lockProtocol_no_cycle_creationFirst :
    (Sample.locked Sample.creationFirst).WaitsFor 1 0 ∧
      ¬ Relation.TransGen (Sample.locked Sample.creationFirst).WaitsFor 1
        1 := by
  have execution : Execution (LockSystem.perform Sample.sha256)
      (fun system action => system.tenantReferenceFree action = true)
      LockSystem.initial _ (Sample.locked Sample.creationFirst) :=
    Execution.of_performAll (by decide +kernel)
  have waits : (Sample.locked Sample.creationFirst).Waits 1 (.tenant 1)
      .forUpdate :=
    LockSystem.waits_of_nextRequest (by decide +kernel) (by decide +kernel)
  have holds : (Sample.locked Sample.creationFirst).Holds 0 (.tenant 1)
      .keyShare :=
    LockSystem.holds_of_mem (by decide +kernel)
  exact ⟨⟨by decide, .tenant 1, .forUpdate, .keyShare, waits, holds, rfl⟩,
    lockProtocol_no_cycle execution 1⟩

/-- A child's creation holds its ancestry and waits for the tenant, an admission
under the same grant holds the tenant and waits for the grant. -/
theorem creation_and_admission_deadlock :
    ∃ history system,
      Execution (LockSystem.perform Sample.sha256) (fun _ _ => True)
        LockSystem.initial history system ∧
      Relation.TransGen system.WaitsFor 0 0 := by
  refine ⟨_, Sample.locked Sample.crossed,
    Execution.of_performAll (AllPermitted.of_forall fun _ _ _ => trivial), ?_⟩
  have creationWaits : (Sample.locked Sample.crossed).Waits 0 (.tenant 1)
      .keyShare :=
    LockSystem.waits_of_nextRequest (by decide +kernel) (by decide +kernel)
  have admissionHolds : (Sample.locked Sample.crossed).Holds 1 (.tenant 1)
      .forUpdate :=
    LockSystem.holds_of_mem (by decide +kernel)
  have admissionWaits : (Sample.locked Sample.crossed).Waits 1 (.grant 1 11)
      .keyShare :=
    LockSystem.waits_of_nextRequest (by decide +kernel) (by decide +kernel)
  have creationHolds : (Sample.locked Sample.crossed).Holds 0 (.grant 1 11)
      .forUpdate :=
    LockSystem.holds_of_mem (by decide +kernel)
  exact .tail (.single ⟨by decide, .tenant 1, .keyShare, .forUpdate,
      creationWaits, admissionHolds, rfl⟩)
    ⟨by decide, .grant 1 11, .keyShare, .forUpdate, admissionWaits,
      creationHolds, rfl⟩

end EffectLatch
