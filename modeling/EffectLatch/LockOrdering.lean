import EffectLatch.GrantForestInvariant
import EffectLatch.LockProtocol
import Mathlib.Data.Prod.Lex

/-!
# Lock order

Every operation asks for rows in one order: the advisory lock, the scheduler
row, the tenant, the run, the module, the grants by depth, the effect.  What it
asks for again it already holds.  The one exception is the foreign key on the
tenant that a child grant or a revocation looks up after the ancestry is locked.
-/

namespace EffectLatch

/-- An own lock of the first mode makes a request for the second one
immediate. -/
def LockMode.covers : LockMode → LockMode → Bool
  | .forUpdate, _ => true
  | .noKeyUpdate, .forUpdate => false
  | .noKeyUpdate, _ => true
  | .keyShare, .keyShare => true
  | .keyShare, _ => false

namespace LockMode

theorem conflicts_comm (first second : LockMode) :
    first.conflicts second = second.conflicts first := by
  cases first <;> cases second <;> rfl

theorem conflicts_of_covers {own mode other : LockMode}
    (covers : own.covers mode = true) (conflict : mode.conflicts other = true) :
    own.conflicts other = true := by
  cases own <;> cases mode <;> cases other <;> simp_all [conflicts, LockMode.covers]

end LockMode

/-- The place of a row in the lock order, by kind and for grants by depth. -/
def Resource.rank (depth : Uuid → Uuid → Nat) : Resource → Nat ×ₗ Nat
  | .advisory => toLex (0, 0)
  | .schedulerState => toLex (1, 0)
  | .tenant _ => toLex (2, 0)
  | .run _ _ => toLex (3, 0)
  | .module _ _ => toLex (4, 0)
  | .grant owner id => toLex (5, depth owner id)
  | .effect _ _ _ => toLex (6, 0)

/-- A lock already held makes the request immediate. -/
def Covered (held : List Lock) (request : Lock) : Prop :=
  ∃ lock ∈ held, lock.1 = request.1 ∧ lock.2.covers request.2 = true

/-- A foreign key on a tenant is looked up. -/
def TenantReference (request : Lock) : Prop :=
  ∃ tenant, request = (.tenant tenant, .keyShare)

/-- With these locks held, the program asks only for what is covered, for what
ranks above all of them, or for the foreign key of a tenant. -/
inductive WellOrdered (depth : Uuid → Uuid → Nat) :
    List Lock → LockProgram → Prop
  | done {held : List Lock} : WellOrdered depth held .done
  | lock {held : List Lock} {request : Lock} {rest : LockProgram}
      (inOrder : Covered held request ∨ TenantReference request ∨
        ∀ lock ∈ held, lock.1.rank depth < request.1.rank depth)
      (later : WellOrdered depth (request :: held) rest) :
      WellOrdered depth held (.lock request rest)
  | loadGrantChainLocked {held : List Lock} {tenant leaf : Uuid}
      {rest : List Uuid → LockProgram}
      (each : ∀ ids, leaf ∈ ids →
        ids.Pairwise (fun first second =>
          depth tenant first < depth tenant second) →
        WellOrdered depth held
          (LockProgram.locks (chainLocks tenant ids) (rest ids))) :
      WellOrdered depth held (.loadGrantChainLocked tenant leaf rest)

namespace WellOrdered

variable {depth : Uuid → Uuid → Nat} {held requests : List Lock}
  {rest : LockProgram}

theorem locks_ordered
    (above : ∀ lock ∈ held, ∀ request ∈ requests,
      lock.1.rank depth < request.1.rank depth)
    (growing : requests.Pairwise fun first second =>
      first.1.rank depth < second.1.rank depth)
    (later : WellOrdered depth (requests.reverse ++ held) rest) :
    WellOrdered depth held (LockProgram.locks requests rest) := by
  induction requests generalizing held with
  | nil => simpa [LockProgram.locks] using later
  | cons request others ih =>
      obtain ⟨first, growing⟩ := List.pairwise_cons.mp growing
      refine .lock (.inr (.inr fun lock member =>
        above lock member request List.mem_cons_self)) (ih ?_ growing ?_)
      · intro lock member other otherMember
        rcases List.mem_cons.mp member with rfl | earlier
        · exact first other otherMember
        · exact above lock earlier other (List.mem_cons_of_mem _ otherMember)
      · simpa using later

theorem locks_covered
    (harmless : ∀ request ∈ requests,
      Covered held request ∨ TenantReference request)
    (later : WellOrdered depth (requests.reverse ++ held) rest) :
    WellOrdered depth held (LockProgram.locks requests rest) := by
  induction requests generalizing held with
  | nil => simpa [LockProgram.locks] using later
  | cons request others ih =>
      refine .lock ?_ (ih ?_ ?_)
      · rcases harmless request List.mem_cons_self with covered | reference
        · exact .inl covered
        · exact .inr (.inl reference)
      · intro other member
        rcases harmless other (List.mem_cons_of_mem _ member) with
          ⟨lock, stored, covers⟩ | reference
        · exact .inl ⟨lock, List.mem_cons_of_mem _ stored, covers⟩
        · exact .inr reference
      · simpa using later

/-- A locked ancestry is in order when it comes after rows of other kinds. -/
theorem locks_chain {tenant : Uuid} {ids : List Uuid}
    (below : ∀ lock ∈ held, ∀ id,
      lock.1.rank depth < (Resource.grant tenant id).rank depth)
    (deeper : ids.Pairwise fun first second =>
      depth tenant first < depth tenant second)
    (later : WellOrdered depth ((chainLocks tenant ids).reverse ++ held) rest) :
    WellOrdered depth held
      (LockProgram.locks (chainLocks tenant ids) rest) := by
  refine locks_ordered ?_ ?_ later
  · intro lock member request asked
    obtain ⟨id, _, rfl⟩ := List.mem_map.mp asked
    exact below lock member id
  · rw [chainLocks, List.pairwise_map]
    refine deeper.imp fun lower => ?_
    simp [Resource.rank, Prod.Lex.toLex_lt_toLex, lower]

end WellOrdered

/-- Any further lock on a locked ancestry is immediate. -/
theorem covered_chain {tenant id : Uuid} {ids : List Uuid} (member : id ∈ ids)
    (mode : LockMode) (held : List Lock) :
    Covered ((chainLocks tenant ids).reverse ++ held)
      (.grant tenant id, mode) := by
  refine ⟨(.grant tenant id, .forUpdate), ?_, rfl, rfl⟩
  simp [chainLocks, member]

theorem Covered.cons {held : List Lock} {request : Lock}
    (covered : Covered held request) (lock : Lock) :
    Covered (lock :: held) request := by
  obtain ⟨own, member, covers⟩ := covered
  exact ⟨own, List.mem_cons_of_mem lock member, covers⟩

namespace Operation

variable {depth : Uuid → Uuid → Nat}

/-- The rows every scheduler transaction locks first, in order. -/
theorem wellOrdered_scheduler {tenant run : Uuid} {rest : LockProgram}
    (later : WellOrdered depth
      [(.run tenant run, .forUpdate), (.tenant tenant, .forUpdate),
        (.schedulerState, .forUpdate), (.advisory, .forUpdate)] rest) :
    WellOrdered depth [] (LockProgram.locks (beginSchedulerLocks ++
      [(.tenant tenant, .forUpdate), (.run tenant run, .forUpdate)]) rest) := by
  refine .locks_ordered (by simp) ?_ (by simpa [beginSchedulerLocks] using later)
  simp [beginSchedulerLocks, Resource.rank, Prod.Lex.toLex_lt_toLex]

/-- Every operation keeps to the order. -/
theorem wellOrdered (operation : Operation) :
    WellOrdered depth [] operation.program := by
  cases operation with
  | admitExisting tenant run => exact wellOrdered_scheduler .done
  | admitFresh tenant run digest grant =>
      refine wellOrdered_scheduler ?_
      refine .locks_covered (by simp [Covered, LockMode.covers]) ?_
      refine .locks_ordered ?_ ?_ ?_
      · simp [Resource.rank, Prod.Lex.toLex_lt_toLex]
      · simp [Resource.rank, Prod.Lex.toLex_lt_toLex]
      · refine .locks_covered ?_ .done
        simp [Covered, LockMode.covers, appendEventLocks]
  | claimDenied tenant run grant =>
      refine wellOrdered_scheduler (.loadGrantChainLocked fun ids _ deeper => ?_)
      refine .locks_chain ?_ deeper (.locks_covered ?_ .done)
      · simp [Resource.rank, Prod.Lex.toLex_lt_toLex]
      · simp [Covered, LockMode.covers, appendEventLocks]
  | claimLeased tenant run grant =>
      refine wellOrdered_scheduler (.loadGrantChainLocked fun ids _ deeper => ?_)
      refine .locks_chain ?_ deeper (.locks_covered ?_ .done)
      · simp [Resource.rank, Prod.Lex.toLex_lt_toLex]
      · simp [Covered, LockMode.covers, appendEventLocks]
  | heartbeatRun tenant run =>
      exact .locks_ordered (by simp) (by simp) .done
  | markRunStarted tenant run =>
      refine .locks_ordered (by simp) (by simp) (.locks_covered ?_ .done)
      simp [Covered, LockMode.covers, appendEventLocks]
  | reapWaiting tenant run =>
      refine wellOrdered_scheduler (.locks_covered ?_ .done)
      simp [Covered, LockMode.covers, appendEventLocks]
  | reapExpired tenant run =>
      refine wellOrdered_scheduler (.locks_covered ?_ .done)
      simp [Covered, LockMode.covers, appendEventLocks]
  | finishRun tenant run =>
      refine wellOrdered_scheduler (.locks_covered ?_ .done)
      simp [Covered, LockMode.covers, appendEventLocks]
  | createRoot tenant =>
      refine .locks_ordered (by simp) (by simp) (.locks_covered ?_ .done)
      simp [Covered, LockMode.covers]
  | createChild tenant parent =>
      refine .loadGrantChainLocked fun ids known deeper => ?_
      refine .locks_chain (by simp) deeper (.locks_covered ?_ .done)
      intro request asked
      simp only [List.mem_cons, List.not_mem_nil, or_false] at asked
      rcases asked with rfl | rfl | rfl
      · exact .inr ⟨tenant, rfl⟩
      · exact .inl (covered_chain known .keyShare [])
      · exact .inr ⟨tenant, rfl⟩
  | getGrant tenant id =>
      refine .loadGrantChainLocked fun ids _ deeper => ?_
      exact .locks_chain (by simp) deeper .done
  | revokeGrant tenant id =>
      refine .loadGrantChainLocked fun ids known deeper => ?_
      refine .locks_chain (by simp) deeper (.locks_covered ?_ .done)
      intro request asked
      simp only [List.mem_cons, List.not_mem_nil, or_false] at asked
      rcases asked with rfl | rfl
      · exact .inl (covered_chain known .noKeyUpdate [])
      · exact .inr ⟨tenant, rfl⟩
  | reserveGrantChain tenant run ordinal grant =>
      refine .locks_ordered (by simp) (by simp) ?_
      refine .loadGrantChainLocked fun ids _ deeper => ?_
      refine .locks_chain ?_ deeper (.locks_ordered ?_ (by simp) ?_)
      · simp [Resource.rank, Prod.Lex.toLex_lt_toLex]
      · intro lock member request asked
        rw [List.mem_singleton.mp asked]
        simp only [chainLocks, List.mem_append, List.mem_reverse, List.mem_map,
          List.mem_cons, List.not_mem_nil, or_false] at member
        rcases member with ⟨id, _, rfl⟩ | rfl <;>
          simp [Resource.rank, Prod.Lex.toLex_lt_toLex]
      · refine .locks_covered ?_ .done
        intro request asked
        simp only [List.mem_append, List.mem_flatMap, List.mem_cons,
          List.not_mem_nil, or_false] at asked
        have effectHeld : ∀ mode, Covered
            ((.effect tenant run ordinal, .forUpdate) ::
              ((chainLocks tenant ids).reverse ++
                [(.run tenant run, .forUpdate)]))
            (.effect tenant run ordinal, mode) := fun _ =>
          ⟨_, List.mem_cons_self, rfl, rfl⟩
        rcases asked with ⟨id, known, rfl | rfl | rfl⟩ | rfl
        · exact .inl ((covered_chain known .noKeyUpdate _).cons _)
        · exact .inl (effectHeld .keyShare)
        · exact .inl ((covered_chain known .keyShare _).cons _)
        · exact .inl (effectHeld .noKeyUpdate)

end Operation

end EffectLatch
