import Mathlib.Logic.Relation
import Mathlib.Order.Basic

/-!
# Wait-for graphs

Transactions hold locks on resources and wait for locks that others hold
against them.  When whoever is kept waiting asks for a resource that ranks above
everything it holds, the ranks grow along every wait and no cycle closes.
-/

universe u v w x

namespace LockTable

variable {Tx : Type u} {Resource : Type v} {Mode : Type w} {Rank : Type x}
  {conflicts : Mode → Mode → Prop} {holds waits : Tx → Resource → Mode → Prop}

/-- `first` asks for a lock that `second` holds against it. -/
def WaitsFor (conflicts : Mode → Mode → Prop)
    (holds waits : Tx → Resource → Mode → Prop) (first second : Tx) : Prop :=
  first ≠ second ∧ ∃ resource mode held, waits first resource mode ∧
    holds second resource held ∧ conflicts mode held

/-- No two transactions hold locks that conflict. -/
def Exclusive (conflicts : Mode → Mode → Prop)
    (holds : Tx → Resource → Mode → Prop) : Prop :=
  ∀ first second, first ≠ second → ∀ resource mode held,
    holds first resource mode → holds second resource held →
    ¬ conflicts mode held

/-- A request that an own lock covers is held up by nobody. -/
theorem Exclusive.not_conflicts_of_covered
    (exclusive : Exclusive conflicts holds) {first second : Tx}
    (different : first ≠ second) {resource : Resource} {own mode held : Mode}
    (holdsOwn : holds first resource own)
    (covers : ∀ other, conflicts mode other → conflicts own other)
    (holdsTheirs : holds second resource held) : ¬ conflicts mode held := by
  intro conflict
  exact exclusive first second different resource own held holdsOwn holdsTheirs
    (covers held conflict)

section Ranked

variable [Preorder Rank] (rank : Resource → Rank)
  (ordered : ∀ tx other, WaitsFor conflicts holds waits tx other →
    ∀ resource mode, waits tx resource mode →
    ∀ own held, holds tx own held → rank own < rank resource)

include ordered

/-- Along a chain of waits, what the last one holds against its predecessor
ranks no lower than what the first one waits for. -/
theorem exists_rank_le_of_transGen {first last : Tx}
    (chain : Relation.TransGen (WaitsFor conflicts holds waits) first last) :
    ∃ awaited mode resource held, waits first awaited mode ∧
      holds last resource held ∧ rank awaited ≤ rank resource := by
  induction chain with
  | single edge =>
      obtain ⟨_, resource, mode, held, waiting, holding, _⟩ := edge
      exact ⟨resource, mode, resource, held, waiting, holding, le_refl _⟩
  | tail _ edge ih =>
      obtain ⟨awaited, mode, resource, held, waiting, holding, below⟩ := ih
      have growing := ordered _ _ edge
      obtain ⟨_, next, nextMode, nextHeld, nextWaiting, nextHolding, _⟩ := edge
      exact ⟨awaited, mode, next, nextHeld, waiting, nextHolding,
        below.trans (growing next nextMode nextWaiting resource held
          holding).le⟩

/-- Ordered waits close no cycle. -/
theorem not_transGen_waitsFor_self (tx : Tx) :
    ¬ Relation.TransGen (WaitsFor conflicts holds waits) tx tx := by
  intro cycle
  obtain ⟨awaited, mode, resource, held, waiting, holding, below⟩ :=
    exists_rank_le_of_transGen rank ordered cycle
  obtain ⟨next, edge, _⟩ := Relation.TransGen.head'_iff.mp cycle
  exact absurd (ordered tx next edge awaited mode waiting resource held holding)
    (not_lt_of_ge below)

end Ranked

end LockTable
