import Mathlib.Data.List.Basic

/-!
# Values that first occur in counting order

A list counts to a bound when its values, each at its first occurrence, are
0, 1, 2, … up to the bound.  Repeating a value below the bound keeps this, and
so does the bound itself as the next new value.
-/

namespace EffectLatch

/-- The distinct values in the order of their first occurrence are
`0, …, bound - 1`. -/
def CountsTo (values : List Nat) (bound : Nat) : Prop :=
  values.eraseDups = List.range bound

namespace CountsTo

variable {values : List Nat} {bound value : Nat}

theorem nil : CountsTo [] 0 :=
  rfl

/-- A value occurs exactly when it is below the bound. -/
theorem mem_iff (counts : CountsTo values bound) :
    value ∈ values ↔ value < bound := by
  rw [← List.mem_eraseDups, counts, List.mem_range]

theorem length (counts : CountsTo values bound) :
    values.eraseDups.length = bound := by
  rw [counts, List.length_range]

theorem repeated (counts : CountsTo values bound) (old : value < bound) :
    CountsTo (values ++ [value]) bound := by
  have member := counts.mem_iff.mpr old
  rw [CountsTo, List.eraseDups_append, counts]
  simp [List.removeAll, member]

theorem next (counts : CountsTo values bound) :
    CountsTo (values ++ [bound]) (bound + 1) := by
  have fresh : bound ∉ values := fun member =>
    absurd (counts.mem_iff.mp member) (Nat.lt_irrefl bound)
  rw [CountsTo, List.eraseDups_append, counts, List.range_succ]
  simp [List.removeAll, fresh, List.eraseDups_cons]

/-- A value that leaves no gap. -/
theorem append (counts : CountsTo values bound) (near : value ≤ bound) :
    CountsTo (values ++ [value])
      (if value = bound then bound + 1 else bound) := by
  split
  next same =>
    rw [same]
    exact counts.next
  next other =>
    exact counts.repeated (Nat.lt_of_le_of_ne near other)

end CountsTo

end EffectLatch
