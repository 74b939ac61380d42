import EffectLatch.RelationalTables
import Mathlib.Data.List.Induction

/-!
# The last match of a scan

A scan that looks at every value and keeps the last match finds the one match
when there is at most one, wherever it stands.
-/

namespace List

universe u v

variable {Row : Type u} {Image : Type v} {selected : Row → Bool}
  {image : Row → Image} {rows : List Row}

/-- The image of the last selected row. -/
def lastMatch (selected : Row → Bool) (image : Row → Image)
    (rows : List Row) : Option Image :=
  rows.foldl (fun found row => if selected row then some (image row) else found)
    none

theorem lastMatch_concat (row : Row) :
    (rows ++ [row]).lastMatch selected image =
      if selected row then some (image row)
      else rows.lastMatch selected image := by
  rw [lastMatch, foldl_append]
  rfl

/-- When at most one row is selected, the scan finds it. -/
theorem Alone.lastMatch_eq_some_iff (alone : Alone selected rows)
    {result : Image} :
    rows.lastMatch selected image = some result ↔
      ∃ row ∈ rows, selected row = true ∧ image row = result := by
  induction rows using reverseRecOn with
  | nil => simp [lastMatch]
  | append_singleton front last ih =>
      obtain ⟨before, _, apart⟩ := pairwise_append.mp alone
      rw [lastMatch_concat]
      by_cases chosen : selected last = true
      · rw [if_pos chosen, Option.some.injEq]
        constructor
        · rintro rfl
          exact ⟨last, by simp, chosen, rfl⟩
        · rintro ⟨row, member, rowChosen, rfl⟩
          rcases mem_append.mp member with earlier | itself
          · exact absurd ⟨rowChosen, chosen⟩ (apart row earlier last (by simp))
          · rw [mem_singleton.mp itself]
      · rw [if_neg chosen, ih before]
        constructor
        · rintro ⟨row, member, found⟩
          exact ⟨row, mem_append_left [last] member, found⟩
        · rintro ⟨row, member, rowChosen, same⟩
          rcases mem_append.mp member with earlier | itself
          · exact ⟨row, earlier, rowChosen, same⟩
          · rw [mem_singleton.mp itself] at rowChosen
            exact absurd rowChosen chosen

theorem Alone.perm {others : List Row} (alone : Alone selected rows)
    (reordered : rows.Perm others) : Alone selected others :=
  (reordered.pairwise_iff fun apart both => apart both.symm).mp alone

/-- The order of the rows does not matter to the scan. -/
theorem Alone.lastMatch_perm {others : List Row} (alone : Alone selected rows)
    (reordered : rows.Perm others) :
    others.lastMatch selected image = rows.lastMatch selected image := by
  ext result
  rw [alone.lastMatch_eq_some_iff, (alone.perm reordered).lastMatch_eq_some_iff]
  simp only [reordered.mem_iff]

/-- Distinct keys select at most one row each. -/
theorem alone_of_nodup_map {Key : Type*} [DecidableEq Key] {key : Row → Key}
    (distinct : (rows.map key).Nodup) (value : Key) :
    Alone (fun row => decide (key row = value)) rows := by
  refine (pairwise_map.mp distinct).imp ?_
  rintro first second apart ⟨firstChosen, secondChosen⟩
  exact apart ((of_decide_eq_true firstChosen).trans
    (of_decide_eq_true secondChosen).symm)

end List
