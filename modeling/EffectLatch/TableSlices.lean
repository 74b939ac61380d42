import EffectLatch.ExceptResults
import EffectLatch.RelationalTables
import Mathlib.Data.Option.Basic
import Mathlib.Data.List.Sort

/-!
# Two tables that agree on a part of their rows

A statement that only looks at a part of a table cannot tell two tables apart
that agree on this part: lookups give the same row, counts the same number, and
inserts and updates succeed or fail alike and keep the agreement.
`Except.Agree` carries this through a chain of statements.
-/

universe u v

namespace Except

variable {ε : Type u} {α α' β β' : Type v}

/-- Both computations stop with the same failure, or both succeed with related
values. -/
inductive Agree (related : α → β → Prop) : Except ε α → Except ε β → Prop
  | error (failure : ε) : Agree related (.error failure) (.error failure)
  | ok {first : α} {second : β} (values : related first second) :
      Agree related (.ok first) (.ok second)

namespace Agree

variable {related : α → β → Prop} {next : α' → β' → Prop}

theorem pure {first : α} {second : β} (values : related first second) :
    Agree related (Pure.pure first : Except ε α)
      (Pure.pure second : Except ε β) :=
  .ok values

theorem bind {first : Except ε α} {second : Except ε β}
    {firstNext : α → Except ε α'} {secondNext : β → Except ε β'}
    (agree : Agree related first second)
    (continued : ∀ one other, related one other →
      Agree next (firstNext one) (secondNext other)) :
    Agree next (first >>= firstNext) (second >>= secondNext) := by
  cases agree with
  | error failure => exact .error failure
  | ok values => exact continued _ _ values

/-- A step that computes the same on both sides. -/
theorem bind_same {computed : Except ε α} {firstNext : α → Except ε α'}
    {secondNext : α → Except ε β'}
    (continued : ∀ value, computed = .ok value →
      Agree next (firstNext value) (secondNext value)) :
    Agree next (computed >>= firstNext) (computed >>= secondNext) := by
  cases computed with
  | error failure => exact .error failure
  | ok value => exact continued value rfl

theorem fetch {first : Option α} {second : Option β} {failure : ε}
    (found : Option.Rel related first second) :
    Agree related (Except.fetch first failure)
      (Except.fetch second failure) := by
  cases found with
  | none => exact .error failure
  | some values => exact .ok values

theorem map {first : Except ε α} {second : Except ε β} {firstImage : α → α'}
    {secondImage : β → β'} (agree : Agree related first second)
    (images : ∀ one other, related one other →
      next (firstImage one) (secondImage other)) :
    Agree next (first.map firstImage) (second.map secondImage) := by
  cases agree with
  | error failure => exact .error failure
  | ok values => exact .ok (images _ _ values)

end Agree

end Except

namespace Table

variable {Row : Type u} {schema : Schema.{u, v} Row}
  {first second next firstNext secondNext : Table schema}
  {part : Row → Prop} {selected : Row → Bool}

/-- The tables have the same rows in this part. -/
def SameOn (part : Row → Prop) (first second : Table schema) : Prop :=
  ∀ row, part row → (row ∈ first.rows ↔ row ∈ second.rows)

theorem SameOn.refl (table : Table schema) : SameOn part table table :=
  fun _ _ => Iff.rfl

/-- Rows outside the part may be added. -/
theorem SameOn.of_append {added : List Row}
    (rows : next.rows = first.rows ++ added)
    (outside : ∀ row ∈ added, ¬ part row) : SameOn part first next := by
  intro stored inPart
  rw [rows, List.mem_append]
  constructor
  · exact Or.inl
  · rintro (old | new)
    · exact old
    · exact absurd inPart (outside stored new)

theorem Inserted.sameOn {row : Row} (inserted : Inserted first next row)
    (outside : ¬ part row) : SameOn part first next := by
  intro stored inPart
  rw [inserted.mem_iff]
  constructor
  · exact Or.inl
  · rintro (old | rfl)
    · exact old
    · exact absurd inPart outside

theorem Replaced.sameOn [DecidableEq Row] {old new : Row}
    (replaced : Replaced first next old new)
    (oldOutside : ¬ part old) (newOutside : ¬ part new) :
    SameOn part first next := by
  intro stored inPart
  rw [replaced.mem_iff]
  constructor
  · intro member
    right
    refine ⟨member, ?_⟩
    rintro rfl
    exact oldOutside inPart
  · rintro (rfl | ⟨member, _⟩)
    · exact absurd inPart newOutside
    · exact member

namespace SameOn

section Statements

variable (same : SameOn part first second)
  (within : ∀ row, selected row = true → part row)

include same within

theorem chosen_iff {row : Row} :
    row ∈ first.rows ∧ selected row = true ↔
      row ∈ second.rows ∧ selected row = true :=
  and_congr_left fun chosen => same row (within row chosen)

theorem any_eq : first.rows.any selected = second.rows.any selected := by
  rw [Bool.eq_iff_iff, List.any_eq_true, List.any_eq_true]
  exact exists_congr fun row => same.chosen_iff within

theorem filter_perm :
    (first.rows.filter selected).Perm (second.rows.filter selected) := by
  rw [List.perm_ext_iff_of_nodup (first.nodup.filter selected)
    (second.nodup.filter selected)]
  intro row
  rw [List.mem_filter, List.mem_filter]
  exact same.chosen_iff within

theorem countP_eq :
    first.rows.countP selected = second.rows.countP selected := by
  rw [List.countP_eq_length_filter, List.countP_eq_length_filter]
  exact (same.filter_perm within).length_eq

/-- A lookup that can meet one row only finds the same row. -/
theorem find?_eq (firstAlone : List.Alone selected first.rows)
    (secondAlone : List.Alone selected second.rows) :
    first.rows.find? selected = second.rows.find? selected := by
  ext row
  rw [firstAlone.find?_eq_some_iff, secondAlone.find?_eq_some_iff]
  exact same.chosen_iff within

/-- Sorted by a column that tells the chosen rows apart, the rows are the
same. -/
theorem sort_eq {Value : Type*} [LinearOrder Value] (column : Row → Value)
    (clashing : ∀ one other, selected one = true → selected other = true →
      column one = column other →
        schema.clash (schema.key one) (schema.key other) = true) :
    (first.rows.filter selected).insertionSort
        (fun one other => column one ≤ column other) =
      (second.rows.filter selected).insertionSort
        (fun one other => column one ≤ column other) := by
  let before : Row → Row → Prop := fun one other => column one ≤ column other
  have total : Std.Total before :=
    ⟨fun one other => le_total (column one) (column other)⟩
  have transitive : IsTrans Row before := ⟨fun _ _ _ => le_trans⟩
  apply List.Perm.eq_of_pairwise _ (List.pairwise_insertionSort before _)
    (List.pairwise_insertionSort before _)
  · exact (List.perm_insertionSort before _).trans
      ((same.filter_perm within).trans (List.perm_insertionSort before _).symm)
  · intro one other oneSorted otherSorted below above
    rw [List.mem_insertionSort, List.mem_filter] at oneSorted otherSorted
    have stored := (same.chosen_iff within).mpr otherSorted
    have alone : List.Alone (fun row => selected row &&
        decide (column row = column one)) first.rows := by
      apply first.alone
      intro left right leftChosen rightChosen
      simp only [Bool.and_eq_true, decide_eq_true_eq] at leftChosen rightChosen
      exact clashing left right leftChosen.1 rightChosen.1
        (leftChosen.2.trans rightChosen.2.symm)
    apply alone.eq oneSorted.1 stored.1
    · simpa using oneSorted.2
    · simpa [stored.2] using le_antisymm above below

theorem update_agree (change : Row → Row)
    (keepsKey : ∀ row, schema.key (change row) = schema.key row) :
    Option.Rel (SameOn part) (first.update selected change keepsKey)
      (second.update selected change keepsKey) := by
  have checks : (∀ row ∈ first.rows, selected row = true →
      schema.check (change row) = true) ↔
        ∀ row ∈ second.rows, selected row = true →
          schema.check (change row) = true := by
    constructor
    · intro checked row member chosen
      exact checked row ((same row (within row chosen)).mpr member) chosen
    · intro checked row member chosen
      exact checked row ((same row (within row chosen)).mp member) chosen
  by_cases allowed : ∀ row ∈ first.rows, selected row = true →
      schema.check (change row) = true
  · rw [update, dif_pos allowed, update, dif_pos (checks.mp allowed)]
    constructor
    intro row inPart
    -- a row of the part comes from a row of the part
    have source {old : Row}
        (rewritten : row = if selected old = true then change old else old) :
        part old := by
      by_cases chosen : selected old = true
      · exact within old chosen
      · rw [if_neg chosen] at rewritten
        exact rewritten ▸ inPart
    simp only [List.mem_updateWhere]
    constructor
    · rintro ⟨old, member, rewritten⟩
      exact ⟨old, (same old (source rewritten)).mp member, rewritten⟩
    · rintro ⟨old, member, rewritten⟩
      exact ⟨old, (same old (source rewritten)).mpr member, rewritten⟩
  · rw [update, dif_neg allowed, update,
      dif_neg fun checked => allowed (checks.mpr checked)]
    exact .none

end Statements

/-- An insert that can clash with rows of the part only. -/
theorem insert_agree {row : Row} (same : SameOn part first second)
    (firstInside : ∀ old ∈ first.rows,
      schema.clash (schema.key old) (schema.key row) = true → part old)
    (secondInside : ∀ old ∈ second.rows,
      schema.clash (schema.key old) (schema.key row) = true → part old) :
    Option.Rel (SameOn part) (first.insert row) (second.insert row) := by
  have fresh : (∀ old ∈ first.rows,
      schema.clash (schema.key old) (schema.key row) = false) ↔
        ∀ old ∈ second.rows,
          schema.clash (schema.key old) (schema.key row) = false := by
    constructor
    · intro apart old member
      by_contra clashes
      rw [Bool.not_eq_false] at clashes
      have stored := (same old (secondInside old member clashes)).mpr member
      rw [apart old stored] at clashes
      exact absurd clashes (by decide)
    · intro apart old member
      by_contra clashes
      rw [Bool.not_eq_false] at clashes
      have stored := (same old (firstInside old member clashes)).mp member
      rw [apart old stored] at clashes
      exact absurd clashes (by decide)
  by_cases allowed : (∀ old ∈ first.rows,
      schema.clash (schema.key old) (schema.key row) = false) ∧
        schema.check row = true
  · rw [insert, dif_pos allowed, insert,
      dif_pos ⟨fresh.mp allowed.1, allowed.2⟩]
    constructor
    intro stored inPart
    simp only [List.mem_append]
    exact or_congr_left (same stored inPart)
  · rw [insert, dif_neg allowed, insert,
      dif_neg fun other => allowed ⟨fresh.mpr other.1, other.2⟩]
    exact .none

/-- An insert under columns that name the part. -/
theorem insert_agree_of_clash {row : Row} (same : SameOn part first second)
    (inside : ∀ old,
      schema.clash (schema.key old) (schema.key row) = true → part old) :
    Option.Rel (SameOn part) (first.insert row) (second.insert row) :=
  same.insert_agree (fun old _ => inside old) fun old _ => inside old

end SameOn

end Table
