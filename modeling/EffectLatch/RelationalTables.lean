import Mathlib.Algebra.BigOperators.Group.List.Basic
import Mathlib.Data.List.Nodup
import Mathlib.Data.List.Pairwise
import Mathlib.Order.Lattice
import Mathlib.Tactic.Abel

/-!
# Relational tables with uniqueness and check constraints

A table is a list of rows that carries the proof of its declared constraints:
no two rows clash on a unique column set and every row passes the check
clause.  Statements that would break a constraint return `none`, so a table
value is always one a database could hold.
-/

universe u v

/-- The constraints declared on a relation.  `key` projects the columns under
uniqueness constraints, and two keys `clash` when they agree on one of the
unique column sets. -/
structure Schema (Row : Type u) where
  Key : Type v
  key : Row → Key
  clash : Key → Key → Bool
  clash_self : ∀ key, clash key key = true
  check : Row → Bool

/-- Rewrite the selected rows and leave the others as they are. -/
def List.updateWhere {Row : Type u} (selected : Row → Bool)
    (change : Row → Row) (rows : List Row) : List Row :=
  rows.map fun row => if selected row then change row else row

/-- The first row of an `ORDER BY ... LIMIT 1` query. -/
def List.first {Row : Type u} (before : Row → Row → Bool) :
    List Row → Option Row
  | [] => none
  | row :: rest =>
      match rest.first before with
      | none => some row
      | some other => if before other row then some other else some row

namespace List

variable {Row : Type u} {selected : Row → Bool} {change : Row → Row}
  {rows : List Row}

theorem mem_updateWhere {row : Row} :
    row ∈ rows.updateWhere selected change ↔
      ∃ old ∈ rows, row = if selected old then change old else old := by
  simp only [updateWhere, mem_map, eq_comm]

theorem updateWhere_eq_self (untouched : ∀ row ∈ rows, selected row = false) :
    rows.updateWhere selected change = rows := by
  have pointwise : ∀ row ∈ rows,
      (if selected row then change row else row) = row := by
    intro row member
    simp [untouched row member]
  simpa only [updateWhere, map_id'] using map_congr_left pointwise

/-- A projection that the rewrite keeps is the same list of values after it. -/
theorem map_updateWhere_of_keeps {Value : Type*} (project : Row → Value)
    (keeps : ∀ row ∈ rows, selected row = true →
      project (change row) = project row) :
    (rows.updateWhere selected change).map project = rows.map project := by
  simp only [updateWhere, map_map]
  apply map_congr_left
  intro row member
  by_cases chosen : selected row = true
  · simp [chosen, keeps row member chosen]
  · simp [chosen]

/-- At most one row of the list is selected. -/
def Alone (selected : Row → Bool) (rows : List Row) : Prop :=
  rows.Pairwise fun first second =>
    ¬ (selected first = true ∧ selected second = true)

theorem Alone.eq {first second : Row} (alone : Alone selected rows)
    (firstMember : first ∈ rows) (secondMember : second ∈ rows)
    (firstChosen : selected first = true)
    (secondChosen : selected second = true) : first = second := by
  by_contra different
  have : Std.Symm fun first second : Row =>
      ¬ (selected first = true ∧ selected second = true) :=
    ⟨fun _ _ apart both => apart both.symm⟩
  exact alone.forall firstMember secondMember different
    ⟨firstChosen, secondChosen⟩

/-- A narrower selection than one of at most one row is one too. -/
theorem Alone.mono {narrow : Row → Bool} (alone : Alone selected rows)
    (narrower : ∀ row, narrow row = true → selected row = true) :
    Alone narrow rows :=
  Pairwise.imp (fun apart both =>
    apart ⟨narrower _ both.1, narrower _ both.2⟩) alone

theorem Alone.find?_eq_some_iff {row : Row} (alone : Alone selected rows) :
    rows.find? selected = some row ↔ row ∈ rows ∧ selected row = true := by
  constructor
  · intro found
    exact ⟨mem_of_find?_eq_some found, find?_some found⟩
  · rintro ⟨member, chosen⟩
    cases found : rows.find? selected with
    | none =>
        have missed := find?_eq_none.mp found row member
        exact absurd chosen missed
    | some other =>
        rw [alone.eq (mem_of_find?_eq_some found) member
          (find?_some found) chosen]

/-- Rewriting the one selected row moves exactly its own weight. -/
theorem Alone.sum_map_updateWhere {Weight : Type*} [AddCommMonoid Weight]
    (weight : Row → Weight) {row : Row} (alone : Alone selected rows)
    (member : row ∈ rows) (chosen : selected row = true) :
    ((rows.updateWhere selected change).map weight).sum + weight row =
      (rows.map weight).sum + weight (change row) := by
  induction rows with
  | nil => simp at member
  | cons head tail ih =>
      have tailAlone : Alone selected tail := (pairwise_cons.mp alone).2
      have headApart := (pairwise_cons.mp alone).1
      rcases mem_cons.mp member with rfl | inTail
      · have tailFixed : tail.updateWhere selected change = tail := by
          apply updateWhere_eq_self
          intro other otherMember
          by_contra otherChosen
          exact headApart other otherMember ⟨chosen, by simpa using otherChosen⟩
        have split : (row :: tail).updateWhere selected change =
            change row :: tail.updateWhere selected change := by
          simp [updateWhere, chosen]
        rw [split, tailFixed, map_cons, map_cons, sum_cons, sum_cons]
        abel
      · have headOther : selected head = false := by
          by_contra headChosen
          exact headApart row inTail ⟨by simpa using headChosen, chosen⟩
        have split : (head :: tail).updateWhere selected change =
            head :: tail.updateWhere selected change := by
          simp [updateWhere, headOther]
        rw [split, map_cons, map_cons, sum_cons, sum_cons, add_assoc,
          ih tailAlone inTail, add_assoc]

theorem countP_eq_sum_indicator (counted : Row → Bool) (rows : List Row) :
    rows.countP counted =
      (rows.map fun row => if counted row then 1 else 0).sum := by
  induction rows with
  | nil => rfl
  | cons head tail ih =>
      by_cases headCounted : counted head = true
      · simp [headCounted, ih, Nat.add_comm]
      · simp [headCounted, ih]

/-- Rewriting the one selected row moves a count by that row alone. -/
theorem Alone.countP_updateWhere (counted : Row → Bool) {row : Row}
    (alone : Alone selected rows) (member : row ∈ rows)
    (chosen : selected row = true) :
    (rows.updateWhere selected change).countP counted +
        (if counted row then 1 else 0) =
      rows.countP counted + (if counted (change row) then 1 else 0) := by
  simp only [countP_eq_sum_indicator]
  exact alone.sum_map_updateWhere (fun row => if counted row then 1 else 0)
    member chosen

/-- A count whose rows fall into two disjoint kinds is the sum of the two. -/
theorem countP_eq_add_of_split {whole left right : Row → Bool}
    (split : ∀ row ∈ rows, (if whole row then 1 else 0) =
      (if left row then 1 else 0) + if right row then 1 else 0) :
    rows.countP whole = rows.countP left + rows.countP right := by
  induction rows with
  | nil => rfl
  | cons head tail induction =>
      have headSplit := split head mem_cons_self
      have tailSplit :=
        induction fun row member => split row (mem_cons_of_mem head member)
      rw [countP_cons, countP_cons, countP_cons, tailSplit]
      omega

/-- A count is the sum of the counts in the fibers of a key. -/
theorem countP_eq_sum_fibers {Key : Type*} [DecidableEq Key] (key : Row → Key)
    (counted : Row → Bool) {keys : List Key} (distinct : keys.Nodup)
    (covered : ∀ row ∈ rows, key row ∈ keys) :
    rows.countP counted =
      (keys.map fun value => rows.countP fun row =>
        decide (key row = value) && counted row).sum := by
  induction rows with
  | nil => simp
  | cons head tail induction =>
      have tailFibers :=
        induction fun row member => covered row (mem_cons_of_mem head member)
      have headOnce : (keys.map fun value =>
          if decide (key head = value) && counted head then 1 else 0).sum =
            if counted head then 1 else 0 := by
        rw [← countP_eq_sum_indicator]
        by_cases headCounted : counted head = true
        · have once := count_eq_one_of_mem distinct
            (covered head mem_cons_self)
          have same : (fun value => decide (key head = value) &&
              counted head) = fun value => value == key head := by
            funext value
            rw [headCounted, Bool.and_true, Bool.eq_iff_iff,
              decide_eq_true_eq, beq_iff_eq]
            exact eq_comm
          rw [same, if_pos headCounted]
          exact once
        · simp [headCounted]
      simp only [countP_cons]
      rw [sum_map_add, ← tailFibers, headOnce]

theorem Alone.countP_eq_one {row : Row} (alone : Alone selected rows)
    (member : row ∈ rows) (chosen : selected row = true) :
    rows.countP selected = 1 := by
  induction rows with
  | nil => simp at member
  | cons head tail ih =>
      have headApart := (pairwise_cons.mp alone).1
      rcases mem_cons.mp member with rfl | inTail
      · have noneLeft : tail.countP selected = 0 := by
          rw [countP_eq_zero]
          intro other otherMember otherChosen
          exact headApart other otherMember ⟨chosen, otherChosen⟩
        simp [chosen, noneLeft]
      · have headOther : selected head = false := by
          by_contra headChosen
          exact headApart row inTail ⟨by simpa using headChosen, chosen⟩
        rw [countP_cons_of_neg (by simp [headOther])]
        exact ih (pairwise_cons.mp alone).2 inTail

theorem Alone.filter_eq_singleton {row : Row} (alone : Alone selected rows)
    (member : row ∈ rows) (chosen : selected row = true) :
    rows.filter selected = [row] := by
  have single : (rows.filter selected).length = 1 := by
    rw [← countP_eq_length_filter]
    exact alone.countP_eq_one member chosen
  obtain ⟨only, filtered⟩ := length_eq_one_iff.mp single
  have inFilter : row ∈ rows.filter selected :=
    mem_filter.mpr ⟨member, chosen⟩
  rw [filtered, mem_singleton] at inFilter
  rw [filtered, inFilter]

section Ordering

variable {before : Row → Row → Bool}

theorem first_mem {row : Row} (found : rows.first before = some row) :
    row ∈ rows := by
  induction rows generalizing row with
  | nil => simp [first] at found
  | cons head tail ih =>
      simp only [first] at found
      cases rest : tail.first before with
      | none =>
          simp only [rest, Option.some.injEq] at found
          simp [found]
      | some other =>
          simp only [rest] at found
          by_cases earlier : before other head = true
          · simp only [earlier, if_true, Option.some.injEq] at found
            exact mem_cons_of_mem head (ih (found ▸ rest))
          · simp only [earlier, Bool.false_eq_true, if_false,
              Option.some.injEq] at found
            simp [found]

/-- Only an empty selection has no first row. -/
theorem first_eq_none_iff : rows.first before = none ↔ rows = [] := by
  cases rows with
  | nil => simp [first]
  | cons head tail =>
      simp only [first, reduceCtorEq, iff_false]
      cases tail.first before with
      | none => simp
      | some other => by_cases earlier : before other head = true <;> simp [earlier]

/-- The first row has the least key when rows are ordered by it. -/
theorem first_le {Key : Type v} [LinearOrder Key] (key : Row → Key)
    (ordered : ∀ one other, before one other = true ↔ key one < key other)
    {row other : Row} (found : rows.first before = some row)
    (member : other ∈ rows) : key row ≤ key other := by
  induction rows generalizing row with
  | nil => simp at member
  | cons head tail ih =>
      simp only [first] at found
      cases rest : tail.first before with
      | none =>
          simp only [rest, Option.some.injEq] at found
          rw [first_eq_none_iff.mp rest, mem_singleton] at member
          rw [member, found]
      | some least =>
          simp only [rest] at found
          by_cases earlier : before least head = true
          · simp only [earlier, if_true, Option.some.injEq] at found
            subst found
            cases member with
            | head => exact le_of_lt ((ordered _ _).mp earlier)
            | tail _ later => exact ih rest later
          · simp only [earlier, Bool.false_eq_true, if_false,
              Option.some.injEq] at found
            subst found
            have ahead : key head ≤ key least :=
              not_lt.mp fun less => earlier ((ordered _ _).mpr less)
            cases member with
            | head => exact le_refl _
            | tail _ later => exact ahead.trans (ih rest later)

end Ordering

end List

/-- A list of rows that satisfies its schema. -/
structure Table {Row : Type u} (schema : Schema.{u, v} Row) where
  rows : List Row
  unique : rows.Pairwise fun first second =>
    schema.clash (schema.key first) (schema.key second) = false
  checked : ∀ row ∈ rows, schema.check row = true

namespace Table

variable {Row : Type u} {schema : Schema.{u, v} Row}

theorem ext_rows {first second : Table schema}
    (equal : first.rows = second.rows) : first = second := by
  cases first
  cases second
  simp only [mk.injEq]
  exact equal

/-- The table without rows. -/
def empty : Table schema where
  rows := []
  unique := List.Pairwise.nil
  checked := by simp

/-- `INSERT` one row; `none` when it clashes with a stored row or fails the
check clause. -/
def insert (table : Table schema) (row : Row) : Option (Table schema) :=
  if allowed : (∀ old ∈ table.rows,
      schema.clash (schema.key old) (schema.key row) = false) ∧
      schema.check row = true then
    some
      { rows := table.rows ++ [row]
        unique := by
          rw [List.pairwise_append]
          refine ⟨table.unique, List.pairwise_singleton _ _, ?_⟩
          intro old oldMember added addedMember
          rw [List.mem_singleton.mp addedMember]
          exact allowed.1 old oldMember
        checked := by
          intro stored member
          rcases List.mem_append.mp member with old | added
          · exact table.checked stored old
          · rw [List.mem_singleton.mp added]
            exact allowed.2 }
  else
    none

/-- `UPDATE ... WHERE` on columns outside the unique sets; `none` when a
rewritten row fails the check clause. -/
def update (table : Table schema) (selected : Row → Bool)
    (change : Row → Row)
    (keepsKey : ∀ row, schema.key (change row) = schema.key row) :
    Option (Table schema) :=
  if allowed : ∀ row ∈ table.rows, selected row = true →
      schema.check (change row) = true then
    some
      { rows := table.rows.updateWhere selected change
        unique := by
          have keysEqual : (table.rows.updateWhere selected change).map
              schema.key = table.rows.map schema.key :=
            List.map_updateWhere_of_keeps schema.key
              fun row _ _ => keepsKey row
          have keyed : (table.rows.map schema.key).Pairwise
              fun first second => schema.clash first second = false :=
            List.pairwise_map.mpr table.unique
          rw [← keysEqual] at keyed
          exact List.pairwise_map.mp keyed
        checked := by
          intro stored member
          obtain ⟨old, oldMember, rfl⟩ := List.mem_updateWhere.mp member
          by_cases chosen : selected old = true
          · rw [if_pos chosen]
            exact allowed old oldMember chosen
          · rw [if_neg chosen]
            exact table.checked old oldMember }
  else
    none

theorem insert_eq_some_iff {table next : Table schema} {row : Row} :
    table.insert row = some next ↔
      next.rows = table.rows ++ [row] ∧
        (∀ old ∈ table.rows,
          schema.clash (schema.key old) (schema.key row) = false) ∧
        schema.check row = true := by
  unfold insert
  split
  next allowed =>
    constructor
    · intro inserted
      rw [← Option.some.inj inserted]
      exact ⟨rfl, allowed⟩
    · rintro ⟨rowsEqual, _⟩
      exact congrArg some (ext_rows rowsEqual.symm)
  next refused =>
    simp only [reduceCtorEq, false_iff]
    rintro ⟨_, allowed⟩
    exact refused allowed

theorem update_eq_some_iff {table next : Table schema}
    {selected : Row → Bool} {change : Row → Row}
    {keepsKey : ∀ row, schema.key (change row) = schema.key row} :
    table.update selected change keepsKey = some next ↔
      next.rows = table.rows.updateWhere selected change ∧
        ∀ row ∈ table.rows, selected row = true →
          schema.check (change row) = true := by
  unfold update
  split
  next allowed =>
    constructor
    · intro updated
      rw [← Option.some.inj updated]
      exact ⟨rfl, allowed⟩
    · rintro ⟨rowsEqual, _⟩
      exact congrArg some (ext_rows rowsEqual.symm)
  next refused =>
    simp only [reduceCtorEq, false_iff]
    rintro ⟨_, allowed⟩
    exact refused allowed

theorem exists_insert {table : Table schema} {row : Row}
    (fresh : ∀ old ∈ table.rows,
      schema.clash (schema.key old) (schema.key row) = false)
    (checked : schema.check row = true) :
    ∃ next, table.insert row = some next := by
  unfold insert
  rw [dif_pos ⟨fresh, checked⟩]
  exact ⟨_, rfl⟩

theorem exists_update {table : Table schema} {selected : Row → Bool}
    {change : Row → Row}
    {keepsKey : ∀ row, schema.key (change row) = schema.key row}
    (checked : ∀ row ∈ table.rows, selected row = true →
      schema.check (change row) = true) :
    ∃ next, table.update selected change keepsKey = some next := by
  unfold update
  rw [dif_pos checked]
  exact ⟨_, rfl⟩

/-- An update that selects no row changes nothing. -/
theorem eq_of_update_none {table next : Table schema}
    {selected : Row → Bool} {change : Row → Row}
    {keepsKey : ∀ row, schema.key (change row) = schema.key row}
    (updated : table.update selected change keepsKey = some next)
    (missed : table.rows.find? selected = none) : next = table := by
  apply ext_rows
  rw [(update_eq_some_iff.mp updated).1]
  apply List.updateWhere_eq_self
  intro row member
  simpa using List.find?_eq_none.mp missed row member

/-- A selection whose rows all clash picks at most one row. -/
theorem alone (table : Table schema) {selected : Row → Bool}
    (clashing : ∀ first second, selected first = true →
      selected second = true →
        schema.clash (schema.key first) (schema.key second) = true) :
    List.Alone selected table.rows := by
  refine table.unique.imp ?_
  intro first second apart both
  rw [clashing first second both.1 both.2] at apart
  exact absurd apart (by decide)

/-- Two stored rows with one key are one row. -/
theorem eq_of_key_eq (table : Table schema) {first second : Row}
    (firstMember : first ∈ table.rows) (secondMember : second ∈ table.rows)
    (sameKey : schema.key first = schema.key second) : first = second := by
  have distinct : table.rows.Pairwise fun one other =>
      schema.key one ≠ schema.key other := by
    refine table.unique.imp ?_
    intro one other apart equal
    rw [equal, schema.clash_self] at apart
    exact absurd apart (by decide)
  have : Std.Symm fun one other : Row =>
      schema.key one ≠ schema.key other :=
    ⟨fun _ _ different equal => different equal.symm⟩
  by_contra different
  exact distinct.forall firstMember secondMember different sameKey

/-- No row is stored twice. -/
theorem nodup (table : Table schema) : table.rows.Nodup := by
  refine table.unique.imp ?_
  intro first second apart equal
  rw [equal, schema.clash_self] at apart
  exact absurd apart (by decide)

/-- `after` is `before` with one more row. -/
structure Inserted (before after : Table schema) (row : Row) : Prop where
  rows : after.rows = before.rows ++ [row]
  fresh : ∀ old ∈ before.rows,
    schema.clash (schema.key old) (schema.key row) = false

theorem inserted_of_insert {before after : Table schema} {row : Row}
    (inserted : before.insert row = some after) :
    Inserted before after row := by
  obtain ⟨rowsEqual, fresh, _⟩ := insert_eq_some_iff.mp inserted
  exact ⟨rowsEqual, fresh⟩

theorem Inserted.mem_iff {before after : Table schema} {row stored : Row}
    (inserted : Inserted before after row) :
    stored ∈ after.rows ↔ stored ∈ before.rows ∨ stored = row := by
  rw [inserted.rows, List.mem_append, List.mem_singleton]

theorem Inserted.old_mem {before after : Table schema} {row stored : Row}
    (inserted : Inserted before after row) (member : stored ∈ before.rows) :
    stored ∈ after.rows :=
  inserted.mem_iff.mpr (Or.inl member)

theorem Inserted.new_mem {before after : Table schema} {row : Row}
    (inserted : Inserted before after row) : row ∈ after.rows :=
  inserted.mem_iff.mpr (Or.inr rfl)

section Replacement

variable [DecidableEq Row]

/-- `after` is `before` with the row `old` rewritten to `new`. -/
structure Replaced (before after : Table schema) (old new : Row) : Prop where
  member : old ∈ before.rows
  sameKey : schema.key new = schema.key old
  rows : after.rows =
    before.rows.updateWhere (fun row => decide (row = old)) fun _ => new

theorem alone_eq (table : Table schema) (old : Row) :
    List.Alone (fun row => decide (row = old)) table.rows := by
  apply table.alone
  intro first second firstChosen secondChosen
  rw [of_decide_eq_true firstChosen, of_decide_eq_true secondChosen]
  exact schema.clash_self _

/-- An update by a selection that holds of one row replaces that row. -/
theorem replaced_of_update {before after : Table schema}
    {selected : Row → Bool} {change : Row → Row} {old : Row}
    {keepsKey : ∀ row, schema.key (change row) = schema.key row}
    (updated : before.update selected change keepsKey = some after)
    (alone : List.Alone selected before.rows) (member : old ∈ before.rows)
    (chosen : selected old = true) :
    Replaced before after old (change old) := by
  refine ⟨member, keepsKey old, ?_⟩
  rw [(update_eq_some_iff.mp updated).1]
  apply List.map_congr_left
  intro row rowMember
  by_cases equal : row = old
  · simp [equal, chosen]
  · have notChosen : selected row = false := by
      by_contra rowChosen
      exact equal (alone.eq rowMember member (by simpa using rowChosen) chosen)
    simp [equal, notChosen]

namespace Replaced

variable {before after last : Table schema} {old new newer stored : Row}

theorem mem_iff (replaced : Replaced before after old new) :
    stored ∈ after.rows ↔
      stored = new ∨ (stored ∈ before.rows ∧ stored ≠ old) := by
  rw [replaced.rows, List.mem_updateWhere]
  constructor
  · rintro ⟨row, rowMember, rfl⟩
    by_cases equal : row = old
    · simp [equal]
    · right
      simp [equal, rowMember]
  · rintro (rfl | ⟨storedMember, different⟩)
    · exact ⟨old, replaced.member, by simp⟩
    · exact ⟨stored, storedMember, by simp [different]⟩

theorem new_mem (replaced : Replaced before after old new) :
    new ∈ after.rows :=
  replaced.mem_iff.mpr (Or.inl rfl)

/-- Every row of the new table comes from a row with the same key. -/
theorem origin (replaced : Replaced before after old new)
    (member : stored ∈ after.rows) :
    ∃ source ∈ before.rows, schema.key stored = schema.key source ∧
      stored = if source = old then new else source := by
  rw [replaced.rows, List.mem_updateWhere] at member
  obtain ⟨source, sourceMember, rfl⟩ := member
  refine ⟨source, sourceMember, ?_, by simp⟩
  by_cases equal : source = old
  · simp [equal, replaced.sameKey]
  · simp [equal]

/-- Every row of the old table has a successor with the same key. -/
theorem successor (replaced : Replaced before after old new)
    (member : stored ∈ before.rows) :
    (if stored = old then new else stored) ∈ after.rows := by
  rw [replaced.rows, List.mem_updateWhere]
  exact ⟨stored, member, by simp⟩

/-- A reflexive relation that the rewrite respects relates every old row to its
successor. -/
theorem exists_successor (replaced : Replaced before after old new)
    (related : Row → Row → Prop)
    (reflexive : ∀ row, related row row) (moved : related old new)
    (member : stored ∈ before.rows) :
    ∃ next ∈ after.rows, related stored next := by
  refine ⟨_, replaced.successor member, ?_⟩
  by_cases equal : stored = old
  · rw [if_pos equal, equal]
    exact moved
  · rw [if_neg equal]
    exact reflexive stored

/-- A reflexive relation that the rewrite respects relates every new row to its
source. -/
theorem exists_origin (replaced : Replaced before after old new)
    (related : Row → Row → Prop)
    (reflexive : ∀ row, related row row) (moved : related old new)
    (member : stored ∈ after.rows) :
    ∃ source ∈ before.rows, related source stored := by
  obtain ⟨source, sourceMember, _, rfl⟩ := replaced.origin member
  refine ⟨source, sourceMember, ?_⟩
  by_cases equal : source = old
  · rw [if_pos equal, equal]
    exact moved
  · rw [if_neg equal]
    exact reflexive source

theorem map_eq {Value : Type*} (project : Row → Value)
    (replaced : Replaced before after old new)
    (keeps : project new = project old) :
    after.rows.map project = before.rows.map project := by
  rw [replaced.rows]
  apply List.map_updateWhere_of_keeps
  intro row _ chosen
  rw [of_decide_eq_true chosen, keeps]

theorem countP_add (replaced : Replaced before after old new)
    (counted : Row → Bool) :
    after.rows.countP counted + (if counted old then 1 else 0) =
      before.rows.countP counted + (if counted new then 1 else 0) := by
  rw [replaced.rows]
  exact (before.alone_eq old).countP_updateWhere counted replaced.member
    (by simp)

theorem countP_eq (replaced : Replaced before after old new)
    (counted : Row → Bool) (keeps : counted new = counted old) :
    after.rows.countP counted = before.rows.countP counted := by
  have moved := replaced.countP_add counted
  rw [keeps] at moved
  exact Nat.add_right_cancel moved

theorem sum_add {Weight : Type*} [AddCommMonoid Weight]
    (replaced : Replaced before after old new) (weight : Row → Weight) :
    (after.rows.map weight).sum + weight old =
      (before.rows.map weight).sum + weight new := by
  rw [replaced.rows]
  exact (before.alone_eq old).sum_map_updateWhere weight replaced.member
    (by simp)

theorem trans (first : Replaced before after old new)
    (second : Replaced after last new newer) :
    Replaced before last old newer := by
  refine ⟨first.member, second.sameKey.trans first.sameKey, ?_⟩
  rw [second.rows, first.rows]
  simp only [List.updateWhere, List.map_map]
  apply List.map_congr_left
  intro row rowMember
  by_cases equal : row = old
  · simp [equal]
  · have apart : row ≠ new := by
      intro collides
      apply equal
      apply before.eq_of_key_eq rowMember first.member
      rw [collides, first.sameKey]
    simp [equal, apart]

/-- Rewriting the row just inserted inserts the rewritten row. -/
theorem of_inserted (inserted : Inserted before after old)
    (replaced : Replaced after last old new) : Inserted before last new := by
  have absent : ∀ row ∈ before.rows, row ≠ old := by
    intro row rowMember equal
    have apart := inserted.fresh row rowMember
    rw [equal, schema.clash_self] at apart
    exact absurd apart (by decide)
  constructor
  · rw [replaced.rows, inserted.rows, List.updateWhere, List.map_append]
    congr 1
    · have fixed : ∀ row ∈ before.rows,
          (if decide (row = old) = true then new else row) = row := by
        intro row rowMember
        simp [absent row rowMember]
      simpa only [List.map_id'] using List.map_congr_left fixed
    · simp
  · intro row rowMember
    rw [replaced.sameKey]
    exact inserted.fresh row rowMember

end Replaced

end Replacement

end Table
