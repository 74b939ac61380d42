import Mathlib.Data.List.Nodup
import Mathlib.Data.List.Perm.Basic
import Mathlib.Data.List.Range

/-!
# Tokens in custody

Tokens are numbered as they are issued.  Each issued token is held in one place
or was given back once.
-/

/-- The held tokens and those given back are the issued ones, each once. -/
structure Custody (issued : Nat) (held released : List Nat) : Prop where
  accounted : (held ++ released).Perm (List.range issued)

namespace Custody

variable {issued token : Nat} {held moved released : List Nat}

theorem start : Custody 0 [] [] :=
  ⟨List.Perm.refl _⟩

/-- Tokens that change places stay accounted for. -/
theorem move (custody : Custody issued held released)
    (same : ∀ token, moved.count token = held.count token) :
    Custody issued moved released :=
  ⟨((List.perm_iff_count.mpr same).append_right released).trans
    custody.accounted⟩

/-- The next token goes to a new holder. -/
theorem issue (custody : Custody issued held released)
    (added : ∀ token, moved.count token = (issued :: held).count token) :
    Custody (issued + 1) moved released := by
  constructor
  rw [List.range_succ]
  have grown := (List.perm_iff_count.mpr added).append_right released
  exact grown.trans ((custody.accounted.cons issued).trans
    (List.perm_append_singleton _ _).symm)

/-- A holder gives its token back. -/
theorem release (custody : Custody issued held released)
    (taken : ∀ other, held.count other = (token :: moved).count other) :
    Custody issued moved (token :: released) := by
  constructor
  have split := (List.perm_iff_count.mpr taken).append_right released
  exact List.perm_middle.trans (split.symm.trans custody.accounted)

theorem nodup (custody : Custody issued held released) :
    (held ++ released).Nodup :=
  custody.accounted.nodup_iff.mpr List.nodup_range

/-- No token is given back twice. -/
theorem nodup_released (custody : Custody issued held released) :
    released.Nodup :=
  (List.nodup_append.mp custody.nodup).2.1

/-- An issued token was given back unless it is held. -/
theorem mem_released_iff (custody : Custody issued held released)
    (known : token < issued) : token ∈ released ↔ token ∉ held := by
  have member : token ∈ held ++ released :=
    custody.accounted.mem_iff.mpr (List.mem_range.mpr known)
  constructor
  · intro back here
    exact (List.disjoint_of_nodup_append custody.nodup) here back
  · intro away
    exact (List.mem_append.mp member).resolve_left away

theorem length_add (custody : Custody issued held released) :
    held.length + released.length = issued := by
  rw [← List.length_append, custody.accounted.length_eq, List.length_range]

end Custody

/-- Changing one element of a list changes what is gathered from it by that
element's share. -/
theorem List.count_flatMap_set {α β : Type*} [DecidableEq β] (gather : α → List β)
    (value : β) {list : List α} {index : Nat} {old : α} (new : α)
    (found : list[index]? = some old) :
    ((list.set index new).flatMap gather).count value +
        (gather old).count value =
      (list.flatMap gather).count value + (gather new).count value := by
  induction list generalizing index with
  | nil => simp at found
  | cons head tail ih =>
      cases index with
      | zero =>
          obtain rfl : head = old := by simpa using found
          simp only [List.set_cons_zero, List.flatMap_cons, List.count_append]
          omega
      | succ index =>
          have later : tail[index]? = some old := by simpa using found
          have rest := ih later
          simp only [List.set_cons_succ, List.flatMap_cons, List.count_append]
          omega
