import EffectLatch.ExceptResults
import Mathlib.Data.List.Forall2
import Mathlib.Data.List.Induction
import Mathlib.Data.List.Nodup

/-!
# Folds that stop at the first refused value

A loop over values keeps a summary of those it has seen and refuses a value by
looking at the summary.  It ends well exactly when every value is admitted after
the ones before it.  What such a condition says of the whole list is stated
here for the usual guards: a shape, a bound on a number, a key not seen before.
-/

namespace EffectLatch

variable {α β σ ε : Type*} {guard other : List α → α → Prop}
  {values earlier : List α} {value : α}

/-- Every value is admitted after those before it. -/
inductive Guarded (guard : List α → α → Prop) : List α → Prop
  | nil : Guarded guard []
  | concat {earlier : List α} {value : α} (before : Guarded guard earlier)
      (admitted : guard earlier value) : Guarded guard (earlier ++ [value])

namespace Guarded

theorem concat_iff :
    Guarded guard (earlier ++ [value]) ↔
      Guarded guard earlier ∧ guard earlier value := by
  constructor
  · intro guarded
    generalize whole : earlier ++ [value] = values at guarded
    cases guarded with
    | nil => simp at whole
    | concat before admitted =>
        obtain ⟨rfl, same⟩ := List.append_inj' whole rfl
        obtain rfl := List.cons.inj same |>.1
        exact ⟨before, admitted⟩
  · rintro ⟨before, admitted⟩
    exact .concat before admitted

/-- A guard that holds of every list through one step. -/
theorem iff_of_concat (guard : List α → α → Prop) (Holds : List α → Prop)
    (none : Holds [])
    (step : ∀ earlier value,
      Holds (earlier ++ [value]) ↔ Holds earlier ∧ guard earlier value)
    (values : List α) : Guarded guard values ↔ Holds values := by
  induction values using List.reverseRecOn with
  | nil => exact iff_of_true .nil none
  | append_singleton earlier value ih => rw [concat_iff, step, ih]

theorem and_iff : Guarded (fun seen value => guard seen value ∧
    other seen value) values ↔ Guarded guard values ∧ Guarded other values := by
  refine iff_of_concat _
    (fun values => Guarded guard values ∧ Guarded other values)
    ⟨.nil, .nil⟩ ?_ values
  intro earlier value
  rw [concat_iff, concat_iff]
  exact and_and_and_comm

theorem forall_iff {shape : α → Prop} :
    Guarded (fun _ value => shape value) values ↔
      ∀ value ∈ values, shape value := by
  refine iff_of_concat _ (fun values => ∀ value ∈ values, shape value)
    (List.forall_mem_nil _) ?_ values
  intro earlier value
  rw [List.forall_mem_append, List.forall_mem_singleton]

/-- A number of values is bounded by refusing one more. -/
theorem bounded_iff {kind : α → Option β} {bound : Nat} :
    Guarded (fun seen value => (kind value).isSome = true →
      (seen.filterMap kind).length < bound) values ↔
      (values.filterMap kind).length ≤ bound := by
  refine iff_of_concat _
    (fun values => (values.filterMap kind).length ≤ bound)
    (Nat.zero_le bound) ?_ values
  intro earlier value
  rw [List.filterMap_append, List.length_append]
  cases kept : kind value with
  | none => simp [kept]
  | some key =>
      simp only [List.filterMap_cons_some kept, List.filterMap_nil,
        List.length_singleton, Option.isSome_some, true_imp_iff]
      omega

/-- Keys are distinct when every key is refused that was seen before. -/
theorem nodup_iff {key : α → Option β} :
    Guarded (fun seen value => ∀ found, key value = some found →
      found ∉ seen.filterMap key) values ↔
      (values.filterMap key).Nodup := by
  refine iff_of_concat _ (fun values => (values.filterMap key).Nodup)
    List.nodup_nil ?_ values
  intro earlier value
  rw [List.filterMap_append]
  cases found : key value with
  | none => simp [found]
  | some fresh =>
      simp only [List.filterMap_cons_some found, List.filterMap_nil,
        List.nodup_append, Option.some.injEq, forall_eq', List.mem_singleton,
        forall_eq]
      constructor
      · rintro ⟨before, _, apart⟩
        exact ⟨before, fun member => apart fresh member rfl⟩
      · rintro ⟨before, unseen⟩
        refine ⟨before, List.nodup_singleton fresh, ?_⟩
        rintro old member rfl
        exact unseen member

end Guarded

/-- A loop whose step admits a value and extends the summary. -/
theorem foldlM_eq_ok_iff {step : σ → α → Except ε σ} {summary : List α → σ}
    (stepped : ∀ {seen value final},
      Guarded guard seen →
      (step (summary seen) value = .ok final ↔
        guard seen value ∧ final = summary (seen ++ [value])))
    (values : List α) {final : σ} :
    values.foldlM step (summary []) = .ok final ↔
      Guarded guard values ∧ final = summary values := by
  induction values using List.reverseRecOn generalizing final with
  | nil =>
      rw [List.foldlM_nil, Except.pure_eq_ok_iff]
      exact ⟨fun same => ⟨.nil, same.symm⟩, fun ended => ended.2.symm⟩
  | append_singleton earlier value ih =>
      rw [List.foldlM_append, Except.bind_eq_ok_iff, Guarded.concat_iff]
      constructor
      · rintro ⟨middle, before, last⟩
        obtain ⟨guarded, rfl⟩ := ih.mp before
        rw [List.foldlM_cons, Except.bind_eq_ok_iff] at last
        obtain ⟨ended, done, same⟩ := last
        obtain ⟨admitted, rfl⟩ := (stepped guarded).mp done
        rw [List.foldlM_nil, Except.pure_eq_ok_iff] at same
        exact ⟨⟨guarded, admitted⟩, same.symm⟩
      · rintro ⟨⟨guarded, admitted⟩, rfl⟩
        refine ⟨summary earlier, ih.mpr ⟨guarded, rfl⟩, ?_⟩
        rw [List.foldlM_cons, Except.bind_eq_ok_iff]
        exact ⟨_, (stepped guarded).mpr ⟨admitted, rfl⟩, rfl⟩

/-- A loop that converts every value gives the conversions in order. -/
theorem mapM_eq_ok_iff {convert : α → Except ε β} {results : List β} :
    values.mapM convert = .ok results ↔
      List.Forall₂ (fun value result => convert value = .ok result) values
        results := by
  induction values generalizing results with
  | nil =>
      rw [List.mapM_nil, Except.pure_eq_ok_iff, List.forall₂_nil_left_iff]
      exact eq_comm
  | cons value rest ih =>
      rw [List.mapM_cons, Except.bind_eq_ok_iff, List.forall₂_cons_left_iff]
      simp only [Except.bind_eq_ok_iff, Except.pure_eq_ok_iff, ih]
      constructor
      · rintro ⟨result, converted, later, others, rfl⟩
        exact ⟨result, later, converted, others, rfl⟩
      · rintro ⟨result, later, converted, others, rfl⟩
        exact ⟨result, converted, later, others, rfl⟩

end EffectLatch
