import Mathlib.Logic.Basic

/-!
# Inverting fallible computations

A fallible operation is a chain of guards, lookups and statements in the
`Except` monad.  The lemmas here take a successful chain apart one
bind at a time, so that later proofs never unfold the monad.
-/

namespace Except

universe u v

variable {ε : Type u} {α β : Type v}

/-- Stop with `failure` unless the condition holds. -/
def require (condition : Prop) [Decidable condition] (failure : ε) :
    Except ε Unit :=
  if condition then .ok () else .error failure

/-- The value of a lookup, or `failure` when there is none. -/
def fetch (found : Option α) (failure : ε) : Except ε α :=
  match found with
  | some value => .ok value
  | none => .error failure

@[simp]
theorem bind_eq_ok_iff {first : Except ε α} {next : α → Except ε β}
    {result : β} :
    (first >>= next) = .ok result ↔
      ∃ value, first = .ok value ∧ next value = .ok result := by
  cases first with
  | error failure => simp [bind, Except.bind]
  | ok value => simp [bind, Except.bind]

theorem ok_bind_eq (value : α) (next : α → Except ε β) :
    ((.ok value : Except ε α) >>= next) = next value :=
  rfl

@[simp]
theorem require_eq_ok_iff {condition : Prop} [Decidable condition]
    {failure : ε} {done : Unit} :
    require condition failure = .ok done ↔ condition := by
  by_cases holds : condition <;> simp [require, holds]

theorem require_of {condition : Prop} [Decidable condition] {failure : ε}
    (holds : condition) : require condition failure = .ok () := by
  simp [require, holds]

/-- A check in front of the rest. -/
theorem require_bind_eq_ok_iff {γ : Type} {condition : Prop}
    [Decidable condition] {failure : ε} {next : Unit → Except ε γ}
    {result : γ} :
    (require condition failure >>= next) = .ok result ↔
      condition ∧ next () = .ok result := by
  rw [bind_eq_ok_iff]
  simp only [require_eq_ok_iff]
  exact ⟨fun ⟨_, holds, done⟩ => ⟨holds, done⟩,
    fun ⟨holds, done⟩ => ⟨(), holds, done⟩⟩

theorem require_bind_of_not {γ : Type} {condition : Prop}
    [Decidable condition] {failure : ε} (fails : ¬ condition)
    (next : Unit → Except ε γ) :
    (require condition failure >>= next) = .error failure := by
  rw [require, if_neg fails]
  rfl

@[simp]
theorem fetch_eq_ok_iff {found : Option α} {failure : ε} {value : α} :
    fetch found failure = .ok value ↔ found = some value := by
  cases found <;> simp [fetch]

@[simp]
theorem fetch_some (value : α) (failure : ε) :
    fetch (some value) failure = .ok value :=
  rfl

@[simp]
theorem pure_eq_ok_iff {value result : α} :
    (pure value : Except ε α) = .ok result ↔ value = result :=
  ⟨fun equal => Except.ok.inj equal, congrArg _⟩

@[simp]
theorem map_eq_ok_iff {first : Except ε α} {image : α → β} {result : β} :
    first.map image = .ok result ↔
      ∃ value, first = .ok value ∧ image value = result := by
  cases first <;> simp [Except.map]

@[simp]
theorem map_eq_error_iff {first : Except ε α} {image : α → β} {failure : ε} :
    first.map image = .error failure ↔ first = .error failure := by
  cases first <;> simp [Except.map]

theorem mapError_ok {ε' : Type*} (image : ε → ε') (value : α) :
    (Except.ok value : Except ε α).mapError image = .ok value :=
  rfl

theorem mapError_error {ε' : Type*} (image : ε → ε') (reason : ε) :
    (Except.error reason : Except ε α).mapError image = .error (image reason) :=
  rfl

@[simp]
theorem mapError_eq_ok_iff {ε' : Type*} {first : Except ε α}
    {image : ε → ε'} {result : α} :
    first.mapError image = .ok result ↔ first = .ok result := by
  cases first with
  | error reason => simp [mapError_error]
  | ok value => simp [mapError_ok]

/-- The computation does not stop with this failure. -/
def Avoids (computed : Except ε α) (failure : ε) : Prop :=
  computed ≠ .error failure

@[simp]
theorem avoids_bind_iff {first : Except ε α} {next : α → Except ε β}
    {failure : ε} :
    (first >>= next).Avoids failure ↔
      first.Avoids failure ∧
        ∀ value, first = .ok value → (next value).Avoids failure := by
  cases first with
  | error reason => simp [Avoids, bind, Except.bind]
  | ok value => simp [Avoids, bind, Except.bind]

@[simp]
theorem avoids_require_iff {condition : Prop} [Decidable condition]
    {reason failure : ε} :
    (require condition reason).Avoids failure ↔
      condition ∨ reason ≠ failure := by
  by_cases holds : condition <;> simp [Avoids, require, holds]

@[simp]
theorem avoids_fetch_iff {found : Option α} {reason failure : ε} :
    (fetch found reason).Avoids failure ↔
      found ≠ none ∨ reason ≠ failure := by
  cases found <;> simp [Avoids, fetch]

@[simp]
theorem avoids_ok (value : α) (failure : ε) :
    (.ok value : Except ε α).Avoids failure := by
  simp [Avoids]

@[simp]
theorem avoids_pure (value : α) (failure : ε) :
    (pure value : Except ε α).Avoids failure :=
  avoids_ok value failure

@[simp]
theorem avoids_map_iff {first : Except ε α} {image : α → β} {failure : ε} :
    (first.map image).Avoids failure ↔ first.Avoids failure := by
  cases first <;> simp [Avoids, Except.map]

@[simp]
theorem avoids_functor_map_iff {first : Except ε α} {image : α → β}
    {failure : ε} :
    (image <$> first).Avoids failure ↔ first.Avoids failure :=
  avoids_map_iff

theorem avoids_mapError {ε' : Type*} {first : Except ε α} {image : ε → ε'}
    {failure : ε'} (different : ∀ reason, image reason ≠ failure) :
    (first.mapError image).Avoids failure := by
  cases first with
  | error reason => simpa [Avoids, mapError_error] using different reason
  | ok value => simp [Avoids, mapError_ok]

theorem avoids_mapM {step : α → Except ε β} {failure : ε} {values : List α}
    (each : ∀ value ∈ values, (step value).Avoids failure) :
    (values.mapM step).Avoids failure := by
  induction values with
  | nil => simp
  | cons head rest ih =>
      have later := ih fun value member =>
        each value (List.mem_cons_of_mem head member)
      simp [each head List.mem_cons_self, later]

/-- The computation stops, if at all, with a failure of this kind. -/
def FailsWith (computed : Except ε α) (kind : ε → Prop) : Prop :=
  ∀ failure, computed = .error failure → kind failure

@[simp]
theorem failsWith_ok (value : α) (kind : ε → Prop) :
    (.ok value : Except ε α).FailsWith kind := by
  simp [FailsWith]

@[simp]
theorem failsWith_pure (value : α) (kind : ε → Prop) :
    (pure value : Except ε α).FailsWith kind :=
  failsWith_ok value kind

@[simp]
theorem failsWith_bind_iff {first : Except ε α} {next : α → Except ε β}
    {kind : ε → Prop} :
    (first >>= next).FailsWith kind ↔
      first.FailsWith kind ∧
        ∀ value, first = .ok value → (next value).FailsWith kind := by
  cases first with
  | error reason => simp [FailsWith, bind, Except.bind]
  | ok value => simp [FailsWith, bind, Except.bind]

@[simp]
theorem failsWith_require_iff {condition : Prop} [Decidable condition]
    {reason : ε} {kind : ε → Prop} :
    (require condition reason).FailsWith kind ↔ condition ∨ kind reason := by
  by_cases holds : condition <;> simp [FailsWith, require, holds]

@[simp]
theorem failsWith_fetch_iff {found : Option α} {reason : ε}
    {kind : ε → Prop} :
    (fetch found reason).FailsWith kind ↔ found ≠ none ∨ kind reason := by
  cases found <;> simp [FailsWith, fetch]

@[simp]
theorem failsWith_map_iff {first : Except ε α} {image : α → β}
    {kind : ε → Prop} :
    (first.map image).FailsWith kind ↔ first.FailsWith kind := by
  cases first <;> simp [FailsWith, Except.map]

@[simp]
theorem failsWith_functor_map_iff {first : Except ε α} {image : α → β}
    {kind : ε → Prop} :
    (image <$> first).FailsWith kind ↔ first.FailsWith kind :=
  failsWith_map_iff

theorem failsWith_mapError {ε' : Type*} {first : Except ε α} {image : ε → ε'}
    {kind : ε' → Prop} (each : ∀ reason, kind (image reason)) :
    (first.mapError image).FailsWith kind := by
  cases first with
  | error reason => simpa [FailsWith, mapError_error] using each reason
  | ok value => simp [FailsWith, mapError_ok]

/-- A loop of checks. -/
theorem forM_eq_ok_iff {γ : Type*} {check : γ → Except ε Unit}
    {values : List γ} {done : Unit} :
    values.forM check = .ok done ↔
      ∀ value ∈ values, check value = .ok done := by
  induction values with
  | nil => simp
  | cons value rest ih =>
      change (check value >>= fun _ => rest.forM check) = _ ↔ _
      rw [bind_eq_ok_iff, ih, List.forall_mem_cons]
      exact ⟨fun ⟨_, first, later⟩ => ⟨first, later⟩,
        fun ⟨first, later⟩ => ⟨(), first, later⟩⟩

theorem eq_ok_of_toOption {computed : Except ε α} {value : α}
    (answered : computed.toOption = some value) : computed = .ok value := by
  cases computed with
  | error failure => simp [Except.toOption] at answered
  | ok result => rw [Option.some.inj answered]

theorem toOption_eq_some_iff {computed : Except ε α} {value : α} :
    computed.toOption = some value ↔ computed = .ok value :=
  ⟨eq_ok_of_toOption, by rintro rfl; rfl⟩

section Transactions

variable {σ : Type v}

/-- Go on with what a statement of a transaction gave.  When it failed, what
the transaction had written before stays. -/
def proceed (written : σ) (statement : Except ε α)
    (next : α → Except ε β × σ) : Except ε β × σ :=
  match statement with
  | .ok value => next value
  | .error failure => (.error failure, written)

@[simp]
theorem proceed_ok (written : σ) (value : α) (next : α → Except ε β × σ) :
    proceed written (.ok value) next = next value :=
  rfl

/-- The result of a transaction that is rolled back when it failed. -/
def settle : Except ε α × σ → Except ε (α × σ)
  | (.ok value, written) => .ok (value, written)
  | (.error failure, _) => .error failure

theorem settle_proceed (written : σ) (statement : Except ε α)
    (next : α → Except ε β × σ) :
    settle (proceed written statement next) =
      statement >>= fun value => settle (next value) := by
  cases statement <;> rfl

/-- A failure is that of the statement, with nothing written since, or comes
from what follows it. -/
theorem proceed_eq_error_iff {written left : σ} {statement : Except ε α}
    {next : α → Except ε β × σ} {failure : ε} :
    proceed written statement next = (.error failure, left) ↔
      (statement = .error failure ∧ written = left) ∨
        ∃ value, statement = .ok value ∧
          next value = (.error failure, left) := by
  cases statement <;> simp [proceed]

end Transactions

end Except
