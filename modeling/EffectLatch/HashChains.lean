import Mathlib.Data.List.Induction

/-!
# Hash chains

Each entry of a chain is hashed with its number and the digest before it.  When
the links that occur are told apart by their digests, the last digest alone
determines who wrote the chain and every entry of it.
-/

universe u v w

namespace HashChain

variable {Identity : Type u} {Entry : Type v} {Digest : Type w}

/-- The digest at the end of a chain that continues from `previous`. -/
def head (link : Nat → Digest → Entry → Digest) :
    Nat → Digest → List Entry → Digest
  | _, previous, [] => previous
  | number, previous, entry :: rest =>
      head link (number + 1) (link number previous entry) rest

/-- Every link of the chain is one of those that occur. -/
def Links (link : Nat → Digest → Entry → Digest)
    (occurs : Nat → Digest → Entry → Prop) :
    Nat → Digest → List Entry → Prop
  | _, _, [] => True
  | number, previous, entry :: rest =>
      occurs number previous entry ∧
        Links link occurs (number + 1) (link number previous entry) rest

variable {link : Nat → Digest → Entry → Digest}
  {occurs : Nat → Digest → Entry → Prop} {number : Nat} {previous : Digest}
  {entries : List Entry} {last : Entry}

theorem head_concat :
    head link number previous (entries ++ [last]) =
      link (number + entries.length) (head link number previous entries)
        last := by
  induction entries generalizing number previous with
  | nil => rfl
  | cons entry rest induction =>
      have count : number + 1 + rest.length =
          number + (entry :: rest).length := by
        rw [List.length_cons]
        omega
      rw [List.cons_append, head, induction, count, head]

theorem links_concat :
    Links link occurs number previous (entries ++ [last]) ↔
      Links link occurs number previous entries ∧
        occurs (number + entries.length) (head link number previous entries)
          last := by
  induction entries generalizing number previous with
  | nil => simp [Links, head]
  | cons entry rest induction =>
      have count : number + 1 + rest.length =
          number + (entry :: rest).length := by
        rw [List.length_cons]
        omega
      simp only [List.cons_append, Links, head]
      rw [induction, count, and_assoc]

/-- Two non-empty chains from one origin with the same last digest have the
same writer and the same entries. -/
theorem binding {link : Identity → Nat → Digest → Entry → Digest}
    {occurs : Identity → Nat → Digest → Entry → Prop}
    (injective : ∀ first second number other previous before entry later,
      occurs first number previous entry → occurs second other before later →
      link first number previous entry = link second other before later →
      first = second ∧ number = other ∧ previous = before ∧ entry = later)
    {first second : Identity} {start : Nat} {origin : Digest}
    {entries others : List Entry} (nonempty : entries ≠ [])
    (othersNonempty : others ≠ [])
    (linked : Links (link first) (occurs first) start origin entries)
    (othersLinked : Links (link second) (occurs second) start origin others)
    (same : head (link first) start origin entries =
      head (link second) start origin others) :
    first = second ∧ entries = others := by
  induction entries using List.reverseRecOn generalizing others with
  | nil => exact absurd rfl nonempty
  | append_singleton front last induction =>
      rcases List.eq_nil_or_concat others with rfl | ⟨before, final, rfl⟩
      · exact absurd rfl othersNonempty
      rw [List.concat_eq_append] at othersLinked same ⊢
      obtain ⟨frontLinked, lastOccurs⟩ := links_concat.mp linked
      obtain ⟨beforeLinked, finalOccurs⟩ := links_concat.mp othersLinked
      rw [head_concat, head_concat] at same
      obtain ⟨sameWriter, sameNumber, sameHead, sameEntry⟩ :=
        injective _ _ _ _ _ _ _ _ lastOccurs finalOccurs same
      have sameLength : front.length = before.length := by omega
      refine ⟨sameWriter, ?_⟩
      rw [sameEntry]
      by_cases empty : front = []
      · subst empty
        rw [List.length_nil, eq_comm, List.length_eq_zero_iff] at sameLength
        rw [sameLength]
      · have beforeNonempty : before ≠ [] := by
          intro none
          apply empty
          rw [← List.length_eq_zero_iff, sameLength, none, List.length_nil]
        rw [(induction empty beforeNonempty frontLinked beforeLinked
          sameHead).2]

end HashChain
