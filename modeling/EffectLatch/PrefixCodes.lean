import Mathlib.Data.List.Basic

/-!
# Codes that can be cut off the front

An encoding is self-delimiting when the text that follows it is determined by
the whole: whoever reads it knows where it ends.  Self-delimiting parts may be
put one behind the other, counted and tagged, and what they encode can still be
told from the bytes.
-/

universe u v w x

/-- In every text, the encoding of a valid value can be cut off the front, and
it determines what is seen of the value. -/
def SelfDelimiting {α : Type u} {β : Type v} {γ : Type w} (valid : α → Prop)
    (encode : α → List β) (view : α → γ) : Prop :=
  ∀ ⦃first second : α⦄, valid first → valid second →
    ∀ rest other, encode first ++ rest = encode second ++ other →
      view first = view second ∧ rest = other

namespace SelfDelimiting

variable {α : Type u} {β : Type v} {γ : Type w} {δ : Type x}
  {valid : α → Prop} {encode later : α → List β} {view : α → γ} {seen : α → δ}

/-- A self-delimiting encoding is injective up to what is seen. -/
theorem inj (code : SelfDelimiting valid encode view) {first second : α}
    (firstValid : valid first) (secondValid : valid second)
    (same : encode first = encode second) : view first = view second :=
  (code firstValid secondValid [] [] (by rw [same])).1

/-- Fields of a fixed width. -/
theorem fixed (width : Nat)
    (sized : ∀ value, valid value → (encode value).length = width)
    (told : ∀ first second, valid first → valid second →
      encode first = encode second → view first = view second) :
    SelfDelimiting valid encode view := by
  intro first second firstValid secondValid rest other same
  obtain ⟨heads, tails⟩ := List.append_inj same
    ((sized first firstValid).trans (sized second secondValid).symm)
  exact ⟨told first second firstValid secondValid heads, tails⟩

/-- A constant text tells nothing. -/
theorem constant (valid : α → Prop) (text : List β) :
    SelfDelimiting valid (fun _ => text) (fun _ => ()) :=
  fixed text.length (fun _ _ => rfl) (fun _ _ _ _ _ => rfl)

/-- One field behind the other. -/
theorem append (code : SelfDelimiting valid encode view)
    (next : SelfDelimiting valid later seen) :
    SelfDelimiting valid (fun value => encode value ++ later value)
      (fun value => (view value, seen value)) := by
  intro first second firstValid secondValid rest other same
  rw [List.append_assoc, List.append_assoc] at same
  obtain ⟨views, remaining⟩ := code firstValid secondValid _ _ same
  obtain ⟨seens, tails⟩ := next firstValid secondValid _ _ remaining
  exact ⟨Prod.ext views seens, tails⟩

/-- The encoding of a part of the value. -/
theorem part {ε : Type*} {whole : ε → Prop}
    (code : SelfDelimiting valid encode view) (project : ε → α)
    (kept : ∀ value, whole value → valid (project value)) :
    SelfDelimiting whole (fun value => encode (project value))
      (fun value => view (project value)) :=
  fun _ _ firstWhole secondWhole rest other same =>
    code (kept _ firstWhole) (kept _ secondWhole) rest other same

/-- Seeing the same in another form. -/
theorem determines (code : SelfDelimiting valid encode view)
    (told : ∀ first second, valid first → valid second →
      view first = view second → seen first = seen second) :
    SelfDelimiting valid encode seen := by
  intro first second firstValid secondValid rest other same
  obtain ⟨views, tails⟩ := code firstValid secondValid rest other same
  exact ⟨told first second firstValid secondValid views, tails⟩

/-- Sequences of the same length are told apart element by element. -/
theorem flatMap_inj (code : SelfDelimiting valid encode view)
    {rest other : List β} :
    ∀ {values others : List α}, values.length = others.length →
      (∀ value ∈ values, valid value) → (∀ value ∈ others, valid value) →
      values.flatMap encode ++ rest = others.flatMap encode ++ other →
      values.map view = others.map view ∧ rest = other := by
  intro values
  induction values with
  | nil =>
      intro others sameLength _ _ same
      obtain rfl := List.eq_nil_of_length_eq_zero sameLength.symm
      exact ⟨rfl, same⟩
  | cons value values ih =>
      intro others sameLength valuesValid othersValid same
      cases others with
      | nil => simp at sameLength
      | cons next others =>
          simp only [List.flatMap_cons, List.append_assoc] at same
          obtain ⟨heads, tails⟩ := code (valuesValid value List.mem_cons_self)
            (othersValid next List.mem_cons_self) _ _ same
          obtain ⟨maps, ends⟩ := ih (Nat.succ.inj sameLength)
            (fun found member => valuesValid found
              (List.mem_cons_of_mem value member))
            (fun found member => othersValid found
              (List.mem_cons_of_mem next member)) tails
          exact ⟨by rw [List.map_cons, List.map_cons, heads, maps], ends⟩

/-- A sequence behind its length. -/
theorem counted {count : Nat → List β} {few : Nat → Prop}
    (code : SelfDelimiting valid encode view)
    (number : SelfDelimiting few count fun length => length) :
    SelfDelimiting
      (fun values : List α => few values.length ∧ ∀ value ∈ values, valid value)
      (fun values => count values.length ++ values.flatMap encode)
      (fun values => values.map view) := by
  intro values others valuesValid othersValid rest other same
  rw [List.append_assoc, List.append_assoc] at same
  obtain ⟨lengths, tails⟩ := number valuesValid.1 othersValid.1 _ _ same
  exact code.flatMap_inj lengths valuesValid.2 othersValid.2 tails

/-- A value that may be missing, behind a tag that tells. -/
theorem tagged {present absent : β} (apart : present ≠ absent)
    (code : SelfDelimiting valid encode view) (optional : Option α → List β)
    (found : ∀ value, optional (some value) = present :: encode value)
    (missing : optional none = [absent]) :
    SelfDelimiting (fun value : Option α => ∀ inner ∈ value, valid inner)
      optional (fun value => value.map view) := by
  intro first second firstValid secondValid rest other same
  cases first with
  | none =>
      cases second with
      | none =>
          rw [missing] at same
          exact ⟨rfl, (List.cons.inj same).2⟩
      | some value =>
          rw [missing, found] at same
          exact absurd (List.cons.inj same).1.symm apart
  | some value =>
      cases second with
      | none =>
          rw [missing, found] at same
          exact absurd (List.cons.inj same).1 apart
      | some next =>
          rw [found, found] at same
          obtain ⟨views, tails⟩ := code (firstValid value rfl)
            (secondValid next rfl) _ _ (List.cons.inj same).2
          exact ⟨congrArg some views, tails⟩

end SelfDelimiting

/-- Texts closed by a mark that does not occur in them are self-delimiting. -/
theorem List.append_mark_inj {β : Type*} {mark : β} :
    ∀ {first second : List β} {rest other : List β},
      mark ∉ first → mark ∉ second →
      first ++ mark :: rest = second ++ mark :: other →
      first = second ∧ rest = other := by
  intro first
  induction first with
  | nil =>
      intro second rest other _ outside same
      cases second with
      | nil => exact ⟨rfl, (List.cons.inj same).2⟩
      | cons value second =>
          have head := (List.cons.inj same).1
          exact absurd (head ▸ List.mem_cons_self) outside
  | cons value first ih =>
      intro second rest other free outside same
      cases second with
      | nil =>
          have head := (List.cons.inj same).1
          exact absurd (head ▸ List.mem_cons_self) free
      | cons next second =>
          obtain ⟨rfl, tails⟩ := List.cons.inj same
          obtain ⟨rfl, ends⟩ := ih
            (fun member => free (List.mem_cons_of_mem _ member))
            (fun member => outside (List.mem_cons_of_mem _ member)) tails
          exact ⟨rfl, ends⟩
