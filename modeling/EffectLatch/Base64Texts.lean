import Mathlib.Data.List.Basic

/-!
# Base64 texts

The standard alphabet with padding.  Three bytes are four symbols; one or two
bytes at the end are padded to four.  The reader refuses a text with missing
padding or with bits left over.
-/

namespace Base64

def symbols : List Char :=
  "ABCDEFGHIJKLMNOPQRSTUVWXYZabcdefghijklmnopqrstuvwxyz0123456789+/".toList

/-- The symbol of six bits; the padding stands behind the last one. -/
def symbol (value : Nat) : Char := symbols.getD value '='

def value (char : Char) : Option Nat := symbols.idxOf? char

def encode : List UInt8 → List Char
  | first :: second :: third :: rest =>
      symbol (first.toNat / 4) ::
        symbol (first.toNat % 4 * 16 + second.toNat / 16) ::
        symbol (second.toNat % 16 * 4 + third.toNat / 64) ::
        symbol (third.toNat % 64) :: encode rest
  | [first, second] =>
      [symbol (first.toNat / 4),
        symbol (first.toNat % 4 * 16 + second.toNat / 16),
        symbol (second.toNat % 16 * 4), symbol 64]
  | [first] =>
      [symbol (first.toNat / 4), symbol (first.toNat % 4 * 16), symbol 64,
        symbol 64]
  | [] => []

/-- The last four symbols when they are padded. -/
def decodePadded (first second third : Char) : Option (List UInt8) := do
  let high ← value first
  let middle ← value second
  if third = symbol 64 then
    if middle % 16 = 0 then
      some [UInt8.ofNat (high * 4 + middle / 16)]
    else none
  else
    let low ← value third
    if low % 4 = 0 then
      some [UInt8.ofNat (high * 4 + middle / 16),
        UInt8.ofNat (middle % 16 * 16 + low / 4)]
    else none

def decode : List Char → Option (List UInt8)
  | first :: second :: third :: fourth :: rest =>
      if fourth = symbol 64 then
        if rest = [] then decodePadded first second third else none
      else do
        let high ← value first
        let upper ← value second
        let lower ← value third
        let low ← value fourth
        let later ← decode rest
        some (UInt8.ofNat (high * 4 + upper / 16) ::
          UInt8.ofNat (upper % 16 * 16 + lower / 4) ::
          UInt8.ofNat (lower % 4 * 64 + low) :: later)
  | [] => some []
  | _ => none

theorem value_symbol : ∀ number < 64, value (symbol number) = some number := by
  decide +kernel

theorem symbol_ne_padding : ∀ number < 64, symbol number ≠ symbol 64 := by
  decide +kernel

theorem ofNat_eq (byte : UInt8) {number : Nat} (same : number = byte.toNat) :
    UInt8.ofNat number = byte := by
  rw [same, UInt8.ofNat_toNat]

/-- What was encoded is read back. -/
theorem decode_encode (bytes : List UInt8) :
    decode (encode bytes) = some bytes := by
  induction bytes using encode.induct with
  | case1 first second third rest ih =>
      have one := first.toNat_lt
      have two := second.toNat_lt
      have three := third.toNat_lt
      rw [encode, decode, if_neg (symbol_ne_padding _ (by omega)),
        value_symbol _ (by omega), value_symbol _ (by omega),
        value_symbol _ (by omega), value_symbol _ (by omega), ih]
      simp only [Option.bind_eq_bind, Option.bind_some, Option.some.injEq]
      rw [ofNat_eq first (by omega),
        ofNat_eq second (by omega),
        ofNat_eq third (by omega)]
  | case2 first second =>
      have one := first.toNat_lt
      have two := second.toNat_lt
      rw [encode, decode, if_pos rfl, if_pos rfl, decodePadded,
        value_symbol _ (by omega), value_symbol _ (by omega)]
      simp only [Option.bind_eq_bind, Option.bind_some]
      rw [if_neg (symbol_ne_padding _ (by omega)), value_symbol _ (by omega)]
      simp only [Option.bind_some]
      rw [if_pos (by omega), ofNat_eq first (by omega),
        ofNat_eq second (by omega)]
  | case3 first =>
      have one := first.toNat_lt
      rw [encode, decode, if_pos rfl, if_pos rfl, decodePadded,
        value_symbol _ (by omega), value_symbol _ (by omega)]
      simp only [Option.bind_eq_bind, Option.bind_some, if_true]
      rw [if_pos (by omega), ofNat_eq first (by omega)]
  | case4 => rfl

/-- Four symbols for every three bytes begun. -/
theorem length_encode (bytes : List UInt8) :
    (encode bytes).length = (bytes.length + 2) / 3 * 4 := by
  induction bytes using encode.induct with
  | case1 first second third rest ih =>
      simp only [encode, List.length_cons, ih]
      omega
  | case2 first second => simp [encode]
  | case3 first => simp [encode]
  | case4 => simp [encode]

theorem exists_symbol_of_mem {bytes : List UInt8} {char : Char}
    (member : char ∈ encode bytes) : ∃ number ≤ 64, char = symbol number := by
  induction bytes using encode.induct with
  | case1 first second third rest ih =>
      have one := first.toNat_lt
      have two := second.toNat_lt
      have three := third.toNat_lt
      simp only [encode, List.mem_cons] at member
      rcases member with rfl | rfl | rfl | rfl | later
      iterate 4 exact ⟨_, by omega, rfl⟩
      exact ih later
  | case2 first second =>
      have one := first.toNat_lt
      have two := second.toNat_lt
      simp only [encode, List.mem_cons, List.not_mem_nil, or_false] at member
      rcases member with rfl | rfl | rfl | rfl <;>
        exact ⟨_, by omega, rfl⟩
  | case3 first =>
      have one := first.toNat_lt
      simp only [encode, List.mem_cons, List.not_mem_nil, or_false] at member
      rcases member with rfl | rfl | rfl | rfl <;>
        exact ⟨_, by omega, rfl⟩
  | case4 => simp [encode] at member

end Base64
