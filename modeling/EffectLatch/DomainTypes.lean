import Mathlib.Algebra.GroupWithZero.Nat
import Mathlib.Algebra.Group.Int.Defs
import Mathlib.Data.Fin.Basic
import Mathlib.Data.String.Basic
import Mathlib.Order.Fin.Basic

/-!
# Identifiers, digests and requests

The value types that the domain crate shares with the store: UUIDs, 32-byte
digests, resource limits and a normalized run request.
-/

namespace EffectLatch

/-- A UUID as its 128-bit value.  The byte order of the source is the order of
the values. -/
abbrev Uuid := Fin (2 ^ 128)

instance Uuid.neZero : NeZero (2 ^ 128 : Nat) :=
  ⟨(Nat.two_pow_pos 128).ne'⟩

instance Uuid.lawfulBEq : LawfulBEq Uuid := inferInstance

/-- A 32-byte array. -/
structure Digest where
  bytes : List UInt8
  length_eq : bytes.length = 32
deriving DecidableEq

namespace Digest

/-- Thirty-two zero bytes. -/
def zero : Digest := ⟨List.replicate 32 0, by simp⟩

end Digest

/-- The UTF-8 bytes of a text. -/
def utf8 (text : String) : List UInt8 := text.toUTF8.data.toList

theorem utf8_append (first second : String) :
    utf8 (first ++ second) = utf8 first ++ utf8 second := by
  simp [utf8, String.toByteArray_append]

theorem fromUTF8?_utf8 (text : String) :
    String.fromUTF8? ⟨(utf8 text).toArray⟩ = some text := by
  have same : (⟨(utf8 text).toArray⟩ : ByteArray) = text.toByteArray := by
    apply ByteArray.ext
    simp [utf8]
  rw [same, String.fromUTF8?]
  simp only [text.isValidUTF8, ↓reduceDIte]
  rfl

theorem utf8_of_fromUTF8? {bytes : List UInt8} {text : String}
    (decoded : String.fromUTF8? ⟨bytes.toArray⟩ = some text) :
    utf8 text = bytes := by
  unfold String.fromUTF8? at decoded
  split at decoded
  · rw [← Option.some.inj decoded]
    simp only [utf8]
    rfl
  · simp at decoded

theorem utf8_eq_nil_iff {text : String} : utf8 text = [] ↔ text = "" := by
  constructor
  · intro empty
    apply String.toByteArray_inj.mp
    apply ByteArray.ext
    apply Array.toList_inj.mp
    exact empty
  · rintro rfl
    rfl

def isAsciiGraphic (byte : UInt8) : Bool := 0x21 ≤ byte && byte ≤ 0x7e

def isAsciiUppercase (byte : UInt8) : Bool := 0x41 ≤ byte && byte ≤ 0x5a

def isAsciiAlphanumeric (byte : UInt8) : Bool :=
  (0x30 ≤ byte && byte ≤ 0x39) || isAsciiUppercase byte ||
    (0x61 ≤ byte && byte ≤ 0x7a)

/-- A non-empty text of at most 64 letters, digits, hyphens and underscores. -/
def shortIdentifier (value : String) : Bool :=
  !(utf8 value).isEmpty && (utf8 value).length ≤ 64 &&
    (utf8 value).all fun byte =>
      isAsciiAlphanumeric byte || byte == 0x2d || byte == 0x5f

def isAlias (value : String) : Bool := shortIdentifier value

/-- Limits of one execution, each a `u64`. -/
structure Limits where
  fuel : UInt64
  memoryBytes : UInt64
  wallMs : UInt64
  maxEffects : UInt64
deriving DecidableEq

def moduleBytes : Nat := 2 * 1024 * 1024

structure NormalizedRun where
  moduleDigest : Digest
  grantId : Uuid
  input : List UInt8
  limits : Limits
deriving DecidableEq

/-- Largest and smallest value of a 64-bit signed column. -/
def i64Max : Int := 2 ^ 63 - 1

def i64Min : Int := -2 ^ 63

end EffectLatch
