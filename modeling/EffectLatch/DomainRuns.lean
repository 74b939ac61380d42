import EffectLatch.DomainEffects

/-!
# Run requests

The texts of a run request and their normal form.  UUIDs and Base64 are read
and written by other crates, which are parameters here.
-/

namespace EffectLatch

inductive ConfigError where
  | invalidLimit (name : String)
  | unsupportedHost
deriving DecidableEq

namespace Limits

/-- The limits with their names and effective caps. -/
def capped (limits caps : Limits) : List (String × UInt64 × UInt64) :=
  [("fuel", limits.fuel, caps.fuel),
    ("memory_bytes", limits.memoryBytes, min caps.memoryBytes (64 * 1024 * 1024)),
    ("wall_ms", limits.wallMs, caps.wallMs),
    ("max_effects", limits.maxEffects,
      min caps.maxEffects EffectLatch.maxEffects)]

def validate (limits caps : Limits) : Except ConfigError Limits := do
  (limits.capped caps).forM fun (name, value, cap) =>
    Except.require (¬ (value = 0 ∨ cap < value)) (.invalidLimit name)
  pure limits

end Limits

structure RunCreate where
  moduleDigest : String
  grantId : String
  inputB64 : String
  limits : Limits
deriving DecidableEq

/-- `Uuid` and the standard Base64 engine: texts and their readers. -/
structure TextCodecs where
  uuidText : Uuid → String
  parseUuid : String → Option Uuid
  base64 : List UInt8 → String
  fromBase64 : String → Option (List UInt8)

def isHexByte (byte : UInt8) : Bool :=
  (0x30 ≤ byte && byte ≤ 0x39) || (0x61 ≤ byte && byte ≤ 0x66)

def nibble (byte : UInt8) : UInt8 :=
  if byte ≤ 0x39 then byte - 0x30 else byte - 0x61 + 10

/-- One byte for each pair of digits. -/
def pairBytes : List UInt8 → List UInt8
  | high :: low :: rest => (nibble high <<< 4 ||| nibble low) :: pairBytes rest
  | _ => []

/-- What is not a pair and more is one byte or none. -/
theorem eq_nil_or_singleton {bytes : List UInt8}
    (single : ∀ high low rest, bytes = high :: low :: rest → False) :
    bytes = [] ∨ ∃ byte, bytes = [byte] := by
  rcases bytes with _ | ⟨byte, _ | ⟨other, rest⟩⟩
  · exact .inl rfl
  · exact .inr ⟨byte, rfl⟩
  · exact (single byte other rest rfl).elim

theorem length_pairBytes (bytes : List UInt8) :
    (pairBytes bytes).length = bytes.length / 2 := by
  induction bytes using pairBytes.induct with
  | case1 high low rest ih =>
      rw [pairBytes, List.length_cons, ih, List.length_cons, List.length_cons]
      omega
  | case2 bytes single =>
      obtain rfl | ⟨_, rfl⟩ := eq_nil_or_singleton single
      · simp [pairBytes]
      · simp [pairBytes]

theorem length_pairBytes_eq {value : String}
    (digits : (utf8 value).length = 64 ∧ (utf8 value).all isHexByte = true) :
    (pairBytes (utf8 value)).length = 32 := by
  rw [length_pairBytes, digits.1]

def digestBytes (value : String) : Except ValidationError Digest :=
  if digits : (utf8 value).length = 64 ∧
      (utf8 value).all isHexByte = true then
    .ok ⟨pairBytes (utf8 value), length_pairBytes_eq digits⟩
  else
    .error (.invalid "digest")

def RunCreate.normalize (codecs : TextCodecs) (request : RunCreate)
    (caps : Limits) : Except ValidationError NormalizedRun := do
  let moduleDigest ← digestBytes request.moduleDigest
  let grantId ← Except.fetch (codecs.parseUuid request.grantId)
    (.invalid "grant_id")
  Except.require (codecs.uuidText grantId = request.grantId)
    (.invalid "canonical grant_id")
  Except.require ((utf8 request.inputB64).length ≤ (payloadBytes + 2) / 3 * 4)
    (.invalid "input size")
  let input ← Except.fetch (codecs.fromBase64 request.inputB64)
    (.invalid "base64")
  Except.require
    (input.length ≤ payloadBytes ∧ codecs.base64 input = request.inputB64)
    (.invalid "canonical base64")
  let limits ← (request.limits.validate caps).mapError fun _ =>
    .invalid "limits"
  pure
    { moduleDigest := moduleDigest
      grantId := grantId
      input := input
      limits := limits }

end EffectLatch
