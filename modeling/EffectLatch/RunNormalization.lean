import EffectLatch.DomainRuns
import EffectLatch.FrameRoundTrips
import EffectLatch.HashFraming

/-!
# Normalization of run requests is a bijection

A request is determined by its normal form, text by text, and every normal form
within the caps is that of exactly one request.
-/

namespace EffectLatch

/-- The byte of a hexadecimal digit. -/
def digitByte (digit : Nat) : UInt8 :=
  if digit < 10 then UInt8.ofNat (0x30 + digit) else UInt8.ofNat (0x57 + digit)

/-- The digits of one byte. -/
def hexPair (byte : UInt8) : List UInt8 :=
  [digitByte (byte.toNat / 16), digitByte (byte.toNat % 16)]

theorem utf8_ofList_cons (char : Char) (rest : List Char) :
    utf8 (String.ofList (char :: rest)) =
      String.utf8EncodeChar char ++ utf8 (String.ofList rest) := by
  change (String.ofList (char :: rest)).toByteArray.data.toList =
    _ ++ (String.ofList rest).toByteArray.data.toList
  rw [String.toByteArray_ofList, String.toByteArray_ofList,
    List.utf8Encode_cons, ByteArray.data_append, Array.toList_append,
    List.utf8Encode_singleton, List.data_toByteArray]

theorem utf8EncodeChar_hexDigit : ∀ digit < 16,
    String.utf8EncodeChar (Hash.hex.hexDigit digit) = [digitByte digit] := by
  decide +kernel

theorem utf8_hex (bytes : List UInt8) :
    utf8 (Hash.hex bytes) = bytes.flatMap hexPair := by
  induction bytes with
  | nil => rfl
  | cons byte rest ih =>
      have small := byte.toNat_lt
      rw [Hash.hex] at ih ⊢
      rw [List.flatMap_cons, List.flatMap_cons, List.cons_append,
        List.cons_append, List.nil_append, utf8_ofList_cons, utf8_ofList_cons,
        ih, utf8EncodeChar_hexDigit _ (by omega),
        utf8EncodeChar_hexDigit _ (by omega)]
      rfl

theorem isHexByte_digitByte : ∀ digit < 16,
    isHexByte (digitByte digit) = true ∧
      (nibble (digitByte digit)).toNat = digit := by
  decide +kernel

/-- A hexadecimal digit is the byte of its value. -/
theorem digitByte_nibble : ∀ number < 256,
    isHexByte (UInt8.ofNat number) = true →
      (nibble (UInt8.ofNat number)).toNat < 16 ∧
        digitByte (nibble (UInt8.ofNat number)).toNat =
          UInt8.ofNat number := by
  decide +kernel

theorem toNat_pair : ∀ high < 16, ∀ low < 16,
    (UInt8.ofNat high <<< 4 ||| UInt8.ofNat low).toNat = high * 16 + low := by
  decide +kernel

/-- The pair of digits of a byte is read as the byte. -/
theorem pairBytes_hexPair (byte : UInt8) (rest : List UInt8) :
    pairBytes (hexPair byte ++ rest) = byte :: pairBytes rest := by
  have small := byte.toNat_lt
  have high := (isHexByte_digitByte (byte.toNat / 16) (by omega)).2
  have low := (isHexByte_digitByte (byte.toNat % 16) (by omega)).2
  have pair := toNat_pair (byte.toNat / 16) (by omega) (byte.toNat % 16)
    (by omega)
  rw [hexPair, List.cons_append, List.cons_append, List.nil_append, pairBytes]
  congr 1
  apply UInt8.toNat_inj.mp
  rw [← UInt8.ofNat_toNat (x := nibble (digitByte (byte.toNat / 16))), high,
    ← UInt8.ofNat_toNat (x := nibble (digitByte (byte.toNat % 16))), low, pair]
  omega

theorem pairBytes_hex (bytes : List UInt8) :
    pairBytes (bytes.flatMap hexPair) = bytes := by
  induction bytes with
  | nil => simp [pairBytes]
  | cons byte rest ih => rw [List.flatMap_cons, pairBytes_hexPair, ih]

/-- Two digits are those of the byte they make. -/
theorem hexPair_nibbles {high low : UInt8} (upper : isHexByte high = true)
    (lower : isHexByte low = true) :
    hexPair (nibble high <<< 4 ||| nibble low) = [high, low] := by
  have one := digitByte_nibble high.toNat high.toNat_lt
  have two := digitByte_nibble low.toNat low.toNat_lt
  rw [UInt8.ofNat_toNat] at one two
  obtain ⟨highSmall, highDigit⟩ := one upper
  obtain ⟨lowSmall, lowDigit⟩ := two lower
  have pair := toNat_pair _ highSmall _ lowSmall
  rw [UInt8.ofNat_toNat, UInt8.ofNat_toNat] at pair
  rw [hexPair, pair, show ((nibble high).toNat * 16 + (nibble low).toNat) / 16 =
    (nibble high).toNat by omega, show ((nibble high).toNat * 16 +
      (nibble low).toNat) % 16 = (nibble low).toNat by omega, highDigit,
    lowDigit]

theorem hexPairs_pairBytes {bytes : List UInt8}
    (even : bytes.length % 2 = 0) (digits : bytes.all isHexByte = true) :
    (pairBytes bytes).flatMap hexPair = bytes := by
  induction bytes using pairBytes.induct with
  | case1 high low rest ih =>
      simp only [List.all_cons, Bool.and_eq_true] at digits
      simp only [List.length_cons] at even
      rw [pairBytes, List.flatMap_cons, hexPair_nibbles digits.1 digits.2.1,
        ih (by omega) digits.2.2]
      rfl
  | case2 bytes single =>
      obtain rfl | ⟨_, rfl⟩ := eq_nil_or_singleton single
      · simp [pairBytes]
      · simp at even

/-- The digits of a digest are its only text. -/
theorem digestBytes_eq_ok_iff {value : String} {digest : Digest} :
    digestBytes value = .ok digest ↔ Hash.hex digest.bytes = value := by
  constructor
  · intro read
    unfold digestBytes at read
    split at read
    next digits =>
      obtain rfl := Except.ok.inj read
      apply utf8_injective
      rw [utf8_hex]
      exact hexPairs_pairBytes (by rw [digits.1]) digits.2
    next => simp at read
  · rintro rfl
    have length : (utf8 (Hash.hex digest.bytes)).length = 64 := by
      rw [utf8_hex, List.length_flatMap]
      simp [hexPair, digest.length_eq]
    have digits : (utf8 (Hash.hex digest.bytes)).all isHexByte = true := by
      rw [utf8_hex, List.all_flatMap]
      apply List.all_eq_true.mpr
      intro byte _
      have small := byte.toNat_lt
      simp [hexPair, isHexByte_digitByte (byte.toNat / 16) (by omega),
        isHexByte_digitByte (byte.toNat % 16) (by omega)]
    unfold digestBytes
    rw [dif_pos ⟨length, digits⟩]
    congr 1
    apply Digest.ext_bytes
    change pairBytes (utf8 (Hash.hex digest.bytes)) = _
    rw [utf8_hex]
    exact pairBytes_hex digest.bytes

/-- Every limit is positive and within its effective cap. -/
structure Limits.Within (limits caps : Limits) : Prop where
  fuel : 1 ≤ limits.fuel ∧ limits.fuel ≤ caps.fuel
  memoryBytes : 1 ≤ limits.memoryBytes ∧
    limits.memoryBytes ≤ min caps.memoryBytes (64 * 1024 * 1024)
  wallMs : 1 ≤ limits.wallMs ∧ limits.wallMs ≤ caps.wallMs
  maxEffects : 1 ≤ limits.maxEffects ∧
    limits.maxEffects ≤ min caps.maxEffects EffectLatch.maxEffects

theorem Limits.validate_eq_ok_iff {limits caps result : Limits} :
    limits.validate caps = .ok result ↔ limits.Within caps ∧ result = limits := by
  have positive (value cap : UInt64) :
      (¬ (value = 0 ∨ cap < value)) ↔ 1 ≤ value ∧ value ≤ cap := by
    rw [not_or, UInt64.not_lt, ← UInt64.toNat_inj, UInt64.le_iff_toNat_le]
    exact and_congr_left fun _ => Nat.one_le_iff_ne_zero.symm
  simp only [validate, Except.bind_eq_ok_iff, Except.forM_eq_ok_iff,
    Except.pure_eq_ok_iff, capped, List.forall_mem_cons,
    Except.require_eq_ok_iff, positive]
  constructor
  · rintro ⟨_, ⟨fuel, memoryBytes, wallMs, maxEffects, _⟩, rfl⟩
    exact ⟨⟨fuel, memoryBytes, wallMs, maxEffects⟩, rfl⟩
  · rintro ⟨within, rfl⟩
    exact ⟨(), ⟨within.fuel, within.memoryBytes, within.wallMs,
      within.maxEffects, List.forall_mem_nil _⟩, rfl⟩

/-- What the request relies on in the crates that read and write its texts. -/
structure TextCodecs.Lawful (codecs : TextCodecs) : Prop where
  parseUuid : ∀ id, codecs.parseUuid (codecs.uuidText id) = some id
  fromBase64 : ∀ bytes, codecs.fromBase64 (codecs.base64 bytes) = some bytes
  length : ∀ bytes, (utf8 (codecs.base64 bytes)).length =
    (bytes.length + 2) / 3 * 4

namespace RunCreate

variable {codecs : TextCodecs} {request other : RunCreate}
  {caps otherCaps : Limits} {run result : NormalizedRun}

/-- The request that spells a normal form. -/
def ofRun (codecs : TextCodecs) (run : NormalizedRun) : RunCreate where
  moduleDigest := Hash.hex run.moduleDigest.bytes
  grantId := codecs.uuidText run.grantId
  inputB64 := codecs.base64 run.input
  limits := run.limits

/-- A normal form is reached from the one request that spells it. -/
theorem normalize_eq_ok_iff (lawful : codecs.Lawful) :
    request.normalize codecs caps = .ok run ↔
      request = ofRun codecs run ∧ run.input.length ≤ payloadBytes ∧
        run.limits.Within caps := by
  simp only [normalize, Except.bind_eq_ok_iff, Except.require_eq_ok_iff,
    Except.fetch_eq_ok_iff, Except.mapError_eq_ok_iff, Except.pure_eq_ok_iff,
    digestBytes_eq_ok_iff, Limits.validate_eq_ok_iff]
  constructor
  · rintro ⟨digest, digits, id, _, _, canonical, _, _, input, _, _,
      ⟨small, text⟩, limits, ⟨within, rfl⟩, rfl⟩
    refine ⟨?_, small, within⟩
    cases request
    simp only [ofRun, mk.injEq]
    exact ⟨digits.symm, canonical.symm, text.symm, trivial⟩
  · rintro ⟨rfl, small, within⟩
    refine ⟨run.moduleDigest, rfl, run.grantId, lawful.parseUuid run.grantId,
      (), rfl, (), ?_, run.input, lawful.fromBase64 run.input, (),
      ⟨small, rfl⟩, run.limits, ⟨within, rfl⟩, rfl⟩
    rw [ofRun, lawful.length]
    omega

/-- Normalization keeps every difference between accepted requests and reaches
every normal form within the caps; so does the preimage that is hashed. -/
theorem runs_normalize_bijectively (codecs : TextCodecs)
    (lawful : codecs.Lawful) :
    (∀ (a b : RunCreate) (caps otherCaps : Limits)
      (first second : NormalizedRun),
      a.normalize codecs caps = .ok first →
      b.normalize codecs otherCaps = .ok second →
      first.moduleDigest = second.moduleDigest →
      first.grantId = second.grantId → first.input = second.input →
      first.limits = second.limits → a = b) ∧
    (∀ (caps : Limits) (run : NormalizedRun),
      run.input.length ≤ payloadBytes → run.limits.Within caps →
      (ofRun codecs run).normalize codecs caps = .ok run) ∧
    (∀ (a b : RunCreate) (caps otherCaps : Limits)
      (first second : NormalizedRun),
      a.normalize codecs caps = .ok first →
      b.normalize codecs otherCaps = .ok second →
      Hash.runPreimage first = Hash.runPreimage second → a = b) := by
  refine ⟨?_, ?_, ?_⟩
  · intro a b caps otherCaps first second accepted acceptedOther digest id
      input limits
    rw [((normalize_eq_ok_iff lawful).mp accepted).1,
      ((normalize_eq_ok_iff lawful).mp acceptedOther).1, ofRun, ofRun, digest,
      id, input, limits]
  · intro caps run small within
    exact (normalize_eq_ok_iff lawful).mpr ⟨rfl, small, within⟩
  · intro a b caps otherCaps first second accepted acceptedOther same
    obtain ⟨rfl, small, _⟩ := (normalize_eq_ok_iff lawful).mp accepted
    obtain ⟨rfl, smallOther, _⟩ :=
      (normalize_eq_ok_iff lawful).mp acceptedOther
    unfold payloadBytes at small smallOther
    rw [Hash.run_code.inj (by omega) (by omega) same]

end RunCreate

namespace Sample

/-- The text of a UUID in groups. -/
def hyphenated (id : Uuid) : String :=
  let digits := (Hash.hex (uuidBytes id)).toList
  String.ofList (digits.take 8 ++ '-' :: (digits.drop 8).take 4 ++
    '-' :: (digits.drop 12).take 4 ++ '-' :: (digits.drop 16).take 4 ++
    '-' :: digits.drop 20)

/-- A reader for the texts in groups. -/
def parseHyphenated (text : String) : Option Uuid :=
  let digits := String.ofList (text.toList.filter (· ≠ '-'))
  let number := Ipc.fromBigEndian (pairBytes (utf8 digits))
  if small : number < 2 ^ 128 then
    let id : Uuid := ⟨number, small⟩
    if hyphenated id = text then some id else none
  else none

def textCodecs : TextCodecs where
  uuidText := hyphenated
  parseUuid := parseHyphenated
  base64 := base64Text
  fromBase64 text := Base64.decode text.toList

theorem hexDigit_ne_hyphen : ∀ digit < 16,
    Hash.hex.hexDigit digit ≠ '-' := by
  decide +kernel

theorem ne_hyphen_of_mem (bytes : List UInt8) :
    ∀ char ∈ (Hash.hex bytes).toList, char ≠ '-' := by
  intro char member
  rw [Hash.hex, String.toList_ofList] at member
  obtain ⟨byte, _, digit⟩ := List.mem_flatMap.mp member
  have small := byte.toNat_lt
  simp only [List.mem_cons, List.not_mem_nil, or_false] at digit
  rcases digit with rfl | rfl
  · exact hexDigit_ne_hyphen _ (by omega)
  · exact hexDigit_ne_hyphen _ (by omega)

theorem filter_hyphenated (id : Uuid) :
    (hyphenated id).toList.filter (· ≠ '-') =
      (Hash.hex (uuidBytes id)).toList := by
  have plain := ne_hyphen_of_mem (uuidBytes id)
  rw [hyphenated, String.toList_ofList]
  generalize (Hash.hex (uuidBytes id)).toList = digits at plain ⊢
  have kept (part : List Char) (within : part ⊆ digits) :
      part.filter (· ≠ '-') = part := by
    apply List.filter_eq_self.mpr
    intro char member
    simpa using plain char (within member)
  have group (skip : Nat) : ((digits.drop skip).take 4).filter (· ≠ '-') =
      (digits.drop skip).take 4 :=
    kept _ fun _ member => List.mem_of_mem_drop (List.mem_of_mem_take member)
  have hyphen (rest : List Char) : ('-' :: rest).filter (· ≠ '-') =
      rest.filter (· ≠ '-') :=
    List.filter_cons_of_neg (by simp)
  have part (skip : Nat) : (digits.drop skip).take 4 ++ digits.drop (skip + 4) =
      digits.drop skip := by
    rw [← List.drop_drop, List.take_append_drop]
  simp only [List.append_assoc, List.cons_append, List.filter_append, hyphen]
  rw [kept _ (List.take_subset 8 digits),
    group 8, group 12, group 16, kept _ (List.drop_subset 20 digits),
    part 16, part 12, part 8, List.take_append_drop]

/-- The digits of an identifier give its number. -/
theorem value_uuidBytes (id : Uuid) :
    Ipc.fromBigEndian (pairBytes (utf8 (Hash.hex (uuidBytes id)))) = id.val := by
  have small : id.val < 256 ^ 16 := by
    have bounded := id.isLt
    omega
  rw [utf8_hex, pairBytes_hex, uuidBytes, fromBigEndian_bigEndian small]

theorem parseHyphenated_hyphenated (id : Uuid) :
    parseHyphenated (hyphenated id) = some id := by
  simp only [parseHyphenated, filter_hyphenated, String.ofList_toList,
    value_uuidBytes, id.isLt, ↓reduceDIte, ↓reduceIte]

theorem textCodecs_lawful : textCodecs.Lawful where
  parseUuid id := by
    simp only [textCodecs]
    exact parseHyphenated_hyphenated id
  fromBase64 bytes := decode_base64Text bytes
  length bytes := (byteSize_base64Text bytes).2

/-- A normal form whose input needs padding. -/
def padded : NormalizedRun := ⟨checksum [171], 7, [104, 105], ⟨1, 2, 3, 4⟩⟩

/-- The request for it. -/
def paddedCreate : RunCreate where
  moduleDigest :=
    "00000000000000000000000000000000000000000000000000000000000000ab"
  grantId := "00000000-0000-0000-0000-000000000007"
  inputB64 := "aGk="
  limits := ⟨1, 2, 3, 4⟩

end Sample

namespace RunCreate

/-- One request, and only that one, is normalized to the sample. -/
theorem runs_normalize_bijectively_padded :
    Sample.paddedCreate.normalize Sample.textCodecs ⟨10, 10, 10, 10⟩ =
        .ok Sample.padded ∧
      ∀ request caps, normalize Sample.textCodecs request caps =
        .ok Sample.padded → request = Sample.paddedCreate := by
  have spelled : ofRun Sample.textCodecs Sample.padded =
      Sample.paddedCreate := by
    decide +kernel
  obtain ⟨injective, surjective, _⟩ := runs_normalize_bijectively
    Sample.textCodecs Sample.textCodecs_lawful
  have accepted := surjective ⟨10, 10, 10, 10⟩ Sample.padded (by decide)
    (by constructor <;> decide)
  rw [spelled] at accepted
  exact ⟨accepted, fun _ _ normalized =>
    injective _ _ _ _ _ _ normalized accepted rfl rfl rfl rfl⟩

end RunCreate

end EffectLatch
