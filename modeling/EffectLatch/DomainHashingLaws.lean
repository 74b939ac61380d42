import EffectLatch.DomainHashing

/-!
# Framing is unambiguous

Fixed-width fields and length prefixes make every preimage decodable: two event
preimages are equal only when all their fields are.
-/

namespace EffectLatch

theorem length_bigEndian (width value : Nat) :
    (bigEndian width value).length = width := by
  induction width generalizing value with
  | zero => rfl
  | succ width ih => simp [bigEndian, ih]

/-- Values that fit in the width are told apart by their bytes. -/
theorem bigEndian_inj {width first second : Nat}
    (same : bigEndian width first = bigEndian width second)
    (firstFits : first < 256 ^ width) (secondFits : second < 256 ^ width) :
    first = second := by
  induction width generalizing first second with
  | zero =>
      rw [Nat.pow_zero] at firstFits secondFits
      omega
  | succ width induction =>
      rw [Nat.pow_succ] at firstFits secondFits
      obtain ⟨high, low⟩ := List.append_inj' same rfl
      have highSame : first / 256 = second / 256 := by
        apply induction high
        · exact Nat.div_lt_of_lt_mul (by omega)
        · exact Nat.div_lt_of_lt_mul (by omega)
      have lowSame : first % 256 = second % 256 := by
        have byteSame := congrArg UInt8.toNat (List.cons.inj low).1
        simpa using byteSame
      omega

theorem uuidBytes_injective : Function.Injective uuidBytes := by
  intro first second same
  apply Fin.ext
  apply bigEndian_inj same
  · exact first.isLt
  · exact second.isLt

theorem Digest.ext_bytes {first second : Digest}
    (same : first.bytes = second.bytes) : first = second := by
  cases first
  cases second
  simpa using same

theorem utf8_injective : Function.Injective utf8 := by
  intro first second same
  apply String.toByteArray_inj.mp
  apply ByteArray.ext
  apply Array.toList_inj.mp
  exact same

namespace Hash

/-- A framed field of representable length can be cut off the front. -/
theorem frame_append_inj {first second rest other : List UInt8}
    (same : frame first ++ rest = frame second ++ other)
    (firstFits : first.length < 256 ^ 8)
    (secondFits : second.length < 256 ^ 8) :
    first = second ∧ rest = other := by
  simp only [frame, List.append_assoc] at same
  obtain ⟨lengths, bodies⟩ := List.append_inj same (by
    rw [length_bigEndian, length_bigEndian])
  have sameLength := bigEndian_inj lengths firstFits secondFits
  exact List.append_inj bodies sameLength

/-- Event preimages with fields that fit their frames are equal only when every
field is. -/
theorem eventPreimage_inj {tenant otherTenant run otherRun : Uuid}
    {seq otherSeq : Nat} {previous otherPrevious : Digest}
    {kind otherKind : String} {payload otherPayload : List UInt8}
    (same : eventPreimage tenant run seq previous kind payload =
      eventPreimage otherTenant otherRun otherSeq otherPrevious otherKind
        otherPayload)
    (seqFits : seq < 256 ^ 8) (otherSeqFits : otherSeq < 256 ^ 8)
    (kindFits : (utf8 kind).length < 256 ^ 8)
    (otherKindFits : (utf8 otherKind).length < 256 ^ 8)
    (payloadFits : payload.length < 256 ^ 8)
    (otherPayloadFits : otherPayload.length < 256 ^ 8) :
    tenant = otherTenant ∧ run = otherRun ∧ seq = otherSeq ∧
      previous = otherPrevious ∧ kind = otherKind ∧
      payload = otherPayload := by
  simp only [eventPreimage, List.append_assoc] at same
  have afterDomain := List.append_cancel_left same
  obtain ⟨tenants, afterTenant⟩ := List.append_inj afterDomain (by
    rw [uuidBytes, uuidBytes, length_bigEndian, length_bigEndian])
  obtain ⟨runs, afterRun⟩ := List.append_inj afterTenant (by
    rw [uuidBytes, uuidBytes, length_bigEndian, length_bigEndian])
  obtain ⟨seqs, afterSeq⟩ := List.append_inj afterRun (by
    rw [length_bigEndian, length_bigEndian])
  obtain ⟨hashes, afterHash⟩ := List.append_inj afterSeq (by
    rw [previous.length_eq, otherPrevious.length_eq])
  obtain ⟨kinds, afterKind⟩ := frame_append_inj afterHash kindFits otherKindFits
  have payloads : payload = otherPayload := by
    have framed : frame payload ++ [] = frame otherPayload ++ [] := by
      rw [afterKind]
    exact (frame_append_inj framed payloadFits otherPayloadFits).1
  exact ⟨uuidBytes_injective tenants, uuidBytes_injective runs,
    bigEndian_inj seqs seqFits otherSeqFits, Digest.ext_bytes hashes,
    utf8_injective kinds, payloads⟩

end Hash

namespace Sample

/-- A digest that tells the texts of the samples apart. -/
def checksum : Sha256 := fun bytes =>
  ⟨bigEndian 32 (bytes.foldl (fun sum byte => sum * 257 + byte.toNat) 0),
    length_bigEndian 32 _⟩

end Sample

end EffectLatch
