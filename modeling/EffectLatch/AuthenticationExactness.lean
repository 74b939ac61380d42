import EffectLatch.ControlAuth
import EffectLatch.RunNormalization

/-!
# Authentication is exact

The loop over the records keeps names and digests distinct, so at most one entry
matches a token and the place of its record in the file is of no account.
-/

namespace EffectLatch

namespace Control

namespace Auth

variable {codecs : TextCodecs}

/-! ## Digests and identifiers -/

theorem toDigit_of_isHexByte : ∀ number < 256,
    isHexByte (UInt8.ofNat number) = true →
      UInt8.ofNat number ≠ 0x2b ∧
        toDigit (UInt8.ofNat number) =
          some (nibble (UInt8.ofNat number)).toNat := by
  decide +kernel

/-- A pair of digits is read as the byte that the run digests read. -/
theorem fromStrRadix_pair {high low : UInt8} (upper : isHexByte high = true)
    (lower : isHexByte low = true) :
    fromStrRadix [high, low] = some (nibble high <<< 4 ||| nibble low) := by
  have one := toDigit_of_isHexByte high.toNat high.toNat_lt
  have two := toDigit_of_isHexByte low.toNat low.toNat_lt
  have highSmall := digitByte_nibble high.toNat high.toNat_lt
  have lowSmall := digitByte_nibble low.toNat low.toNat_lt
  rw [UInt8.ofNat_toNat] at one two highSmall lowSmall
  obtain ⟨unsigned, highDigit⟩ := one upper
  obtain ⟨_, lowDigit⟩ := two lower
  have pair := toNat_pair _ (highSmall upper).1 _ (lowSmall lower).1
  rw [UInt8.ofNat_toNat, UInt8.ofNat_toNat] at pair
  have first : (nibble high).toNat < 256 := (nibble high).toNat_lt
  have both : (nibble high).toNat * 16 + (nibble low).toNat < 256 := by
    rw [← pair]
    exact UInt8.toNat_lt _
  simp only [fromStrRadix, reduceCtorEq, if_false, List.head?_cons,
    Option.some.injEq, unsigned, false_and, List.foldlM_cons, List.foldlM_nil,
    highDigit, lowDigit, Option.bind_eq_bind, Option.bind_some, Nat.zero_mul,
    Nat.zero_add, first, if_true, both, Option.pure_def, Option.map_some]
  rw [← pair, UInt8.ofNat_toNat]

/-- Slice by slice the loop reads one byte for each pair of digits. -/
theorem mapM_slices {count : Nat} {bytes : List UInt8}
    (length : bytes.length = 2 * count)
    (digits : bytes.all isHexByte = true) :
    (List.range count).mapM (fun index =>
      Except.fetch (fromStrRadix ((bytes.drop (index * 2)).take 2))
        AuthError.configuration) = .ok (pairBytes bytes) := by
  induction count generalizing bytes with
  | zero =>
      obtain rfl := List.eq_nil_of_length_eq_zero length
      rfl
  | succ count ih =>
      obtain ⟨high, rest, rfl⟩ : ∃ high rest, bytes = high :: rest :=
        List.exists_cons_of_length_pos (by omega)
      obtain ⟨low, rest, rfl⟩ : ∃ low others, rest = low :: others :=
        List.exists_cons_of_length_pos (by rw [List.length_cons] at length; omega)
      simp only [List.all_cons, Bool.and_eq_true] at digits
      obtain ⟨upper, lower, others⟩ := digits
      have short : rest.length = 2 * count := by
        simp only [List.length_cons] at length
        omega
      have next (index : Nat) : (high :: low :: rest).drop ((index + 1) * 2) =
          rest.drop (index * 2) := by
        rw [Nat.succ_mul, List.drop_succ_cons, List.drop_succ_cons]
      have first : ((high :: low :: rest).drop (0 * 2)).take 2 = [high, low] :=
        rfl
      rw [List.range_succ_eq_map, List.mapM_cons, List.mapM_map, first,
        fromStrRadix_pair upper lower]
      simp only [Function.comp_def, Nat.succ_eq_add_one, next, Except.fetch_some,
        Except.ok_bind_eq, ih short others]
      rw [pairBytes]
      rfl

theorem tokenDigest_eq_ok_iff {text : String} {digest : Digest}
    (length : (utf8 text).length = 64)
    (digits : (utf8 text).all isHexByte = true) :
    tokenDigest text = .ok digest ↔ Hash.hex digest.bytes = text := by
  rw [← digestBytes_eq_ok_iff, digestBytes, dif_pos ⟨length, digits⟩,
    Except.ok.injEq]
  have read := @mapM_slices 32 _ length digits
  unfold tokenDigest
  split
  next bytes decoded =>
    obtain rfl := Except.ok.inj (decoded.symm.trans read)
    rw [Except.ok.injEq]
  next failure decoded =>
    rw [read] at decoded
    simp at decoded

theorem canonicalUuid_eq_ok {value : String} {id : Uuid}
    (read : canonicalUuid codecs value = .ok id) : codecs.uuidText id = value := by
  simp only [canonicalUuid, Except.bind_eq_ok_iff, Except.fetch_eq_ok_iff,
    Except.require_eq_ok_iff, Except.pure_eq_ok_iff] at read
  obtain ⟨_, _, _, canonical, rfl⟩ := read
  exact canonical

/-- A set of identifiers has the texts it was read from. -/
theorem perm_of_ids {values : List String} {set : OrderedSet Uuid}
    (read : ids codecs values = .ok set) :
    (set.toList.map codecs.uuidText).Perm values := by
  simp only [ids, Except.bind_eq_ok_iff, Except.require_eq_ok_iff,
    Except.pure_eq_ok_iff, mapM_eq_ok_iff] at read
  obtain ⟨_, _, found, converted, _, all, rfl⟩ := read
  have texts : found.map codecs.uuidText = values := by
    rw [← List.forall₂_eq_eq_eq, List.forall₂_map_left_iff]
    exact (converted.imp fun _ _ => canonicalUuid_eq_ok).flip
  rw [converted.length_eq] at all
  rw [← texts]
  exact (OrderedSet.perm_ofList_of_card all).map codecs.uuidText

/-! ## Authorities -/

/-- The authority is the one the record's columns name, and the columns of the
other roles are empty. -/
def Authority.OfRecord (codecs : TextCodecs) (record : Record) :
    Authority → Prop
  | .owner tenant => record.role = "owner" ∧
      record.tenantId = some (codecs.uuidText tenant) ∧
      record.workerId = none ∧ record.allowedTenants = [] ∧
      record.allowedGrants = []
  | .invoker tenant grants => record.role = "invoker" ∧
      record.tenantId = some (codecs.uuidText tenant) ∧
      record.workerId = none ∧ record.allowedTenants = [] ∧
      (grants.toList.map codecs.uuidText).Perm record.allowedGrants
  | .worker workerId tenants => record.role = "worker" ∧
      record.tenantId = none ∧ record.workerId = some workerId ∧
      record.allowedGrants = [] ∧ tenants.toList ≠ [] ∧
      (tenants.toList.map codecs.uuidText).Perm record.allowedTenants

theorem authority_ofRecord {record : Record} {authority : Authority}
    (given : record.authority codecs = .ok authority) :
    authority.OfRecord codecs record := by
  unfold Record.authority at given
  split at given
  next tenantRole =>
    obtain ⟨role, noWorker, noTenants⟩ := tenantRole
    simp only [Except.bind_eq_ok_iff, Except.fetch_eq_ok_iff] at given
    obtain ⟨text, named, tenant, read, grants, listed, given⟩ := given
    obtain rfl := canonicalUuid_eq_ok read
    have texts := perm_of_ids listed
    split at given
    next owner =>
      simp only [Except.bind_eq_ok_iff, Except.require_eq_ok_iff,
        Except.pure_eq_ok_iff] at given
      obtain ⟨_, none, rfl⟩ := given
      rw [List.eq_nil_of_length_eq_zero none, List.map_nil] at texts
      exact ⟨owner, named, noWorker, noTenants, texts.nil_eq.symm⟩
    next other =>
      obtain rfl := Except.pure_eq_ok_iff.mp given
      exact ⟨role.resolve_left other, named, noWorker, noTenants, texts⟩
  next =>
    split at given
    next workerRole =>
      obtain ⟨role, noTenant, noGrants⟩ := workerRole
      simp only [Except.bind_eq_ok_iff, Except.fetch_eq_ok_iff,
        Except.require_eq_ok_iff, Except.pure_eq_ok_iff] at given
      obtain ⟨workerId, named, tenants, listed, _, ⟨_, some⟩, rfl⟩ := given
      refine ⟨role, noTenant, named, noGrants, ?_, perm_of_ids listed⟩
      intro empty
      exact some (List.length_eq_zero_iff.mpr empty)
    next => simp at given

/-! ## The loop over the records -/

/-- The entry a record makes. -/
def Record.entry (codecs : TextCodecs) (record : Record) :
    Except AuthError (Digest × Principal) := do
  let digest ← tokenDigest record.tokenSha256
  let authority ← record.authority codecs
  pure (digest, ⟨record.id, authority⟩)

theorem Record.entry_eq_ok_iff {record : Record}
    {entry : Digest × Principal} :
    record.entry codecs = .ok entry ↔
      tokenDigest record.tokenSha256 = .ok entry.1 ∧
        entry.2.id = record.id ∧
        record.authority codecs = .ok entry.2.authority := by
  simp only [Record.entry, Except.bind_eq_ok_iff, Except.pure_eq_ok_iff]
  constructor
  · rintro ⟨digest, read, authority, given, rfl⟩
    exact ⟨read, rfl, given⟩
  · rintro ⟨read, named, given⟩
    exact ⟨entry.1, read, entry.2.authority, given, by rw [← named]⟩

/-- What the loop asks of a record by itself. -/
structure Record.WellFormed (codecs : TextCodecs) (record : Record) :
    Prop where
  named : identifier record.id = true
  length : (utf8 record.tokenSha256).length = 64
  digits : (utf8 record.tokenSha256).all isHexByte = true
  entered : ∃ entry, record.entry codecs = .ok entry

/-- The entries of some records, in their order. -/
def entriesOf (codecs : TextCodecs) (records : List Record) :
    List (Digest × Principal) :=
  records.filterMap fun record => (record.entry codecs).toOption

theorem mem_entriesOf {records : List Record} {entry : Digest × Principal} :
    entry ∈ entriesOf codecs records ↔
      ∃ record ∈ records, record.entry codecs = .ok entry := by
  simp only [entriesOf, List.mem_filterMap, Except.toOption_eq_some_iff]

/-- What the loop knows after some records. -/
def loadedBy (codecs : TextCodecs) (seen : List Record) : Loading where
  names := seen.map Record.id
  hashes := (entriesOf codecs seen).map Prod.fst
  entries := entriesOf codecs seen

/-- The key that the digests of the records are compared by. -/
def Record.digest? (codecs : TextCodecs) (record : Record) : Option Digest :=
  (record.entry codecs).toOption.map Prod.fst

theorem filterMap_digest? (records : List Record) :
    records.filterMap (Record.digest? codecs) =
      (entriesOf codecs records).map Prod.fst := by
  rw [entriesOf, List.map_filterMap]
  rfl

/-- A record is admitted after others when it is well formed and its name and
digest are new. -/
def Admitted (codecs : TextCodecs) (seen : List Record) (record : Record) :
    Prop :=
  record.WellFormed codecs ∧
    (∀ name, some record.id = some name →
      name ∉ seen.filterMap fun other => some other.id) ∧
    ∀ digest, record.digest? codecs = some digest →
      digest ∉ seen.filterMap (Record.digest? codecs)

theorem add_eq_ok_iff {seen : List Record} {record : Record}
    {final : Loading} :
    (loadedBy codecs seen).add codecs record = .ok final ↔
      Admitted codecs seen record ∧
        final = loadedBy codecs (seen ++ [record]) := by
  simp only [Loading.add, Except.bind_eq_ok_iff, Except.require_eq_ok_iff,
    Except.pure_eq_ok_iff]
  simp only [loadedBy, Admitted, List.filterMap_eq_map', Option.some.injEq,
    forall_eq', filterMap_digest?]
  constructor
  · rintro ⟨_, ⟨named, unseen, length, digits⟩, digest, read, _, unused,
      authority, given, rfl⟩
    have entry : record.entry codecs = .ok (digest, ⟨record.id, authority⟩) :=
      Record.entry_eq_ok_iff.mpr ⟨read, rfl, given⟩
    refine ⟨⟨⟨named, length, digits, _, entry⟩, unseen, ?_⟩, ?_⟩
    · rw [Record.digest?, entry]
      rintro other same
      obtain rfl : digest = other := Option.some.inj same
      exact unused
    · simp [entriesOf, entry, Except.toOption]
  · rintro ⟨⟨⟨named, length, digits, entry, made⟩, unseen, unused⟩, rfl⟩
    obtain ⟨read, identity, given⟩ := Record.entry_eq_ok_iff.mp made
    refine ⟨(), ⟨named, unseen, length, digits⟩, entry.1, read, (), ?_,
      entry.2.authority, given, ?_⟩
    · exact unused entry.1 (by rw [Record.digest?, made]; rfl)
    · have same : (⟨record.id, entry.2.authority⟩ : Principal) = entry.2 := by
        rw [← identity]
      rw [same]
      simp [entriesOf, made, Except.toOption]

/-- The records of a file after which the loop ends well. -/
structure Loaded (codecs : TextCodecs) (records : List Record) : Prop where
  wellFormed : ∀ record ∈ records, record.WellFormed codecs
  names : (records.map Record.id).Nodup
  hashes : ((entriesOf codecs records).map Prod.fst).Nodup

theorem guarded_iff {records : List Record} :
    Guarded (Admitted codecs) records ↔ Loaded codecs records := by
  unfold Admitted
  rw [Guarded.and_iff, Guarded.and_iff, Guarded.forall_iff, Guarded.nodup_iff,
    Guarded.nodup_iff, filterMap_digest?]
  simp only [List.filterMap_eq_map']
  exact ⟨fun ⟨wellFormed, names, hashes⟩ => ⟨wellFormed, names, hashes⟩,
    fun ⟨wellFormed, names, hashes⟩ => ⟨wellFormed, names, hashes⟩⟩

/-- The order of the records is of no account to the loop. -/
theorem Loaded.perm {records others : List Record}
    (loaded : Loaded codecs records) (reordered : records.Perm others) :
    Loaded codecs others where
  wellFormed record member :=
    loaded.wellFormed record (reordered.mem_iff.mpr member)
  names := (reordered.map Record.id).nodup_iff.mp loaded.names
  hashes :=
    ((reordered.filterMap _).map Prod.fst).nodup_iff.mp loaded.hashes

namespace Principals

variable {fromSlice : List UInt8 → Option File} {sha256 : Sha256}
  {principals : Principals} {records : List Record}

theorem parse_eq_ok_iff {bytes : List UInt8} :
    parse codecs fromSlice bytes = .ok principals ↔
      bytes.length ≤ 1048576 ∧ ∃ file, fromSlice bytes = some file ∧
        (file.version = 1 ∧ file.principals ≠ [] ∧
          file.principals.length ≤ 1024) ∧
        Loaded codecs file.principals ∧
        principals = ⟨entriesOf codecs file.principals⟩ := by
  have loop (records : List Record) (final : Loading) :
      records.foldlM (Loading.add codecs) ⟨[], [], []⟩ = .ok final ↔
        Loaded codecs records ∧ final = loadedBy codecs records := by
    rw [← guarded_iff]
    change records.foldlM (Loading.add codecs) (loadedBy codecs []) = _ ↔ _
    exact foldlM_eq_ok_iff (fun _ => add_eq_ok_iff) records
  simp only [parse, Except.bind_eq_ok_iff, Except.require_eq_ok_iff,
    Except.fetch_eq_ok_iff, Except.pure_eq_ok_iff, loop]
  constructor
  · rintro ⟨_, small, file, read, _, shape, _, ⟨loaded, rfl⟩, rfl⟩
    exact ⟨small, file, read, shape, loaded, rfl⟩
  · rintro ⟨small, file, read, shape, loaded, rfl⟩
    exact ⟨(), small, file, read, (), shape, _, ⟨loaded, rfl⟩, rfl⟩

/-! ## Looking a token up -/

theorem bearerToken_eq_some_iff {authorization token : String} :
    bearerToken authorization = some token ↔
      authorization = "Bearer " ++ token := by
  unfold bearerToken
  constructor
  · intro stripped
    split at stripped
    next leads =>
      obtain ⟨rest, whole⟩ := leads
      rw [← whole] at stripped
      obtain rfl := Option.some.inj stripped
      have kept : (String.ofList
          (("Bearer ".toList ++ rest).drop 7)).toList = rest := by
        rw [String.toList_ofList]
        rfl
      apply String.toList_inj.mp
      rw [String.toList_append, kept, whole]
    next => simp at stripped
  · rintro rfl
    rw [String.toList_append, if_pos (List.prefix_append _ _)]
    change some (String.ofList token.toList) = some token
    rw [String.ofList_toList]

/-- The scan finds the principal of the record with this digest. -/
theorem lastMatch_eq_some_iff (loaded : Loaded codecs records)
    {digest : Digest} {principal : Principal} :
    (entriesOf codecs records).lastMatch
        (fun entry => decide (entry.1 = digest)) Prod.snd = some principal ↔
      ∃ record ∈ records, record.entry codecs = .ok (digest, principal) := by
  rw [(List.alone_of_nodup_map loaded.hashes digest).lastMatch_eq_some_iff]
  simp only [decide_eq_true_eq, mem_entriesOf]
  constructor
  · rintro ⟨⟨_, _⟩, ⟨record, member, made⟩, rfl, rfl⟩
    exact ⟨record, member, made⟩
  · rintro ⟨record, member, made⟩
    exact ⟨_, ⟨record, member, made⟩, rfl, rfl⟩

end Principals

/-- The text carries a valid token whose digest the record names. -/
def Record.Accepts (sha256 : Sha256) (record : Record)
    (authorization : String) : Prop :=
  ∃ token, authorization = "Bearer " ++ token ∧
    (32 ≤ (utf8 token).length ∧ (utf8 token).length ≤ 256) ∧
    (∀ byte ∈ utf8 token, isAsciiGraphic byte = true) ∧
    Hash.hex (sha256 (utf8 token)).bytes = record.tokenSha256

/-- The principal is the one the record describes. -/
def Record.Gives (codecs : TextCodecs) (record : Record)
    (principal : Principal) : Prop :=
  principal.id = record.id ∧
    record.authority codecs = .ok principal.authority

namespace Principals

variable {fromSlice : List UInt8 → Option File} {sha256 : Sha256}
  {records : List Record}

theorem authenticate_eq_ok_iff (loaded : Loaded codecs records)
    {authorization : String} {principal : Principal} :
    (⟨entriesOf codecs records⟩ : Principals).authenticate sha256
        authorization = .ok principal ↔
      ∃ record ∈ records, record.Gives codecs principal ∧
        record.Accepts sha256 authorization := by
  simp only [authenticate, Except.bind_eq_ok_iff, Except.fetch_eq_ok_iff,
    Except.require_eq_ok_iff, bearerToken_eq_some_iff,
    lastMatch_eq_some_iff loaded, List.all_eq_true]
  constructor
  · rintro ⟨token, carried, _, ⟨sized, graphic⟩, record, member, made⟩
    obtain ⟨read, named, given⟩ := Record.entry_eq_ok_iff.mp made
    have shape := loaded.wellFormed record member
    exact ⟨record, member, ⟨named, given⟩, token, carried, sized, graphic,
      (tokenDigest_eq_ok_iff shape.length shape.digits).mp read⟩
  · rintro ⟨record, member, ⟨named, given⟩, token, carried, sized, graphic,
      hashed⟩
    have shape := loaded.wellFormed record member
    have read := (tokenDigest_eq_ok_iff shape.length shape.digits).mpr hashed
    exact ⟨token, carried, (), ⟨sized, graphic⟩, record, member,
      Record.entry_eq_ok_iff.mpr ⟨read, named, given⟩⟩

/-- The order of the records is of no account to the scan. -/
theorem authenticate_perm (loaded : Loaded codecs records)
    {others : List Record} (reordered : records.Perm others)
    (authorization : String) :
    (⟨entriesOf codecs others⟩ : Principals).authenticate sha256
        authorization =
      (⟨entriesOf codecs records⟩ : Principals).authenticate sha256
        authorization := by
  have scan (digest : Digest) :
      (entriesOf codecs others).lastMatch
          (fun entry => decide (entry.1 = digest)) Prod.snd =
        (entriesOf codecs records).lastMatch
          (fun entry => decide (entry.1 = digest)) Prod.snd :=
    (List.alone_of_nodup_map loaded.hashes digest).lastMatch_perm
      (reordered.filterMap _)
  simp only [authenticate, scan]

theorem digest?_of_accepts {record : Record}
    (shape : record.WellFormed codecs) {token : String}
    (accepts : record.Accepts sha256 ("Bearer " ++ token)) :
    record.digest? codecs = some (sha256 (utf8 token)) := by
  obtain ⟨carried, same, _, _, hashed⟩ := accepts
  obtain rfl : carried = token := (String.append_right_inj _).mp same.symm
  obtain ⟨entry, made⟩ := shape.entered
  have read := (Record.entry_eq_ok_iff.mp made).1
  have digest := (tokenDigest_eq_ok_iff shape.length shape.digits).mpr hashed
  rw [digest] at read
  rw [Record.digest?, made]
  exact congrArg some (Except.ok.inj read).symm

/-- No two records accept one text. -/
theorem accepts_alone (loaded : Loaded codecs records)
    (authorization : String) :
    records.Pairwise fun one other =>
      ¬ (one.Accepts sha256 authorization ∧
        other.Accepts sha256 authorization) := by
  have distinct := loaded.hashes
  rw [← filterMap_digest?, List.Nodup, List.pairwise_filterMap] at distinct
  refine distinct.imp_of_mem ?_
  rintro one other member otherMember apart ⟨accepts, otherAccepts⟩
  obtain ⟨token, rfl, _⟩ := id accepts
  exact apart _ (digest?_of_accepts (loaded.wellFormed one member) accepts) _
    (digest?_of_accepts (loaded.wellFormed other otherMember) otherAccepts) rfl

end Principals

/-- An accepted file authenticates exactly the texts whose token one of its
records names, each as the principal of that record with the authority its
columns spell; no two records accept one text, and no order of the records makes
a difference. -/
theorem authentication_exact (codecs : TextCodecs)
    (fromSlice : List UInt8 → Option File) (sha256 : Sha256)
    {bytes : List UInt8} {principals : Principals}
    (accepted : Principals.parse codecs fromSlice bytes = .ok principals) :
    ∃ file, fromSlice bytes = some file ∧
      (∀ authorization principal,
        principals.authenticate sha256 authorization = .ok principal ↔
          ∃ record ∈ file.principals, record.Gives codecs principal ∧
            record.Accepts sha256 authorization) ∧
      (∀ authorization, file.principals.Pairwise fun one other =>
        ¬ (one.Accepts sha256 authorization ∧
          other.Accepts sha256 authorization)) ∧
      (∀ otherBytes otherFile, otherBytes.length ≤ 1048576 →
        fromSlice otherBytes = some otherFile →
        otherFile.version = file.version →
        otherFile.principals.Perm file.principals →
        ∃ others, Principals.parse codecs fromSlice otherBytes = .ok others ∧
          ∀ authorization, others.authenticate sha256 authorization =
            principals.authenticate sha256 authorization) ∧
      ∀ record ∈ file.principals,
        (∃ principal, record.Gives codecs principal) ∧
        ∀ principal, record.Gives codecs principal →
          principal.authority.OfRecord codecs record := by
  obtain ⟨_, file, read, ⟨version, nonempty, few⟩, loaded, rfl⟩ :=
    Principals.parse_eq_ok_iff.mp accepted
  refine ⟨file, read, fun _ _ => Principals.authenticate_eq_ok_iff loaded,
    Principals.accepts_alone loaded, ?_, ?_⟩
  · intro otherBytes otherFile small otherRead sameVersion reordered
    have otherLoaded := loaded.perm reordered.symm
    refine ⟨⟨entriesOf codecs otherFile.principals⟩,
      Principals.parse_eq_ok_iff.mpr ⟨small, otherFile, otherRead,
        ⟨sameVersion.trans version, ?_, reordered.length_eq ▸ few⟩,
        otherLoaded, rfl⟩, ?_⟩
    · intro empty
      rw [empty] at reordered
      exact nonempty reordered.nil_eq.symm
    · exact Principals.authenticate_perm loaded reordered.symm
  · intro record member
    obtain ⟨entry, made⟩ := (loaded.wellFormed record member).entered
    obtain ⟨_, named, given⟩ := Record.entry_eq_ok_iff.mp made
    exact ⟨⟨entry.2, named, given⟩,
      fun _ gives => authority_ofRecord gives.2⟩

end Auth

namespace Sample

open EffectLatch.Sample

def ownerToken : String := "owner-0123456789abcdef0123456789"

def invokerToken : String := "invoker-0123456789abcdef01234567"

def workerToken : String := "worker-0123456789abcdef012345678"

def strangerToken : String := "stranger-0123456789abcdef0123456"

/-- A record of the sample file, its token given by its digest. -/
def record (id role token : String) (tenantId workerId : Option String)
    (allowedGrants allowedTenants : List String) : Auth.Record where
  id := id
  role := role
  tokenSha256 := Hash.hex (checksum (utf8 token)).bytes
  tenantId := tenantId
  workerId := workerId
  allowedGrants := allowedGrants
  allowedTenants := allowedTenants

def tenantText : String := "00000000-0000-0000-0000-000000000001"

def grantText : String := "00000000-0000-0000-0000-00000000000a"

def owner : Auth.Record :=
  record "owner" "owner" ownerToken (some tenantText) none [] []

def invoker : Auth.Record :=
  record "caller" "invoker" invokerToken (some tenantText) none [grantText] []

def worker : Auth.Record :=
  record "runner" "worker" workerToken none (some "worker") [] [tenantText]

def records : List Auth.Record := [owner, invoker, worker]

def recordJson (record : Auth.Record) : Json :=
  let optional (text : Option String) : Json :=
    (text.map Json.string).getD .null
  .object
    [("id", .string record.id), ("role", .string record.role),
      ("token_sha256", .string record.tokenSha256),
      ("tenant_id", optional record.tenantId),
      ("worker_id", optional record.workerId),
      ("allowed_grants", .array (record.allowedGrants.map .string)),
      ("allowed_tenants", .array (record.allowedTenants.map .string))]

/-- The operator's file with the three records. -/
def principalFile : List UInt8 :=
  jsonBytes (.object [("version", .number (.ofNat 1)),
    ("principals", .array (records.map recordJson))])

def textsOfJson : Json → Option (List String)
  | .array texts => texts.mapM Json.asString
  | _ => none

def recordOfJson (json : Json) : Option Auth.Record := do
  match ← json.fields ["id", "role", "token_sha256", "tenant_id", "worker_id",
    "allowed_grants", "allowed_tenants"] with
  | [id, role, tokenSha256, tenantId, workerId, allowedGrants,
      allowedTenants] =>
      pure ⟨← id.asString, ← role.asString, ← tokenSha256.asString,
        ← optionalString tenantId, ← optionalString workerId,
        ← textsOfJson allowedGrants, ← textsOfJson allowedTenants⟩
  | _ => none

/-- A reader of principal files that name every field. -/
def readPrincipals (bytes : List UInt8) : Option Auth.File := do
  let json ← readJson bytes
  match ← json.fields ["version", "principals"] with
  | [version, .array found] =>
      pure ⟨UInt32.ofNat (← version.asNat (2 ^ 32)),
        ← found.mapM recordOfJson⟩
  | _ => none

theorem recordOfJson_recordJson (record : Auth.Record) :
    recordOfJson (recordJson record) = some record := by
  have optional (text : Option String) :
      optionalString ((text.map Json.string).getD .null) = some text := by
    cases text <;> rfl
  have texts (all : List String) :
      textsOfJson (.array (all.map .string)) = some all := by
    induction all with
    | nil => rfl
    | cons text rest ih =>
        simp only [textsOfJson] at ih ⊢
        simp [Json.asString, ih]
  simp [recordOfJson, recordJson, Json.fields, List.lookup_cons,
    Json.asString, optional, texts]

theorem readPrincipals_principalFile :
    readPrincipals principalFile = some ⟨1, records⟩ := by
  have version : (Json.number (.ofNat 1)).asNat (2 ^ 32) = some 1 :=
    Json.asNat_ofNat (by decide)
  simp [-Nat.reducePow, readPrincipals, principalFile, readJson_jsonBytes,
    Json.fields, List.lookup_cons, version, records, recordOfJson_recordJson]

def principals : Auth.Principals where
  entries :=
    [(checksum (utf8 ownerToken), ⟨"owner", .owner 1⟩),
      (checksum (utf8 invokerToken),
        ⟨"caller", .invoker 1 (OrderedSet.ofList [10])⟩),
      (checksum (utf8 workerToken),
        ⟨"runner", .worker "worker" (OrderedSet.ofList [1])⟩)]

theorem principals_parse :
    Auth.Principals.parse textCodecs readPrincipals principalFile =
      .ok principals := by
  have small : principalFile.length ≤ 1048576 := by
    rw [principalFile, length_jsonBytes]
    decide +kernel
  have loaded : (records.foldlM (Auth.Loading.add textCodecs)
      ⟨[], [], []⟩).map Auth.Loading.entries = .ok principals.entries :=
    Except.eq_ok_of_toOption (by decide +kernel)
  obtain ⟨loading, added, made⟩ := Except.map_eq_ok_iff.mp loaded
  simp only [Auth.Principals.parse, Except.require_of small,
    readPrincipals_principalFile, Except.fetch_some, Except.ok_bind_eq, added,
    made]
  rfl

end Sample

namespace Auth

/-- Each of the three tokens is that of its own record, and another is none. -/
theorem authentication_exact_roles :
    Sample.principals.authenticate EffectLatch.Sample.checksum
        ("Bearer " ++ Sample.ownerToken) = .ok ⟨"owner", .owner 1⟩ ∧
      Sample.principals.authenticate EffectLatch.Sample.checksum
        ("Bearer " ++ Sample.invokerToken) =
          .ok ⟨"caller", .invoker 1 (OrderedSet.ofList [10])⟩ ∧
      Sample.principals.authenticate EffectLatch.Sample.checksum
        ("Bearer " ++ Sample.workerToken) =
          .ok ⟨"runner", .worker "worker" (OrderedSet.ofList [1])⟩ ∧
      ∀ principal, Sample.principals.authenticate EffectLatch.Sample.checksum
        ("Bearer " ++ Sample.strangerToken) ≠ .ok principal := by
  obtain ⟨file, read, found, _⟩ := authentication_exact
    EffectLatch.Sample.textCodecs Sample.readPrincipals
    EffectLatch.Sample.checksum Sample.principals_parse
  obtain rfl := Option.some.inj
    (Sample.readPrincipals_principalFile.symm.trans read)
  have given (record : Record) {principal : Principal} {token : String}
      (member : record ∈ Sample.records)
      (gives : record.Gives EffectLatch.Sample.textCodecs principal)
      (fits : (32 ≤ (utf8 token).length ∧ (utf8 token).length ≤ 256) ∧
        ∀ byte ∈ utf8 token, isAsciiGraphic byte = true)
      (named : Hash.hex (EffectLatch.Sample.checksum (utf8 token)).bytes =
        record.tokenSha256) :
      Sample.principals.authenticate EffectLatch.Sample.checksum
        ("Bearer " ++ token) = .ok principal :=
    (found _ _).mpr ⟨record, member, gives, token, rfl, fits.1, fits.2, named⟩
  refine ⟨?_, ?_, ?_, ?_⟩
  · exact given Sample.owner (by simp [Sample.records])
      ⟨rfl, Except.eq_ok_of_toOption (by decide +kernel)⟩ (by decide +kernel)
      rfl
  · exact given Sample.invoker (by simp [Sample.records])
      ⟨rfl, Except.eq_ok_of_toOption (by decide +kernel)⟩ (by decide +kernel)
      rfl
  · exact given Sample.worker (by simp [Sample.records])
      ⟨rfl, Except.eq_ok_of_toOption (by decide +kernel)⟩ (by decide +kernel)
      rfl
  · intro principal accepted
    obtain ⟨record, member, _, token, spelled, _, _, named⟩ :=
      (found _ _).mp accepted
    obtain rfl : Sample.strangerToken = token := Option.some.inj
      ((Principals.bearerToken_eq_some_iff.mpr rfl).symm.trans
        (Principals.bearerToken_eq_some_iff.mpr spelled))
    have strange : ∀ record ∈ Sample.records,
        Hash.hex (EffectLatch.Sample.checksum
          (utf8 Sample.strangerToken)).bytes ≠ record.tokenSha256 := by
      decide +kernel
    exact strange record member named

end Auth

end Control

end EffectLatch
