import EffectLatch.DomainHashing
import EffectLatch.DomainRuns
import EffectLatch.GuardedFolds
import EffectLatch.LastMatches

/-!
# Principals of the control plane

The operator's principal file and the lookup of a bearer token in it.  The JSON
reader, the UUID texts and SHA-256 belong to other crates and are parameters.
-/

namespace EffectLatch

namespace Control

namespace Auth

inductive AuthError where
  | configuration
  | unauthorized
deriving DecidableEq

inductive Authority where
  | owner (tenant : Uuid)
  | invoker (tenant : Uuid) (grants : OrderedSet Uuid)
  | worker (workerId : String) (tenants : OrderedSet Uuid)
deriving DecidableEq

structure Principal where
  id : String
  authority : Authority
deriving DecidableEq

structure Record where
  id : String
  role : String
  tokenSha256 : String
  tenantId : Option String
  workerId : Option String
  allowedGrants : List String
  allowedTenants : List String
deriving DecidableEq

structure File where
  version : UInt32
  principals : List Record

def identifier (value : String) : Bool := shortIdentifier value

def canonicalUuid (codecs : TextCodecs) (value : String) :
    Except AuthError Uuid := do
  let id ← Except.fetch (codecs.parseUuid value) .configuration
  Except.require (codecs.uuidText id = value) .configuration
  pure id

def ids (codecs : TextCodecs) (values : List String) :
    Except AuthError (OrderedSet Uuid) := do
  Except.require (values.length ≤ 1024) .configuration
  let found ← values.mapM (canonicalUuid codecs)
  let result := OrderedSet.ofList found
  Except.require (result.card = values.length) .configuration
  pure result

/-- `char::to_digit(16)`. -/
def toDigit (byte : UInt8) : Option Nat :=
  if 0x30 ≤ byte ∧ byte ≤ 0x39 then some (byte.toNat - 0x30)
  else if 0x61 ≤ byte ∧ byte ≤ 0x66 then some (byte.toNat - 0x61 + 10)
  else if 0x41 ≤ byte ∧ byte ≤ 0x46 then some (byte.toNat - 0x41 + 10)
  else none

/-- `u8::from_str_radix(_, 16)`. -/
def fromStrRadix (text : List UInt8) : Option UInt8 :=
  if text = [] then none
  else
    -- a plus sign may stand in front, but not alone
    let digits :=
      if text.head? = some 0x2b ∧ text.length ≠ 1 then text.tail else text
    (digits.foldlM (fun value byte => do
      let digit ← toDigit byte
      if value * 16 + digit < 256 then some (value * 16 + digit) else none)
      0).map UInt8.ofNat

theorem length_of_mapM {decode : Nat → Except AuthError UInt8}
    {bytes : List UInt8}
    (decoded : (List.range 32).mapM decode = .ok bytes) :
    bytes.length = 32 := by
  rw [← (mapM_eq_ok_iff.mp decoded).length_eq, List.length_range]

/-- The digest of a text, two characters a byte. -/
def tokenDigest (text : String) : Except AuthError Digest :=
  match decoded : (List.range 32).mapM fun index =>
      Except.fetch (fromStrRadix (((utf8 text).drop (index * 2)).take 2))
        AuthError.configuration with
  | .ok bytes => .ok ⟨bytes, length_of_mapM decoded⟩
  | .error failure => .error failure

/-- The authority a record gives by its role. -/
def Record.authority (codecs : TextCodecs) (record : Record) :
    Except AuthError Authority :=
  if (record.role = "owner" ∨ record.role = "invoker") ∧
      record.workerId = none ∧ record.allowedTenants = [] then do
    let text ← Except.fetch record.tenantId .configuration
    let tenant ← canonicalUuid codecs text
    let grants ← ids codecs record.allowedGrants
    if record.role = "owner" then do
      Except.require (grants.card = 0) .configuration
      pure (.owner tenant)
    else
      pure (.invoker tenant grants)
  else if record.role = "worker" ∧ record.tenantId = none ∧
      record.allowedGrants = [] then do
    let workerId ← Except.fetch record.workerId .configuration
    let tenants ← ids codecs record.allowedTenants
    Except.require (identifier workerId = true ∧ tenants.card ≠ 0)
      .configuration
    pure (.worker workerId tenants)
  else
    .error .configuration

/-- The names and digests seen so far, and the entries made of them. -/
structure Loading where
  names : List String
  hashes : List Digest
  entries : List (Digest × Principal)

/-- One turn of the loop over the records. -/
def Loading.add (codecs : TextCodecs) (loading : Loading) (record : Record) :
    Except AuthError Loading := do
  Except.require
    (identifier record.id = true ∧ record.id ∉ loading.names ∧
      (utf8 record.tokenSha256).length = 64 ∧
      (utf8 record.tokenSha256).all isHexByte = true)
    .configuration
  let digest ← tokenDigest record.tokenSha256
  Except.require (digest ∉ loading.hashes) .configuration
  let authority ← record.authority codecs
  pure
    { names := loading.names ++ [record.id]
      hashes := loading.hashes ++ [digest]
      entries := loading.entries ++ [(digest, ⟨record.id, authority⟩)] }

structure Principals where
  entries : List (Digest × Principal)
deriving DecidableEq

namespace Principals

def parse (codecs : TextCodecs) (fromSlice : List UInt8 → Option File)
    (bytes : List UInt8) : Except AuthError Principals := do
  Except.require (bytes.length ≤ 1048576) .configuration
  let file ← Except.fetch (fromSlice bytes) .configuration
  Except.require
    (file.version = 1 ∧ file.principals ≠ [] ∧ file.principals.length ≤ 1024)
    .configuration
  let loaded ← file.principals.foldlM (Loading.add codecs) ⟨[], [], []⟩
  pure ⟨loaded.entries⟩

/-- `strip_prefix("Bearer ")`. -/
def bearerToken (authorization : String) : Option String :=
  if "Bearer ".toList <+: authorization.toList then
    some (String.ofList (authorization.toList.drop 7))
  else none

def authenticate (sha256 : Sha256) (principals : Principals)
    (authorization : String) : Except AuthError Principal := do
  let token ← Except.fetch (bearerToken authorization) .unauthorized
  Except.require
    ((32 ≤ (utf8 token).length ∧ (utf8 token).length ≤ 256) ∧
      (utf8 token).all isAsciiGraphic = true)
    .unauthorized
  -- every entry is compared, and the last match stays
  let digest := sha256 (utf8 token)
  Except.fetch
    (principals.entries.lastMatch (fun entry => decide (entry.1 = digest))
      Prod.snd)
    .unauthorized

end Principals

end Auth

end Control

end EffectLatch
