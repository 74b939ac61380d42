import EffectLatch.DomainEffects
import EffectLatch.DomainGrants

/-!
# Contract hash framing

Every digest is SHA-256 of exact bytes: a domain text closed by one NUL,
fixed-width fields, and variable fields behind a 64-bit big-endian length.
SHA-256 itself is a parameter.
-/

namespace EffectLatch

/-- The digest function of the `sha2` crate. -/
abbrev Sha256 := List UInt8 → Digest

/-- The `width` low bytes of a value, most significant first. -/
def bigEndian : Nat → Nat → List UInt8
  | 0, _ => []
  | width + 1, value =>
      bigEndian width (value / 256) ++ [UInt8.ofNat (value % 256)]

/-- `Uuid::as_bytes`. -/
def uuidBytes (id : Uuid) : List UInt8 := bigEndian 16 id.val

namespace Hash

/-- Two lower-case digits a byte. -/
def hex (bytes : List UInt8) : String :=
  String.ofList (bytes.flatMap fun byte =>
    [hexDigit (byte.toNat / 16), hexDigit (byte.toNat % 16)])
where
  hexDigit (digit : Nat) : Char := "0123456789abcdef".toList.getD digit '0'

def frame (bytes : List UInt8) : List UInt8 :=
  bigEndian 8 bytes.length ++ bytes

def runPreimage (request : NormalizedRun) : List UInt8 :=
  utf8 "effectlatch/run/v1\x00" ++ request.moduleDigest.bytes ++
    uuidBytes request.grantId ++ frame request.input ++
    bigEndian 8 request.limits.fuel.toNat ++
    bigEndian 8 request.limits.memoryBytes.toNat ++
    bigEndian 8 request.limits.wallMs.toNat ++
    bigEndian 8 request.limits.maxEffects.toNat

def run (sha256 : Sha256) (request : NormalizedRun) : Digest :=
  sha256 (runPreimage request)

def effectPreimage (request : EffectRequest) : List UInt8 :=
  utf8 "effectlatch/effect/v1\x00" ++ frame (utf8 request.action) ++
    frame (utf8 request.destination) ++
    frame (utf8 request.arguments.project) ++
    frame (utf8 request.arguments.title) ++ frame (utf8 request.arguments.body)

def effect (sha256 : Sha256) (request : EffectRequest) : Digest :=
  sha256 (effectPreimage request)

def providerPreimage (tenant run : Uuid) (ordinal : UInt64) : List UInt8 :=
  utf8 "effectlatch/provider/v1\x00" ++ uuidBytes tenant ++ uuidBytes run ++
    bigEndian 8 ordinal.toNat

def provider (sha256 : Sha256) (tenant run : Uuid) (ordinal : UInt64) :
    Digest :=
  sha256 (providerPreimage tenant run ordinal)

def eventPreimage (tenant run : Uuid) (seq : Nat) (previous : Digest)
    (kind : String) (payload : List UInt8) : List UInt8 :=
  utf8 "effectlatch/event/v1\x00" ++ uuidBytes tenant ++ uuidBytes run ++
    bigEndian 8 seq ++ previous.bytes ++ frame (utf8 kind) ++ frame payload

def event (sha256 : Sha256) (tenant run : Uuid) (seq : Nat)
    (previous : Digest) (kind : String) (payload : List UInt8) : Digest :=
  sha256 (eventPreimage tenant run seq previous kind payload)

/-- The bytes of a checkpoint, which are not hashed here. -/
def checkpoint (tenant run : Uuid) (seq : UInt64) (terminal : Digest) :
    List UInt8 :=
  utf8 "effectlatch/checkpoint/v1\x00" ++ uuidBytes tenant ++ uuidBytes run ++
    bigEndian 8 seq.toNat ++ terminal.bytes

/-- A counted list of framed texts in set order. -/
def frameSet (values : OrderedSet String) : List UInt8 :=
  bigEndian 8 values.card ++ values.toList.flatMap fun value =>
    frame (utf8 value)

def grantPreimage (parent : Option Uuid) (authority : Authority) :
    List UInt8 :=
  utf8 "effectlatch/grant/v1\x00" ++
    (match parent with
      | some parent => 1 :: uuidBytes parent
      | none => [0]) ++
    frameSet authority.actions ++ frameSet authority.destinations ++
    frameSet authority.projects ++
    bigEndian 8 authority.expiresAtMs.toUInt64.toNat ++
    bigEndian 8 authority.maxEffects.toNat

def grant (sha256 : Sha256) (parent : Option Uuid) (authority : Authority) :
    Digest :=
  sha256 (grantPreimage parent authority)

def grantRevocationPreimage (grant : Uuid) (reason : String) : List UInt8 :=
  utf8 "effectlatch/grant-revocation/v1\x00" ++ uuidBytes grant ++
    frame (utf8 reason)

def grantRevocation (sha256 : Sha256) (grant : Uuid) (reason : String) :
    Digest :=
  sha256 (grantRevocationPreimage grant reason)

end Hash

end EffectLatch
