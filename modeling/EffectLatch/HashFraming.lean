import EffectLatch.DomainHashingLaws
import EffectLatch.PrefixCodes

/-!
# Preimages are injective and their domains are apart

Every byte string the contract hashes or signs opens with the text of its
domain, closed by the only NUL in it, and goes on with self-delimiting fields.
-/

namespace EffectLatch

namespace Hash

/-- The arguments of one of the contract's hash functions. -/
inductive Preimage where
  | run (request : NormalizedRun)
  | effect (request : EffectRequest)
  | provider (tenant run : Uuid) (ordinal : UInt64)
  | event (tenant run : Uuid) (seq : UInt64) (previous : Digest)
      (kind : String) (payload : List UInt8)
  | checkpoint (tenant run : Uuid) (seq : UInt64) (terminal : Digest)
  | grant (parent : Option Uuid) (authority : Authority)
  | grantRevocation (grant : Uuid) (reason : String)
deriving DecidableEq

namespace Preimage

def bytes : Preimage → List UInt8
  | run request => runPreimage request
  | effect request => effectPreimage request
  | provider tenant source ordinal => providerPreimage tenant source ordinal
  | event tenant source seq previous kind payload =>
      eventPreimage tenant source seq.toNat previous kind payload
  | checkpoint tenant source seq terminal =>
      Hash.checkpoint tenant source seq terminal
  | grant parent authority => grantPreimage parent authority
  | grantRevocation revoked reason => grantRevocationPreimage revoked reason

/-- The text is shorter than a 64-bit length can tell. -/
def FitsText (text : String) : Prop := (utf8 text).length < 2 ^ 64

def FitsSet (values : OrderedSet String) : Prop :=
  values.card < 2 ^ 64 ∧ ∀ value ∈ values.toList, FitsText value

/-- Every length in the preimage is below `2 ^ 64`. -/
def Fits : Preimage → Prop
  | run request => request.input.length < 2 ^ 64
  | effect request =>
      FitsText request.action ∧ FitsText request.destination ∧
        FitsText request.arguments.project ∧
        FitsText request.arguments.title ∧ FitsText request.arguments.body
  | provider _ _ _ => True
  | event _ _ _ _ kind payload => FitsText kind ∧ payload.length < 2 ^ 64
  | checkpoint _ _ _ _ => True
  | grant _ authority =>
      FitsSet authority.actions ∧ FitsSet authority.destinations ∧
        FitsSet authority.projects
  | grantRevocation _ reason => FitsText reason

/-- The arguments that are encoded: of an effect, all but the ordinal. -/
def encoded : Preimage → Preimage
  | effect request => effect { request with ordinal := 0 }
  | other => other

/-- The text that names the domain. -/
def domain : Preimage → String
  | run _ => "effectlatch/run/v1"
  | effect _ => "effectlatch/effect/v1"
  | provider _ _ _ => "effectlatch/provider/v1"
  | event _ _ _ _ _ _ => "effectlatch/event/v1"
  | checkpoint _ _ _ _ => "effectlatch/checkpoint/v1"
  | grant _ _ => "effectlatch/grant/v1"
  | grantRevocation _ _ => "effectlatch/grant-revocation/v1"

end Preimage

open SelfDelimiting

variable {α : Type} {valid : α → Prop}

/-- A number of eight bytes. -/
theorem number_code {few : Nat → Prop} (small : ∀ value, few value → value < 2 ^ 64) :
    SelfDelimiting few (bigEndian 8) fun value => value :=
  fixed 8 (fun value _ => length_bigEndian 8 value)
    fun first second firstFew secondFew same =>
      bigEndian_inj same (small first firstFew) (small second secondFew)

theorem uint64_code (field : α → UInt64) :
    SelfDelimiting valid (fun value => bigEndian 8 (field value).toNat) field :=
  fixed 8 (fun _ _ => length_bigEndian 8 _)
    fun first second _ _ same => UInt64.toNat_inj.mp
      (bigEndian_inj same (field first).toNat_lt (field second).toNat_lt)

theorem uuid_code (field : α → Uuid) :
    SelfDelimiting valid (fun value => uuidBytes (field value)) field :=
  fixed 16 (fun _ _ => length_bigEndian 16 _)
    fun _ _ _ _ same => uuidBytes_injective same

theorem digest_code (field : α → Digest) :
    SelfDelimiting valid (fun value => (field value).bytes) field :=
  fixed 32 (fun value _ => (field value).length_eq)
    fun _ _ _ _ same => Digest.ext_bytes same

theorem frame_code (field : α → List UInt8)
    (fits : ∀ value, valid value → (field value).length < 2 ^ 64) :
    SelfDelimiting valid (fun value => frame (field value)) field :=
  fun first second firstValid secondValid _ _ same =>
    frame_append_inj same (fits first firstValid) (fits second secondValid)

theorem text_code (field : α → String)
    (fits : ∀ value, valid value → Preimage.FitsText (field value)) :
    SelfDelimiting valid (fun value => frame (utf8 (field value))) field :=
  (frame_code (fun value => utf8 (field value)) fits).determines
    fun _ _ _ _ same => utf8_injective same

theorem set_code (field : α → OrderedSet String)
    (fits : ∀ value, valid value → Preimage.FitsSet (field value)) :
    SelfDelimiting valid (fun value => frameSet (field value)) field := by
  have text : SelfDelimiting Preimage.FitsText
      (fun text => frame (utf8 text)) fun text => text :=
    text_code (fun text => text) fun _ fits => fits
  have texts := text.counted (number_code fun _ few => few)
  apply (texts.part (fun value => (field value).toList) fits).determines
  intro first second _ _ same
  rw [List.map_id', List.map_id'] at same
  exact OrderedSet.ext_toList same

/-- A missing parent is told by its tag. -/
theorem parent_code (field : α → Option Uuid) :
    SelfDelimiting valid
      (fun value => match field value with
        | some parent => 1 :: uuidBytes parent
        | none => [0]) field := by
  have uuid : SelfDelimiting (fun _ => True) uuidBytes fun id => id :=
    uuid_code fun id => id
  have code := uuid.tagged (show (1 : UInt8) ≠ 0 by decide)
    (fun value => match value with
      | some parent => 1 :: uuidBytes parent
      | none => [0]) (fun _ => rfl) rfl
  apply (code.part field fun _ _ _ _ => trivial).determines
  intro first second _ _ same
  simpa using same

theorem run_code :
    SelfDelimiting (fun request : NormalizedRun =>
      request.input.length < 2 ^ 64) runPreimage fun request => request := by
  have code := (((((((constant _ (utf8 "effectlatch/run/v1\x00")).append
    (digest_code NormalizedRun.moduleDigest)).append
    (uuid_code NormalizedRun.grantId)).append
    (frame_code NormalizedRun.input fun _ fits => fits)).append
    (uint64_code fun request => request.limits.fuel)).append
    (uint64_code fun request => request.limits.memoryBytes)).append
    (uint64_code fun request => request.limits.wallMs)).append
    (uint64_code fun request => request.limits.maxEffects)
  apply code.determines
  rintro ⟨_, _, _, _, _, _, _⟩ ⟨_, _, _, _, _, _, _⟩ _ _ same
  simp only [Prod.mk.injEq] at same
  simp only [NormalizedRun.mk.injEq, Limits.mk.injEq]
  tauto

theorem effect_code :
    SelfDelimiting (fun request => (Preimage.effect request).Fits)
      effectPreimage
      fun request => (Preimage.effect request).encoded := by
  let fits (request : EffectRequest) : Prop := (Preimage.effect request).Fits
  have action : SelfDelimiting fits _ _ :=
    text_code EffectRequest.action fun _ fits => fits.1
  have destination : SelfDelimiting fits _ _ :=
    text_code EffectRequest.destination fun _ fits => fits.2.1
  have project : SelfDelimiting fits _ _ :=
    text_code (fun request => request.arguments.project)
      fun _ fits => fits.2.2.1
  have title : SelfDelimiting fits _ _ :=
    text_code (fun request => request.arguments.title)
      fun _ fits => fits.2.2.2.1
  have body : SelfDelimiting fits _ _ :=
    text_code (fun request => request.arguments.body)
      fun _ fits => fits.2.2.2.2
  have code := (((((constant _ (utf8 "effectlatch/effect/v1\x00")).append
    action).append destination).append project).append title).append body
  apply code.determines
  rintro ⟨_, _, _, _, _, _⟩ ⟨_, _, _, _, _, _⟩ _ _ same
  simp only [Prod.mk.injEq] at same
  simp only [Preimage.encoded, Preimage.effect.injEq, EffectRequest.mk.injEq,
    TicketArguments.mk.injEq]
  tauto

theorem provider_code :
    SelfDelimiting (fun _ => True)
      (fun key : Uuid × Uuid × UInt64 => providerPreimage key.1 key.2.1 key.2.2)
      fun key => key := by
  have code := (((constant (fun _ : Uuid × Uuid × UInt64 => True)
    (utf8 "effectlatch/provider/v1\x00")).append
    (uuid_code fun key => key.1)).append
    (uuid_code fun key => key.2.1)).append (uint64_code fun key => key.2.2)
  apply code.determines
  rintro ⟨_, _, _⟩ ⟨_, _, _⟩ _ _ same
  simp only [Prod.mk.injEq] at same ⊢
  tauto

theorem checkpoint_code :
    SelfDelimiting (fun _ => True)
      (fun head : Uuid × Uuid × UInt64 × Digest =>
        checkpoint head.1 head.2.1 head.2.2.1 head.2.2.2)
      fun head => head := by
  have code := ((((constant (fun _ : Uuid × Uuid × UInt64 × Digest => True)
    (utf8 "effectlatch/checkpoint/v1\x00")).append
    (uuid_code fun head => head.1)).append
    (uuid_code fun head => head.2.1)).append
    (uint64_code fun head => head.2.2.1)).append
    (digest_code fun head => head.2.2.2)
  apply code.determines
  rintro ⟨_, _, _, _⟩ ⟨_, _, _, _⟩ _ _ same
  simp only [Prod.mk.injEq] at same ⊢
  tauto

theorem event_code :
    SelfDelimiting
      (fun entry : Uuid × Uuid × UInt64 × Digest × String × List UInt8 =>
        Preimage.FitsText entry.2.2.2.2.1 ∧
          entry.2.2.2.2.2.length < 2 ^ 64)
      (fun entry => eventPreimage entry.1 entry.2.1 entry.2.2.1.toNat
        entry.2.2.2.1 entry.2.2.2.2.1 entry.2.2.2.2.2)
      fun entry => entry := by
  have code := ((((((constant
    (fun entry : Uuid × Uuid × UInt64 × Digest × String × List UInt8 =>
      Preimage.FitsText entry.2.2.2.2.1 ∧ entry.2.2.2.2.2.length < 2 ^ 64)
    (utf8 "effectlatch/event/v1\x00")).append
    (uuid_code fun entry => entry.1)).append
    (uuid_code fun entry => entry.2.1)).append
    (uint64_code fun entry => entry.2.2.1)).append
    (digest_code fun entry => entry.2.2.2.1)).append
    (text_code (fun entry => entry.2.2.2.2.1) fun _ fits => fits.1)).append
    (frame_code (fun entry => entry.2.2.2.2.2) fun _ fits => fits.2)
  apply code.determines
  rintro ⟨_, _, _, _, _, _⟩ ⟨_, _, _, _, _, _⟩ _ _ same
  simp only [Prod.mk.injEq] at same ⊢
  tauto

/-- The casted bits tell the signed number. -/
theorem int64_ext {first second : Int64}
    (same : first.toUInt64 = second.toUInt64) : first = second := by
  cases first
  cases second
  exact congrArg Int64.ofUInt64 same

theorem grant_code :
    SelfDelimiting
      (fun link : Option Uuid × Authority =>
        (Preimage.grant link.1 link.2).Fits)
      (fun link => grantPreimage link.1 link.2) fun link => link := by
  let fits (link : Option Uuid × Authority) : Prop :=
    (Preimage.grant link.1 link.2).Fits
  have actions : SelfDelimiting fits _ _ :=
    set_code (fun link => link.2.actions) fun _ fits => fits.1
  have destinations : SelfDelimiting fits _ _ :=
    set_code (fun link => link.2.destinations) fun _ fits => fits.2.1
  have projects : SelfDelimiting fits _ _ :=
    set_code (fun link => link.2.projects) fun _ fits => fits.2.2
  have code := ((((((constant _ (utf8 "effectlatch/grant/v1\x00")).append
    (parent_code fun link => link.1)).append actions).append
    destinations).append projects).append
    (uint64_code fun link => link.2.expiresAtMs.toUInt64)).append
    (uint64_code fun link => link.2.maxEffects)
  apply code.determines
  rintro ⟨_, _, _, _, _, _⟩ ⟨_, _, _, _, _, _⟩ _ _ same
  simp only [Prod.mk.injEq] at same
  simp only [Prod.mk.injEq, Authority.mk.injEq]
  have expiry := int64_ext same.1.2
  tauto

theorem grantRevocation_code :
    SelfDelimiting
      (fun order : Uuid × String => Preimage.FitsText order.2)
      (fun order => grantRevocationPreimage order.1 order.2)
      fun order => order := by
  have code := ((constant (fun order : Uuid × String =>
    Preimage.FitsText order.2)
    (utf8 "effectlatch/grant-revocation/v1\x00")).append
    (uuid_code fun order => order.1)).append
    (text_code (fun order => order.2) fun _ fits => fits)
  apply code.determines
  rintro ⟨_, _⟩ ⟨_, _⟩ _ _ same
  simp only [Prod.mk.injEq] at same ⊢
  tauto

namespace Preimage

/-- Every preimage opens with the text of its domain and a NUL. -/
theorem bytes_eq_domain (preimage : Preimage) :
    ∃ body, preimage.bytes = utf8 preimage.domain ++ 0 :: body := by
  have opening : ∃ body,
      preimage.bytes = utf8 (preimage.domain ++ "\x00") ++ body := by
    cases preimage with
    | run request => exact ⟨_, by
        simp only [bytes, runPreimage, List.append_assoc]; rfl⟩
    | effect request => exact ⟨_, by
        simp only [bytes, effectPreimage, List.append_assoc]; rfl⟩
    | provider tenant source ordinal => exact ⟨_, by
        simp only [bytes, providerPreimage, List.append_assoc]; rfl⟩
    | event tenant source seq previous kind payload => exact ⟨_, by
        simp only [bytes, eventPreimage, List.append_assoc]; rfl⟩
    | checkpoint tenant source seq terminal => exact ⟨_, by
        simp only [bytes, Hash.checkpoint, List.append_assoc]; rfl⟩
    | grant parent authority => exact ⟨_, by
        simp only [bytes, grantPreimage, List.append_assoc]; rfl⟩
    | grantRevocation revoked reason => exact ⟨_, by
        simp only [bytes, grantRevocationPreimage, List.append_assoc]; rfl⟩
  obtain ⟨body, opened⟩ := opening
  exact ⟨body, by rw [opened, utf8_append, List.append_assoc]; rfl⟩

theorem nul_not_mem_domain (preimage : Preimage) :
    0 ∉ utf8 preimage.domain := by
  cases preimage <;> (simp only [domain]; decide)

/-- Equal bytes come from one domain. -/
theorem domain_eq_of_bytes_eq {first second : Preimage}
    (same : first.bytes = second.bytes) : first.domain = second.domain := by
  obtain ⟨body, bytes⟩ := first.bytes_eq_domain
  obtain ⟨other, otherBytes⟩ := second.bytes_eq_domain
  rw [bytes, otherBytes] at same
  apply utf8_injective
  exact (List.append_mark_inj first.nul_not_mem_domain
    second.nul_not_mem_domain same).1

/-- Preimages of one domain tell what they encode. -/
theorem encoded_eq_of_bytes_eq {first second : Preimage}
    (firstFits : first.Fits) (secondFits : second.Fits)
    (same : first.bytes = second.bytes) : first.encoded = second.encoded := by
  have domains := domain_eq_of_bytes_eq same
  cases first with
  | run request =>
      cases second with
      | run other =>
          exact congrArg run (run_code.inj firstFits secondFits same)
      | _ => simp [domain] at domains
  | effect request =>
      cases second with
      | effect other => exact effect_code.inj firstFits secondFits same
      | _ => simp [domain] at domains
  | provider tenant source ordinal =>
      cases second with
      | provider otherTenant otherSource otherOrdinal =>
          have same : (tenant, source, ordinal) =
              (otherTenant, otherSource, otherOrdinal) :=
            provider_code.inj trivial trivial same
          simpa [encoded] using same
      | _ => simp [domain] at domains
  | event tenant source seq previous kind payload =>
      cases second with
      | event otherTenant otherSource otherSeq otherPrevious otherKind
          otherPayload =>
          have same : (tenant, source, seq, previous, kind, payload) =
              (otherTenant, otherSource, otherSeq, otherPrevious, otherKind,
                otherPayload) :=
            event_code.inj firstFits secondFits same
          simpa [encoded] using same
      | _ => simp [domain] at domains
  | checkpoint tenant source seq terminal =>
      cases second with
      | checkpoint otherTenant otherSource otherSeq otherTerminal =>
          have same : (tenant, source, seq, terminal) =
              (otherTenant, otherSource, otherSeq, otherTerminal) :=
            checkpoint_code.inj trivial trivial same
          simpa [encoded] using same
      | _ => simp [domain] at domains
  | grant parent authority =>
      cases second with
      | grant otherParent otherAuthority =>
          have same : (parent, authority) = (otherParent, otherAuthority) :=
            grant_code.inj firstFits secondFits same
          simpa [encoded] using same
      | _ => simp [domain] at domains
  | grantRevocation revoked reason =>
      cases second with
      | grantRevocation otherRevoked otherReason =>
          have same : (revoked, reason) = (otherRevoked, otherReason) :=
            grantRevocation_code.inj firstFits secondFits same
          simpa [encoded] using same
      | _ => simp [domain] at domains

/-- What is not encoded leaves no trace. -/
@[simp] theorem bytes_encoded (preimage : Preimage) :
    preimage.encoded.bytes = preimage.bytes := by
  cases preimage <;> rfl

end Preimage

/-- Two preimages are equal only when one function builds both from the same
encoded arguments, and different functions never build the same bytes. -/
theorem preimages_apart (first second : Preimage) :
    (first.bytes = second.bytes → first.domain = second.domain) ∧
      (first.Fits → second.Fits →
        (first.bytes = second.bytes ↔ first.encoded = second.encoded)) := by
  refine ⟨Preimage.domain_eq_of_bytes_eq, ?_⟩
  intro firstFits secondFits
  constructor
  · exact Preimage.encoded_eq_of_bytes_eq firstFits secondFits
  · intro same
    rw [← first.bytes_encoded, same, second.bytes_encoded]

/-- Two revocations whose texts hold NULs. -/
theorem preimages_apart_nul :
    let first := Preimage.grantRevocation 7 "a\x00"
    let second := Preimage.grantRevocation 7 "\x00a"
    first.domain = second.domain ∧ first.bytes ≠ second.bytes := by
  refine ⟨rfl, ?_⟩
  intro same
  have fits (text : String) (short : (utf8 text).length = 2) :
      (Preimage.grantRevocation 7 text).Fits := by
    rw [Preimage.Fits, Preimage.FitsText, short]
    decide
  have told := ((preimages_apart (.grantRevocation 7 "a\x00")
    (.grantRevocation 7 "\x00a")).2 (fits _ rfl) (fits _ rfl)).mp same
  simp [Preimage.encoded] at told

end Hash

end EffectLatch
