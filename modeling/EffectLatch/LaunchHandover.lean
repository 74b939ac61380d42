import EffectLatch.RuntimeLaunch

/-!
# The job a runner is started with

A supervisor sends the start frame exactly for valid limits and a job that
fits, and the runner then executes that job under the supervisor's own caps: it refuses
nothing that the supervisor let through.
-/

namespace EffectLatch

theorem toStr_utf8 (text : String) : toStr (utf8 text) = some text :=
  fromUTF8?_utf8 text

theorem unsignedDigits_toDigits (value : Nat) :
    unsignedDigits (Nat.toDigits 10 value) = Nat.toDigits 10 value := by
  unfold unsignedDigits
  split
  · next rest same =>
    have member : '+' ∈ Nat.toDigits 10 value := by
      rw [same]
      exact List.mem_cons_self
    have digit : '+'.isDigit = true :=
      Nat.isDigit_of_mem_toDigits (by omega) (by omega) member
    exact absurd digit (by decide)
  · rfl

theorem parseUnsigned_decimal {bound value : Nat} (below : value < bound) :
    parseUnsigned bound (decimal value) = some value := by
  have digits : (Nat.toDigits 10 value).all Char.isDigit = true :=
    List.all_eq_true.mpr fun _ member =>
      Nat.isDigit_of_mem_toDigits (by omega) (by omega) member
  simp only [parseUnsigned, decimal, String.toList_ofList,
    unsignedDigits_toDigits, digits, ne_eq, Nat.toDigits_ne_nil,
    not_false_eq_true, and_self, if_true, Nat.ofDigitChars_ten_toDigits,
    below]

namespace Launch

open Ipc

/-- What the start relies on: the frames' codec is standard, and limits are
read back from the JSON that is written for them. -/
structure Codec.Standard (codec : Codec) : Prop where
  frames : codec.toStartCodec.Standard
  limitsText : ∀ limits, codec.limitsText limits = jsonBytes limits.toJson
  limits : ∀ limits : Limits,
    codec.limits (jsonBytes limits.toJson) = some limits

variable {codec : Codec} {supervisor : Supervisor}
  {module input : List UInt8} {limits : Limits}

theorem length_of_canonicalBase64 (standard : codec.Standard)
    {bytes decoded : List UInt8} {maxBytes : Nat}
    (checked : canonicalBase64 codec.toCodec (base64Text bytes) maxBytes =
      .ok decoded) : bytes.length ≤ maxBytes := by
  simp only [canonicalBase64, standard.frames.fromBase64,
    Except.bind_eq_ok_iff, Except.require_eq_ok_iff, Except.fetch_eq_ok_iff,
    Except.pure_eq_ok_iff, Option.some.injEq] at checked
  obtain ⟨_, _, _, rfl, _, ⟨few, _⟩, _⟩ := checked
  exact few

/-- The frame for a job passes its check exactly when the job fits. -/
theorem check_startOf_iff (standard : codec.Standard) :
    (startOf codec.toCodec module input limits).check codec.toCodec = .ok () ↔
      module.length ≤ moduleBytes ∧ input.length ≤ payloadBytes := by
  simp only [StartFrame.check, startOf, standard.frames.base64]
  constructor
  · intro checked
    simp only [Except.bind_eq_ok_iff] at checked
    obtain ⟨_, _, _, small, _, few, _⟩ := checked
    exact ⟨length_of_canonicalBase64 standard small,
      length_of_canonicalBase64 standard few⟩
  · rintro ⟨small, few⟩
    rw [canonicalBase64_base64Text standard.frames small,
      canonicalBase64_base64Text standard.frames few]
    rfl

/-- What is written when a runner is started. -/
theorem Supervisor.start_eq_ok_iff (standard : codec.Standard)
    {arguments : List (List UInt8)} {bytes : List UInt8} :
    supervisor.start codec module input limits true true =
        .ok (arguments, bytes) ↔
      limits.Within supervisor.operatorCaps ∧
      (module.length ≤ moduleBytes ∧ input.length ≤ payloadBytes) ∧
      writeFrame
          (codec.startFrameText (startOf codec.toCodec module input limits))
          startFrameBytes = .ok bytes ∧
      spawnArguments codec supervisor.runner supervisor.operatorCaps
        supervisor.abiCaps = arguments := by
  simp only [Supervisor.start, Except.bind_eq_ok_iff,
    Except.mapError_eq_ok_iff, Limits.validate_eq_ok_iff,
    Except.require_eq_ok_iff, Except.pure_eq_ok_iff, Prod.mk.injEq,
    true_and, exists_const]
  constructor
  · rintro ⟨_, ⟨within, rfl⟩, _, checked, _, sent, same, rfl⟩
    exact ⟨within, (check_startOf_iff standard).mp checked, sent, same⟩
  · rintro ⟨within, fits, sent, same⟩
    exact ⟨limits, ⟨within, rfl⟩, (), (check_startOf_iff standard).mpr fits,
      bytes, sent, same, rfl⟩

/-- The runner reads its arguments as they were meant. -/
theorem parseOperatorCaps_spawnArguments (standard : codec.Standard)
    (supervisor : Supervisor) :
    parseOperatorCaps codec (spawnArguments codec supervisor.runner
        supervisor.operatorCaps supervisor.abiCaps) =
      .ok (supervisor.operatorCaps, supervisor.abiCaps) := by
  have limits := supervisor.limitsValid
  have abi := supervisor.abiValid
  have bounded := abi
  simp only [Abi.AbiCaps.validate, Except.bind_eq_ok_iff,
    Except.require_eq_ok_iff, exists_const] at bounded
  obtain ⟨⟨_, calls, _, logs⟩, _⟩ := bounded
  unfold Abi.maxHostCalls at calls
  unfold Abi.logBytesLimit at logs
  have callsRead := parseUnsigned_decimal
    (Nat.lt_of_le_of_lt calls (by decide : 64 < 2 ^ 32))
  have logsRead := parseUnsigned_decimal
    (Nat.lt_of_le_of_lt logs (by decide : 16 * 1024 < 2 ^ 64))
  have capsText : toStr (codec.limitsText supervisor.operatorCaps) =
      some (String.ofList supervisor.operatorCaps.toJson.compact) := by
    rw [standard.limitsText, jsonBytes, toStr_utf8]
  have capsRead : codec.limits (codec.limitsText supervisor.operatorCaps) =
      some supervisor.operatorCaps := by
    rw [standard.limitsText, standard.limits]
  simp only [parseOperatorCaps, spawnArguments, List.getElem?_cons_zero,
    List.getElem?_cons_succ, List.getElem?_nil, Except.fetch_some,
    Except.ok_bind_eq, Option.bind_some, toStr_utf8, callsRead, logsRead,
    capsText, capsRead, limits, abi, Except.mapError_ok]
  rfl

/-- The runner reads back what the supervisor started it with. -/
theorem begin_of_start (standard : codec.Standard)
    {arguments : List (List UInt8)} {bytes : List UInt8}
    (started : supervisor.start codec module input limits true true =
      .ok (arguments, bytes)) {descriptors : List Descriptor}
    (allowed : ∀ descriptor ∈ descriptors, descriptor.allowed = true)
    (rest : List UInt8) :
    begin codec arguments [] descriptors (bytes ++ rest) =
      .ok (⟨module, input, limits, supervisor.operatorCaps,
        supervisor.abiCaps⟩, rest) := by
  obtain ⟨_, ⟨small, few⟩, sent, rfl⟩ :=
    (Supervisor.start_eq_ok_iff standard).mp started
  obtain ⟨written, same, returns⟩ :=
    start_returns standard.frames small few limits
  obtain rfl : bytes = written := Except.ok.inj (sent.symm.trans same)
  have descriptorsAllowed :
      verifyDescriptorAllowlist descriptors = .ok () :=
    Except.forM_eq_ok_iff.mpr fun descriptor member =>
      Except.require_of (allowed descriptor member)
  have decoded (bytes : List UInt8) :
      codec.fromBase64 (codec.base64 bytes) = some bytes := by
    rw [standard.frames.base64, standard.frames.fromBase64]
  have moduleRead : codec.fromBase64
      (startOf codec.toCodec module input limits).moduleB64 = some module :=
    decoded module
  have inputRead : codec.fromBase64
      (startOf codec.toCodec module input limits).inputB64 = some input :=
    decoded input
  simp only [begin, parseOperatorCaps_spawnArguments standard supervisor,
    Except.ok_bind_eq, Except.require_of, descriptorsAllowed, returns rest,
    Except.mapError_ok, moduleRead, inputRead, Except.fetch_some]
  rfl

/-- The runner executes the guest of the job with the caps of the supervisor,
and does not refuse the input or the caps. -/
theorem execute_started
    (within : limits.Within supervisor.operatorCaps)
    (few : input.length ≤ payloadBytes) (readers : Abi.Readers)
    (writers : Runner.Writers) (broker : Runner.Broker)
    (compile : List UInt8 → Except Abi.RuntimeError Unit)
    (guest : List UInt8 → List UInt8 → Abi.Guest) :
    let executed := Started.execute
      ⟨module, input, limits, supervisor.operatorCaps, supervisor.abiCaps⟩
      readers writers broker compile guest
    executed = Runner.execute readers writers broker supervisor.abiCaps
        ⟨compile module, input, limits.maxEffects, guest module input⟩ ∧
      executed.2 ≠ .error .inputSize ∧ executed.2 ≠ .error .invalidCaps := by
  intro executed
  have same : executed = Runner.execute readers writers broker
      supervisor.abiCaps
      ⟨compile module, input, limits.maxEffects, guest module input⟩ := by
    unfold executed Started.execute
    rw [Limits.validate_eq_ok_iff.mpr ⟨within, rfl⟩]
  refine ⟨same, ?_⟩
  rw [same, Runner.execute]
  cases compile module with
  | error failure => exact ⟨by simp, by simp⟩
  | ok compiled =>
      have fits : ¬ payloadBytes < input.length := Nat.not_lt.mpr few
      simp only [Abi.executeAbi, if_neg fits, supervisor.abiValid]
      generalize Abi.interact readers _ _ _ = interacted
      obtain ⟨events, state⟩ := interacted
      simp only
      cases state.sticky with
      | some code => exact ⟨by simp, by simp⟩
      | none =>
          simp only [Abi.engineResult]
          split
          · cases (guest module input).ended with
            | error failure =>
                exact ⟨by simp [Except.mapError, Except.map],
                  by simp [Except.mapError, Except.map]⟩
            | ok code =>
                exact ⟨by simp [Except.mapError, Except.map],
                  by simp [Except.mapError, Except.map]⟩
          · exact ⟨by simp [Except.map], by simp [Except.map]⟩

/-- A runner is given its start frame exactly for limits within the
supervisor's caps, a module and an input that fit.  Then it reads its arguments and the start frame
to that very job under those very caps, whatever follows in its input, and the
checks it makes again before the guest runs refuse none of it. -/
theorem launch_hands_over (codec : Codec) (standard : codec.Standard)
    (supervisor : Supervisor) (module input : List UInt8) (limits : Limits) :
    ((∃ started, supervisor.start codec module input limits true true =
          .ok started) ↔
        limits.Within supervisor.operatorCaps ∧
          module.length ≤ moduleBytes ∧ input.length ≤ payloadBytes) ∧
      ∀ (arguments : List (List UInt8)) (bytes : List UInt8),
        supervisor.start codec module input limits true true =
          .ok (arguments, bytes) →
        (∀ (descriptors : List Descriptor) (rest : List UInt8),
          (∀ descriptor ∈ descriptors, descriptor.allowed = true) →
          begin codec arguments [] descriptors (bytes ++ rest) =
            .ok (⟨module, input, limits, supervisor.operatorCaps,
              supervisor.abiCaps⟩, rest)) ∧
        ∀ readers writers broker compile guest,
          let executed := Started.execute
            ⟨module, input, limits, supervisor.operatorCaps,
              supervisor.abiCaps⟩ readers writers broker compile guest
          executed = Runner.execute readers writers broker supervisor.abiCaps
              ⟨compile module, input, limits.maxEffects,
                guest module input⟩ ∧
            executed.2 ≠ .error .inputSize ∧
            executed.2 ≠ .error .invalidCaps := by
  refine ⟨⟨?_, ?_⟩, ?_⟩
  · rintro ⟨⟨arguments, bytes⟩, started⟩
    obtain ⟨within, fits, _⟩ :=
      (Supervisor.start_eq_ok_iff standard).mp started
    exact ⟨within, fits⟩
  · rintro ⟨within, small, few⟩
    obtain ⟨written, sent, _⟩ := start_returns standard.frames small few limits
    exact ⟨_, (Supervisor.start_eq_ok_iff standard).mpr
      ⟨within, ⟨small, few⟩, sent, rfl⟩⟩
  · intro arguments bytes started
    constructor
    · intro descriptors rest allowed
      exact begin_of_start standard started allowed rest
    · obtain ⟨within, ⟨_, few⟩, _⟩ :=
        (Supervisor.start_eq_ok_iff standard).mp started
      exact execute_started within few

end Launch

namespace Sample

open Launch

def launchCodec : Launch.Codec where
  toStartCodec := startCodec
  limitsText limits := jsonBytes limits.toJson
  limits bytes := (readJson bytes).bind limitsOfJson

theorem launchCodec_standard : launchCodec.Standard where
  frames := startCodec_standard
  limitsText _ := rfl
  limits limits := by
    have number (value : UInt64) :
        (Json.number (.ofNat value.toNat)).asNat (2 ^ 64) =
          some value.toNat :=
      Json.asNat_ofNat value.toNat_lt
    change (readJson (jsonBytes limits.toJson)).bind limitsOfJson = some limits
    rw [readJson_jsonBytes]
    simp [-Nat.reducePow, limitsOfJson, Limits.toJson, Json.fields,
      List.lookup_cons, number]

def operatorLimits : Limits := ⟨10000, 65536, 2000, 8⟩

def supervisor : Supervisor where
  runner := utf8 "/usr/bin/effectlatch-runner"
  operatorCaps := operatorLimits
  abiCaps := ⟨64, 16384⟩
  limitsValid := by decide
  abiValid := by decide

/-- The standard streams, and the directory that is being read. -/
def descriptors : List Descriptor :=
  [⟨utf8 "0", ["pipe:[17]"]⟩, ⟨utf8 "1", ["pipe:[18]"]⟩,
    ⟨utf8 "2", ["dev", "null"]⟩, ⟨utf8 "3", ["proc", "41", "fd"]⟩]

theorem descriptors_allowed (descriptor : Descriptor)
    (member : descriptor ∈ descriptors) : descriptor.allowed = true := by
  have numbers : ["0", "1", "2", "3"].map (parseUnsigned (2 ^ 32)) =
      [some 0, some 1, some 2, some 3] := by
    decide
  simp only [List.map_cons, List.map_nil, List.cons.injEq, and_true] at numbers
  obtain ⟨zero, one, two, three⟩ := numbers
  simp only [descriptors, List.mem_cons, List.not_mem_nil, or_false] at member
  rcases member with rfl | rfl | rfl | rfl
  · simp [-Nat.reducePow, Descriptor.allowed, toStr_utf8, zero]
  · simp [-Nat.reducePow, Descriptor.allowed, toStr_utf8, one]
  · simp [-Nat.reducePow, Descriptor.allowed, toStr_utf8, two]
  · simp [-Nat.reducePow, Descriptor.allowed, toStr_utf8, three]

end Sample

namespace Launch

/-- The runner is handed the job, its pipe and its two standard streams open,
and the first answer follows the start frame. -/
theorem launch_hands_over_sample :
    ∃ arguments bytes,
      Sample.supervisor.start Sample.launchCodec [0, 97, 115, 109] [1, 2]
          ⟨500, 65536, 1000, 1⟩ true true = .ok (arguments, bytes) ∧
        begin Sample.launchCodec arguments [] Sample.descriptors
            (bytes ++ [0, 0, 0, 2, 123, 125]) =
          .ok (⟨[0, 97, 115, 109], [1, 2], ⟨500, 65536, 1000, 1⟩,
            Sample.supervisor.operatorCaps, Sample.supervisor.abiCaps⟩,
            [0, 0, 0, 2, 123, 125]) := by
  have within : Limits.Within ⟨500, 65536, 1000, 1⟩
      Sample.supervisor.operatorCaps :=
    ⟨by decide, by decide, by decide, by decide⟩
  obtain ⟨starts, hands⟩ :=
    launch_hands_over Sample.launchCodec Sample.launchCodec_standard
      Sample.supervisor [0, 97, 115, 109] [1, 2] ⟨500, 65536, 1000, 1⟩
  obtain ⟨⟨arguments, bytes⟩, started⟩ :=
    starts.mpr ⟨within, by decide, by decide⟩
  obtain ⟨handed, _⟩ := hands arguments bytes started
  exact ⟨arguments, bytes, started,
    handed Sample.descriptors [0, 0, 0, 2, 123, 125]
      Sample.descriptors_allowed⟩

end Launch

end EffectLatch
