import EffectLatch.FrameRoundTrips
import EffectLatch.RunNormalization
import EffectLatch.RuntimeRunner

/-!
# How a runner is started

The parent gives the runner its caps as arguments and the job as a start frame.
The runner reads both, and looks at its environment and descriptors, before it
executes anything.
-/

namespace EffectLatch

/-- `OsStr::to_str`. -/
def toStr (text : List UInt8) : Option String :=
  String.fromUTF8? ⟨text.toArray⟩

/-- The digits of an integer, which may have a sign in front. -/
def unsignedDigits : List Char → List Char
  | '+' :: rest => rest
  | chars => chars

/-- `str::parse` for an unsigned integer type with `bound` values. -/
def parseUnsigned (bound : Nat) (text : String) : Option Nat :=
  let digits := unsignedDigits text.toList
  if digits ≠ [] ∧ digits.all Char.isDigit = true then
    let value := Nat.ofDigitChars 10 digits 0
    if value < bound then some value else none
  else none

/-- `u32::to_string` and `usize::to_string`. -/
def decimal (value : Nat) : String := String.ofList (Nat.toDigits 10 value)

namespace Launch

open Ipc

/-- The codec of the frames, with the JSON of limits outside of them. -/
structure Codec extends StartCodec where
  limitsText : Limits → List UInt8
  limits : List UInt8 → Option Limits

inductive SupervisorError where
  | unsupportedHost (error : ConfigError)
  | runnerPath
  | invalidAbiCaps
  | clock
  | io
  | protocol (error : ProtocolError)
deriving DecidableEq

/-- A `Supervisor`, which is built with caps that are valid in themselves. -/
structure Supervisor where
  runner : List UInt8
  operatorCaps : Limits
  abiCaps : Abi.AbiCaps
  limitsValid : operatorCaps.validate operatorCaps = .ok operatorCaps
  abiValid : abiCaps.validate = .ok abiCaps

/-- `Supervisor::new_with_abi_caps`, with what `require_execution_host` and
`is_file` say. -/
def Supervisor.newWithAbiCaps (host : Except ConfigError Unit) (isFile : Bool)
    (runner : List UInt8) (operatorCaps : Limits) (abiCaps : Abi.AbiCaps) :
    Except SupervisorError Supervisor :=
  match host with
  | .error error => .error (.unsupportedHost error)
  | .ok () =>
      match limits : operatorCaps.validate operatorCaps with
      | .error error => .error (.unsupportedHost error)
      | .ok valid =>
          match abi : abiCaps.validate with
          | .error _ => .error .invalidAbiCaps
          | .ok validAbi =>
              if isFile then
                .ok
                  { runner := runner
                    operatorCaps := operatorCaps
                    abiCaps := abiCaps
                    limitsValid := by
                      have same := (Limits.validate_eq_ok_iff.mp limits).2
                      rw [limits, same]
                    abiValid := by
                      have same : abiCaps = validAbi := by
                        simp only [Abi.AbiCaps.validate, Except.bind_eq_ok_iff,
                          Except.pure_eq_ok_iff] at abi
                        exact abi.elim fun _ checked => checked.2
                      rw [abi, same] }
              else .error .runnerPath

/-- The arguments `RunnerChild::spawn` runs the program with, its path first. -/
def spawnArguments (codec : Codec) (path : List UInt8) (caps : Limits)
    (abiCaps : Abi.AbiCaps) : List (List UInt8) :=
  [path, utf8 "--operator-caps-json", codec.limitsText caps,
    utf8 "--host-calls", utf8 (decimal abiCaps.hostCalls),
    utf8 "--log-bytes", utf8 (decimal abiCaps.logBytes)]

/-- `Supervisor::run` up to the start frame, with whether the deadline is on
the clock and the child could be spawned: its arguments and the bytes for its
input. -/
def Supervisor.start (supervisor : Supervisor) (codec : Codec)
    (module input : List UInt8) (limits : Limits) (clocked spawned : Bool) :
    Except SupervisorError (List (List UInt8) × List UInt8) := do
  let limits ← (limits.validate supervisor.operatorCaps).mapError
    SupervisorError.unsupportedHost
  Except.require (clocked = true) .clock
  Except.require (spawned = true) .io
  let start := startOf codec.toCodec module input limits
  (start.check codec.toCodec).mapError SupervisorError.protocol
  let bytes ← (writeFrame (codec.startFrameText start) startFrameBytes).mapError
    SupervisorError.protocol
  pure (spawnArguments codec supervisor.runner supervisor.operatorCaps
    supervisor.abiCaps, bytes)

/-! ## The runner -/

inductive RunnerError where
  | arguments
  | environment
  | descriptor
  | io
  | protocol (error : ProtocolError)
deriving DecidableEq

/-- `parse_operator_caps`. -/
def parseOperatorCaps (codec : Codec) (arguments : List (List UInt8)) :
    Except RunnerError (Limits × Abi.AbiCaps) := do
  let _executable ← Except.fetch arguments[0]? .arguments
  Except.require (arguments[1]? = some (utf8 "--operator-caps-json")) .arguments
  let raw ← Except.fetch arguments[2]? .arguments
  Except.require (arguments[3]? = some (utf8 "--host-calls")) .arguments
  let hostCalls ← Except.fetch
    ((arguments[4]?.bind toStr).bind (parseUnsigned (2 ^ 32))) .arguments
  Except.require (arguments[5]? = some (utf8 "--log-bytes")) .arguments
  let logBytes ← Except.fetch
    ((arguments[6]?.bind toStr).bind (parseUnsigned (2 ^ 64))) .arguments
  Except.require (arguments[7]? = none) .arguments
  let caps ← Except.fetch ((toStr raw).bind fun _ => codec.limits raw) .arguments
  let caps ← (caps.validate caps).mapError fun _ => .arguments
  let abiCaps ← (Abi.AbiCaps.mk hostCalls logBytes).validate.mapError
    fun _ => .arguments
  pure (caps, abiCaps)

/-- An entry of `/proc/self/fd`: its name and the components of its target. -/
structure Descriptor where
  name : List UInt8
  target : List String

/-- One turn of `verify_descriptor_allowlist`: the standard streams and the
directory that is being read. -/
def Descriptor.allowed (descriptor : Descriptor) : Bool :=
  match (toStr descriptor.name).bind (parseUnsigned (2 ^ 32)) with
  | none => false
  | some number =>
      number ≤ 2 || (descriptor.target.head? == some "proc" &&
        descriptor.target.getLast? == some "fd")

def verifyDescriptorAllowlist (descriptors : List Descriptor) :
    Except RunnerError Unit :=
  descriptors.forM fun descriptor =>
    Except.require (descriptor.allowed = true) .descriptor

/-- What the runner executes. -/
structure Started where
  module : List UInt8
  input : List UInt8
  limits : Limits
  operatorCaps : Limits
  abiCaps : Abi.AbiCaps
deriving DecidableEq

/-- The runner's `run` before its threads: what it was started with and the
rest of its input. -/
def begin (codec : Codec) (arguments environment : List (List UInt8))
    (descriptors : List Descriptor) (stdin : List UInt8) :
    Except RunnerError (Started × List UInt8) := do
  let (operatorCaps, abiCaps) ← parseOperatorCaps codec arguments
  Except.require (environment = []) .environment
  verifyDescriptorAllowlist descriptors
  let (start, rest) ← (readStart codec.toStartCodec stdin).mapError
    RunnerError.protocol
  let module ← Except.fetch (codec.fromBase64 start.moduleB64)
    (.protocol .message)
  let input ← Except.fetch (codec.fromBase64 start.inputB64)
    (.protocol .message)
  pure (⟨module, input, start.limits, operatorCaps, abiCaps⟩, rest)

/-- The runner's `execute`, with the compiler and what the guest of a module
does with an input.  The engine refuses limits beyond the caps before the guest
makes a call. -/
def Started.execute (started : Started) (readers : Abi.Readers)
    (writers : Runner.Writers) (broker : Runner.Broker)
    (compile : List UInt8 → Except Abi.RuntimeError Unit)
    (guest : List UInt8 → List UInt8 → Abi.Guest) :
    List Abi.Event × Except Abi.AbiError Abi.AbiOutcome :=
  Runner.execute readers writers broker started.abiCaps
    { compiled := compile started.module
      input := started.input
      maxEffects := started.limits.maxEffects
      guest :=
        match started.limits.validate started.operatorCaps with
        | .error _ => ⟨[], .error ⟨⟩⟩
        | .ok _ => guest started.module started.input }

end Launch

end EffectLatch
