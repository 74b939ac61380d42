import EffectLatch.DomainTypes
import EffectLatch.ExceptResults

/-!
# Effect requests

A guest asks for an effect with a request in JSON.  Reading JSON is the work of
another crate, so the derived reader is a parameter; the size limit and the
checks on the fields are the domain's own.
-/

namespace EffectLatch

def payloadBytes : Nat := 64 * 1024

def effectRequestBytes : Nat := 16 * 1024

def maxEffects : UInt64 := 8

inductive ValidationError where
  | invalid (field : String)
  | json
deriving DecidableEq

structure TicketArguments where
  project : String
  title : String
  body : String
deriving DecidableEq

structure EffectRequest where
  ordinal : UInt64
  action : String
  destination : String
  arguments : TicketArguments
deriving DecidableEq

namespace EffectRequest

def validate (request : EffectRequest) : Except ValidationError Unit := do
  Except.require (request.ordinal < maxEffects) (.invalid "ordinal")
  Except.require (request.action = "ticket.create") (.invalid "action")
  Except.require
    (isAlias request.destination = true ∧
      isAlias request.arguments.project = true)
    (.invalid "destination/project")
  Except.require
    (¬ (utf8 request.arguments.title).isEmpty = true ∧
      request.arguments.title.length ≤ 200 ∧
      (utf8 request.arguments.title).length ≤ 800)
    (.invalid "title")
  Except.require ((utf8 request.arguments.body).length ≤ 8192)
    (.invalid "body")

/-- `reader` is the derived `serde_json::from_slice`. -/
def parse (reader : List UInt8 → Option EffectRequest) (bytes : List UInt8) :
    Except ValidationError EffectRequest := do
  Except.require (bytes.length ≤ effectRequestBytes) (.invalid "request size")
  let request ← Except.fetch (reader bytes) .json
  request.validate
  pure request

theorem parse_eq_ok_iff {reader : List UInt8 → Option EffectRequest}
    {bytes : List UInt8} {request : EffectRequest} :
    parse reader bytes = .ok request ↔
      bytes.length ≤ effectRequestBytes ∧ reader bytes = some request ∧
        request.validate = .ok () := by
  simp only [parse, Except.bind_eq_ok_iff, Except.require_eq_ok_iff,
    Except.fetch_eq_ok_iff, Except.pure_eq_ok_iff]
  constructor
  · rintro ⟨_, sized, read, found, _, valid, rfl⟩
    exact ⟨sized, found, valid⟩
  · rintro ⟨sized, found, valid⟩
    exact ⟨(), sized, request, found, (), valid, rfl⟩

end EffectRequest

end EffectLatch
