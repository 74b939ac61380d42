import EffectLatch.DomainTypes
import EffectLatch.ExceptResults
import EffectLatch.OrderedSets

/-!
# Operator configuration

The strict configuration of the control crate.  TOML, URIs and timestamps are
read by other crates, whose parsers are parameters here; every check on what
they return is the configuration's own.
-/

namespace EffectLatch

namespace Control

/-- What `http::Uri` tells about a parsed text. -/
structure Uri where
  scheme : Option String
  authority : Option String
  port : Option UInt16
  path : String
  query : Option String
deriving DecidableEq

structure Server where
  maxJsonBytes : UInt64
  maxModuleBytes : UInt64

structure Limits where
  maxPendingGlobal : UInt64
  maxPendingPerTenant : UInt64
  maxActiveGlobal : UInt64
  maxActivePerTenant : UInt64
  maxAttempts : UInt64
  leaseMs : UInt64
  heartbeatMs : UInt64
  sweepMs : UInt64
  wallMs : UInt64
  memoryBytes : UInt64
  fuel : UInt64
  maxEffects : UInt64
  maxHostCalls : UInt64
  maxLogBytes : UInt64

structure Retention where
  payloadHours : UInt64
  metadataDays : UInt64

structure Adapter where
  baseUrl : String
  idempotency : Bool
  retentionSeconds : UInt64
  retryHorizonSeconds : UInt64
  mode : String
  projects : List String
  adapterNamespace : Option String

structure Config where
  server : Server
  limits : Limits
  retention : Retention
  adapters : OrderedMap String Adapter

/-- The parsers of the crates the control plane is built on. -/
structure Parsers where
  toml : String → Option Config
  uri : String → Option Uri
  /-- Nanoseconds since the epoch of an RFC 3339 text. -/
  rfc3339 : String → Option Int

structure ConfigError where
deriving DecidableEq

def identifier (value : String) : Bool := shortIdentifier value

def localFixtureUrl (parsers : Parsers) (value : String) : Bool :=
  match parsers.uri value with
  | none => false
  | some uri =>
      match uri.authority, uri.port with
      | some authority, some port =>
          uri.scheme == some "http" &&
            ((authority == "127.0.0.1:" ++ toString port.toNat && port != 0) ||
              authority == "fixture:8790") &&
            uri.path == "/" && uri.query.isNone
      | _, _ => false

/-- The checks on one adapter besides those of its delivery mode. -/
def Adapter.wellFormed (parsers : Parsers) (destination : String)
    (adapter : Adapter) : Bool :=
  identifier destination && (utf8 adapter.baseUrl).length ≤ 2048 &&
    localFixtureUrl parsers adapter.baseUrl && !adapter.projects.isEmpty &&
    adapter.projects.length ≤ 16 && adapter.projects.all identifier &&
    (OrderedSet.ofList adapter.projects).card == adapter.projects.length &&
    adapter.adapterNamespace.all fun value =>
      (utf8 value).length ≤ 64 && !(utf8 value).isEmpty

/-- An idempotent adapter retries within a fixed horizon, another one never. -/
def Adapter.delivery (adapter : Adapter) : Bool :=
  if adapter.idempotency then
    adapter.mode == "idem" && adapter.retryHorizonSeconds == 82800 &&
      86400 ≤ adapter.retentionSeconds
  else
    adapter.mode == "nonidem" && adapter.retryHorizonSeconds == 0 &&
      adapter.retentionSeconds == 0

namespace Config

/-- The settings with an upper bound, each of which must be positive. -/
def bounded (config : Config) : List (UInt64 × UInt64) :=
  [(config.server.maxJsonBytes, 131072),
    (config.server.maxModuleBytes, 2097152),
    (config.limits.maxPendingGlobal, 1000),
    (config.limits.maxPendingPerTenant, 100),
    (config.limits.maxActiveGlobal, 4),
    (config.limits.maxActivePerTenant, 1),
    (config.limits.maxAttempts, 3),
    (config.limits.leaseMs, 6000),
    (config.limits.heartbeatMs, 2000),
    (config.limits.sweepMs, 1000),
    (config.limits.memoryBytes, 67108864),
    (config.limits.maxEffects, 8),
    (config.limits.maxHostCalls, 64),
    (config.limits.maxLogBytes, 16384),
    (config.limits.wallMs, 60000)]

def validate (parsers : Parsers) (config : Config) :
    Except ConfigError Unit := do
  Except.require
    (config.bounded.all (fun setting =>
        setting.1 != 0 && setting.1 ≤ setting.2) = true ∧
      config.limits.heartbeatMs < config.limits.leaseMs ∧
      config.limits.maxPendingPerTenant ≤ config.limits.maxPendingGlobal ∧
      config.limits.maxActivePerTenant ≤ config.limits.maxActiveGlobal ∧
      config.limits.wallMs ≠ 0 ∧ config.limits.fuel ≠ 0 ∧
      config.retention.payloadHours = 24 ∧
      config.retention.metadataDays = 30 ∧
      config.adapters.card ≠ 0 ∧ config.adapters.card ≤ 16)
    ⟨⟩
  Except.require
    (config.adapters.entries.all (fun entry =>
      entry.2.wellFormed parsers entry.1 && entry.2.delivery) = true)
    ⟨⟩

def parse (parsers : Parsers) (bytes : List UInt8) :
    Except ConfigError Config := do
  Except.require (bytes.length ≤ 65536) ⟨⟩
  let text ← Except.fetch (String.fromUTF8? ⟨bytes.toArray⟩) ⟨⟩
  let config ← Except.fetch (parsers.toml text) ⟨⟩
  config.validate parsers
  pure config

/-- The project is one the destination's adapter is configured for. -/
def Configures (config : Config) (destination project : String) : Prop :=
  ∃ adapter, config.adapters.get? destination = some adapter ∧
    project ∈ adapter.projects

/-- Aliases and projects of an accepted configuration are identifiers. -/
theorem Configures.identifiers {parsers : Parsers} {bytes : List UInt8}
    {config : Config} {destination project : String}
    (accepted : parse parsers bytes = .ok config)
    (configured : config.Configures destination project) :
    identifier destination = true ∧ identifier project = true := by
  simp only [parse, validate, Except.bind_eq_ok_iff, Except.require_eq_ok_iff,
    Except.fetch_eq_ok_iff, Except.pure_eq_ok_iff] at accepted
  obtain ⟨_, _, _, _, _, _, _, ⟨_, _, checked⟩, rfl⟩ := accepted
  obtain ⟨adapter, found, listed⟩ := configured
  have entry := List.all_eq_true.mp checked _ (OrderedMap.mem_of_get? found)
  simp only [Adapter.wellFormed, Bool.and_eq_true, List.all_eq_true] at entry
  obtain ⟨⟨⟨⟨⟨⟨⟨⟨aliased, _⟩, _⟩, _⟩, _⟩, projects⟩, _⟩, _⟩, _⟩ := entry
  exact ⟨aliased, projects project listed⟩

end Config

end Control

end EffectLatch
