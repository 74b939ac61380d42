import EffectLatch.ControlGrants
import EffectLatch.GrantForestInvariant

/-!
# Confinement to the operator's configuration

Grants hold destinations and projects as two independent sets while the
configuration lists projects per destination.  The boundary checks the whole
product, grants keep their sets for good, and a reservation stays inside every
grant of its chain, so no effect leaves the configuration.
-/

namespace EffectLatch

namespace Database

/-- Every stored grant acts through tickets only, on configured pairs of
destination and project. -/
structure Confined (config : Control.Config) (db : Database) : Prop where
  actions : ∀ row ∈ db.grants.rows, ∀ action ∈ row.actions,
    action = "ticket.create"
  pairs : ∀ row ∈ db.grants.rows, ∀ destination ∈ row.destinations,
    ∀ project ∈ row.projects, config.Configures destination project

variable {sha256 : Sha256} {db next : Database} {clock : Clock}
  {command : Command} {response : Response} {parsers : Control.Parsers}
  {config : Control.Config}

theorem confined_migrated (config : Control.Config) :
    Confined config migrated := by
  constructor <;>
  · simp [migrated, Table.empty]

/-- A grant created through the boundary is within the bounds. -/
theorem GrantCreation.permitted {row : GrantRow}
    (creation : GrantCreation db clock command row)
    (through : Control.CreatesThrough parsers
      (Control.Bounds.fromConfig config.adapters) ⟨command, clock⟩) :
    (∀ action ∈ row.actions, action = "ticket.create") ∧
      ∀ destination ∈ row.destinations, ∀ project ∈ row.projects,
        config.Configures destination project := by
  cases creation with
  | created _ _ _ _ _ =>
      obtain ⟨_, created⟩ := through
      exact Control.configures_of_permits (Control.permits_of_create created)

theorem Transition.confined
    (moved : Transition sha256 db clock command response next)
    (through : Control.CreatesThrough parsers
      (Control.Bounds.fromConfig config.adapters) ⟨command, clock⟩)
    (confined : Confined config db) : Confined config next where
  actions row member := by
    rcases moved.grant_origin member with ⟨old, stored, evolved⟩ | creation
    · rw [evolved.actions]
      exact confined.actions old stored
    · exact (creation.permitted through).1
  pairs row member := by
    rcases moved.grant_origin member with ⟨old, stored, evolved⟩ | creation
    · rw [evolved.destinations, evolved.projects]
      exact confined.pairs old stored
    · exact (creation.permitted through).2

/-- A reservation that was made is within the run's own grant. -/
theorem Transition.reservation_authorised {request : GrantReservation}
    (moved : Transition sha256 db clock (.reserveGrantChain request)
      (.reservation .created) next) (forest : db.GrantForest) :
    ∃ effect, db.findEffect request.tenant request.run request.ordinal =
        some effect ∧
      ∃ row ∈ db.grants.rows, effect.action ∈ row.actions ∧
        effect.destination ∈ row.destinations ∧
        effect.project ∈ row.projects := by
  cases moved with
  | unchanged observed => cases observed
  | @reserved _ run effect chain nowMs plan _ _ _ _ loaded effectFound _ _ _
      planned _ _ _ =>
      refine ⟨effect, effectFound, ?_⟩
      obtain ⟨path, lineage, rfl⟩ := forest.exists_of_load loaded
      obtain ⟨row, found⟩ :=
        forest.known_of_ancestry lineage run.grantId lineage.self_mem
      have stored := (findGrant_eq_some_iff.mp found).1
      have onChain : row.decoded ∈
          (db.chainRows request.tenant path).map GrantRow.decoded := by
        apply List.mem_map_of_mem
        rw [chainRows, List.mem_filterMap]
        exact ⟨run.grantId, lineage.self_mem, found⟩
      simp only [reservationPlan, Except.bind_eq_ok_iff] at planned
      obtain ⟨_, _, planned⟩ := planned
      obtain ⟨action, destination, project⟩ :=
        authorised_of_planReservations planned _ onChain
      exact ⟨row, stored, OrderedSet.mem_ofList.mp action,
        OrderedSet.mem_ofList.mp destination,
        OrderedSet.mem_ofList.mp project⟩

end Database

/-- With grants created through the boundary only, every pair of a stored
grant's destinations and projects is configured, and every effect a reservation
was made for creates a ticket in a configured project of a configured
destination. -/
theorem authority_confined_to_configuration {sha256 : Sha256}
    {parsers : Control.Parsers} {bytes : List UInt8} {config : Control.Config}
    {db : Database} {history : List Event}
    (accepted : Control.Config.parse parsers bytes = .ok config)
    (execution : StoreExecution sha256
      (fun _ call => Control.CreatesThrough parsers
        (Control.Bounds.fromConfig config.adapters) call) history db) :
    (∀ row ∈ db.grants.rows, ∀ destination ∈ row.destinations,
      ∀ project ∈ row.projects, config.Configures destination project) ∧
    ∀ event ∈ history, ∀ request,
      event.Records (.reserveGrantChain request) (.reservation .created) →
      ∃ effect, event.before.findEffect request.tenant request.run
          request.ordinal = some effect ∧
        effect.action = "ticket.create" ∧
        Control.identifier effect.destination = true ∧
        Control.identifier effect.project = true ∧
        ∃ adapter, config.adapters.get? effect.destination = some adapter ∧
          effect.project ∈ adapter.projects := by
  have confined {state : Database} {past : List Event}
      (past : StoreExecution sha256
        (fun _ call => Control.CreatesThrough parsers
          (Control.Bounds.fromConfig config.adapters) call) past state) :
      Database.Confined config state :=
    Reachable.invariant (Database.Confined config)
      (Database.confined_migrated config)
      (fun _ _ _ _ holds through moved => moved.confined through holds)
      ⟨_, past⟩
  refine ⟨(confined execution).pairs, ?_⟩
  intro event member request records
  obtain ⟨_, _, reached, _, done, _⟩ := execution.split_mem member
  rw [records.outcome] at done
  have moved := Database.transition_of_perform done
  rw [records.command] at moved
  obtain ⟨effect, found, row, stored, action, destination, project⟩ :=
    moved.reservation_authorised (Reachable.grantForest ⟨_, reached⟩)
  have holds := confined reached
  have configured :=
    holds.pairs row stored effect.destination destination effect.project project
  obtain ⟨aliased, named⟩ := configured.identifiers accepted
  exact ⟨effect, found, holds.actions row stored effect.action action, aliased,
    named, configured⟩

namespace Sample

/-- The example configuration the repository ships. -/
def configText : String :=
  "\n".intercalate
    [ "[server]",
      "bind = \"127.0.0.1:8787\"",
      "max_json_bytes = 131072",
      "max_module_bytes = 2097152",
      "[limits]",
      "max_pending_global = 1000",
      "max_pending_per_tenant = 100",
      "max_active_global = 4",
      "max_active_per_tenant = 1",
      "max_attempts = 3",
      "lease_ms = 6000",
      "heartbeat_ms = 2000",
      "sweep_ms = 1000",
      "wall_ms = 2000",
      "memory_bytes = 67108864",
      "fuel = 10000000",
      "max_effects = 8",
      "max_host_calls = 64",
      "max_log_bytes = 16384",
      "[retention]",
      "payload_hours = 24",
      "metadata_days = 30",
      "[adapters.tickets-idem]",
      "base_url = \"http://127.0.0.1:8790\"",
      "idempotency = true",
      "retention_seconds = 86400",
      "retry_horizon_seconds = 82800",
      "mode = \"idem\"",
      "projects = [\"DEMO\"]",
      "[adapters.tickets-nonidem]",
      "base_url = \"http://127.0.0.1:8790\"",
      "idempotency = false",
      "retention_seconds = 0",
      "retry_horizon_seconds = 0",
      "mode = \"nonidem\"",
      "projects = [\"DEMO\"]",
      "" ]

def ticketAdapter (idempotency : Bool) (retention horizon : UInt64)
    (mode : String) : Control.Adapter where
  baseUrl := "http://127.0.0.1:8790"
  idempotency := idempotency
  retentionSeconds := retention
  retryHorizonSeconds := horizon
  mode := mode
  projects := ["DEMO"]
  adapterNamespace := none

def config : Control.Config where
  server := ⟨131072, 2097152⟩
  limits := ⟨1000, 100, 4, 1, 3, 6000, 2000, 1000, 2000, 67108864, 10000000, 8,
    64, 16384⟩
  retention := ⟨24, 30⟩
  adapters :=
    { entries :=
        [("tickets-idem", ticketAdapter true 86400 82800 "idem"),
          ("tickets-nonidem", ticketAdapter false 0 0 "nonidem")]
      increasing := by decide }

/-- What the parsers answer on the texts of the sample. -/
def parsers : Control.Parsers where
  toml text := if text = configText then some config else none
  uri text :=
    if text = "http://127.0.0.1:8790" then
      some ⟨some "http", some "127.0.0.1:8790", some 8790, "/", none⟩
    else none
  rfc3339 text :=
    if text = "1970-01-01T00:00:01Z" then some 1000000000 else none

theorem config_parse :
    Control.Config.parse parsers (utf8 configText) = .ok config := by
  have short : (utf8 configText).length ≤ 65536 := by decide +kernel
  have valid : config.validate parsers = .ok () :=
    Except.eq_ok_of_toOption (by decide +kernel)
  simp only [Control.Config.parse, Except.bind_eq_ok_iff,
    Except.require_eq_ok_iff, Except.fetch_eq_ok_iff, Except.pure_eq_ok_iff]
  exact ⟨(), short, configText, fromUTF8?_utf8 configText, config,
    by simp [parsers], (), valid, rfl⟩

/-- The request behind the grants of the sample. -/
def payload : Control.GrantCreate :=
  ⟨["ticket.create"], ["tickets-idem"], ["DEMO"], "1970-01-01T00:00:01Z", 3⟩

theorem payload_normalize :
    payload.normalize parsers (Control.Bounds.fromConfig config.adapters) =
      .ok authority :=
  Except.eq_ok_of_toOption (by decide +kernel)

end Sample

theorem authority_confined_to_configuration_reservation :
    ∃ event ∈ (performAll (Database.perform Sample.sha256) Database.migrated
        (Sample.calls Sample.reservation)).1,
      Event.Records event (.reserveGrantChain ⟨1, 20, 0⟩)
        (.reservation .created) ∧
      ∃ effect, event.before.findEffect 1 20 0 = some effect ∧
        effect.action = "ticket.create" ∧
        ∃ adapter, Sample.config.adapters.get? effect.destination =
            some adapter ∧
          effect.project ∈ adapter.projects := by
  have through : ∀ call ∈ Sample.calls Sample.reservation,
      Control.CreatesThrough Sample.parsers
        (Control.Bounds.fromConfig Sample.config.adapters) call := by
    intro call member
    simp only [Sample.calls, Sample.reservation, Sample.admission,
      Sample.delegation, List.map_cons, List.map_nil,
      List.cons_append, List.nil_append, List.mem_cons, List.not_mem_nil,
      or_false] at member
    rcases member with rfl | rfl | rfl | rfl | rfl | rfl | rfl
    case inr.inl | inr.inr.inl =>
      exact ⟨Sample.payload, by
        simp [Control.create, Sample.payload_normalize]⟩
    all_goals exact trivial
  have execution := Sample.execution_after fun (_ : Database) => through
  have reserved : ∃ event ∈ (performAll (Database.perform Sample.sha256)
      Database.migrated (Sample.calls Sample.reservation)).1,
      event.call.command = .reserveGrantChain ⟨1, 20, 0⟩ ∧
        event.outcome.toOption = some (.reservation .created) := by
    decide +kernel
  obtain ⟨event, member, command, outcome⟩ := reserved
  have records : Event.Records event (.reserveGrantChain ⟨1, 20, 0⟩)
      (.reservation .created) :=
    ⟨command, Except.eq_ok_of_toOption outcome⟩
  obtain ⟨effect, found, action, _, _, configured⟩ :=
    (authority_confined_to_configuration Sample.config_parse execution).2
      event member ⟨1, 20, 0⟩ records
  exact ⟨event, member, records, effect, found, action, configured⟩

end EffectLatch
