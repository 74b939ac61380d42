import EffectLatch.AuthenticationExactness
import EffectLatch.ConfigurationConfinement
import EffectLatch.ControlApi
import EffectLatch.IdempotentAdmission
import EffectLatch.ModuleSurface
import EffectLatch.RunNormalization

/-!
# The control plane as a running system

The daemon serves requests, its sweeper reaps, and an operator and a broker use
the same database.  Each of these steps makes at most one store call, so a run
of the daemon is a run of the store whose calls carry what the configuration
and the principal file say.
-/

namespace EffectLatch

/-- The calls an operator, an owner's cancellation and the broker make. -/
def Command.outside : Command → Bool
  | .reserveGrantChain _ | .provisionTenant _ _ _ | .requestCancel _ _
  | .prepareEffect _ | .moveEffect _ _ _ _ => true
  | _ => false

namespace Control

/-- The daemon as it starts: an accepted configuration, an accepted principal
file, and the other crates. -/
structure Daemon where
  sha256 : Sha256
  codecs : TextCodecs
  parsers : Parsers
  reader : Wasm.Reader
  fromSlice : List UInt8 → Option Auth.File
  config : Config
  principals : Auth.Principals
  configured : ∃ bytes, Config.parse parsers bytes = .ok config
  mapped : ∃ bytes, Auth.Principals.parse codecs fromSlice bytes =
    .ok principals

/-- One step of the running system.  `fresh` is the UUID drawn for a request. -/
inductive Action where
  | request (request : Api.Request) (fresh : Uuid)
  | sweep
  | outside (command : Command) (apart : command.outside = true)

/-- An action with the clock readings its statements get. -/
structure Step where
  action : Action
  clock : Clock

namespace Daemon

def service (daemon : Daemon) : Service where
  state := ApiState.new daemon.config
  principals := daemon.principals
  sha256 := daemon.sha256
  codecs := daemon.codecs
  parsers := daemon.parsers
  reader := daemon.reader

/-- Perform one step; only a request is replied to. -/
def perform (daemon : Daemon) (db : Database) (step : Step) :
    Option Api.Reply × Database :=
  match step.action with
  | .request request fresh =>
      let served := daemon.service.serve db step.clock fresh request
      (some served.1, served.2)
  | .sweep =>
      (none, (db.perform daemon.sha256
        ⟨.reapOne daemon.config.reapPolicy, step.clock⟩).2)
  | .outside command _ =>
      (none, (db.perform daemon.sha256 ⟨command, step.clock⟩).2)

/-- The command a step passes to the store. -/
def command (daemon : Daemon) (step : Step) : Option Command :=
  match step.action with
  | .request request fresh =>
      (Api.respond daemon.service fresh request).toOption.map StoreCall.command
  | .sweep => some (.reapOne daemon.config.reapPolicy)
  | .outside command _ => some command

def call (daemon : Daemon) (step : Step) : Option Call :=
  (daemon.command step).map fun command => ⟨command, step.clock⟩

/-- One performed step of the system. -/
abbrev Event := Performed Database Step (Option Api.Reply)

/-- The steps performed since the migrations and the state they led to. -/
abbrev Run (daemon : Daemon) : List Event → Database → Prop :=
  Execution daemon.perform (fun _ _ => True) Database.migrated

/-- The store call behind a performed step. -/
def storeEvent (daemon : Daemon) (event : Event) : Option EffectLatch.Event :=
  event.project (Database.perform daemon.sha256) daemon.call

theorem projects (daemon : Daemon) :
    Projects daemon.perform (Database.perform daemon.sha256) daemon.call where
  quiet db step made := by
    obtain ⟨action, clock⟩ := step
    cases action with
    | request request fresh =>
        simp only [call, command, Option.map_eq_none_iff] at made
        cases responded : Api.respond daemon.service fresh request with
        | error reply => simp [perform, Service.serve, responded]
        | ok call => simp [responded, Except.toOption] at made
    | sweep => simp [call, command] at made
    | outside command apart => simp [call, Daemon.command] at made
  calls db step inside made := by
    obtain ⟨action, clock⟩ := step
    cases action with
    | request request fresh =>
        cases responded : Api.respond daemon.service fresh request with
        | error reply => simp [call, command, responded, Except.toOption] at made
        | ok call =>
            simp only [Daemon.call, command, responded, Except.toOption,
              Option.map_some, Option.some.injEq] at made
            subst made
            simp only [perform, Service.serve, responded]
            rfl
    | sweep =>
        simp only [call, command, Option.map_some, Option.some.injEq] at made
        subst made
        rfl
    | outside command apart =>
        simp only [call, Daemon.command, Option.map_some, Option.some.injEq]
          at made
        subst made
        rfl

end Daemon

namespace Sample

open EffectLatch.Sample

/-- A daemon on the shipped configuration with the three principals. -/
def daemon : Daemon where
  sha256 := checksum
  codecs := textCodecs
  parsers := parsers
  reader := moduleReader
  fromSlice := readPrincipals
  config := config
  principals := principals
  configured := ⟨_, config_parse⟩
  mapped := ⟨_, principals_parse⟩

def headers (token : String) : Api.Headers where
  authorization := [utf8 ("Bearer " ++ token)]
  contentType := [utf8 "application/wasm"]
  idempotencyKey := [utf8 "key"]

def asked (token : String) (fresh : Uuid) (route : Api.Route) : Step :=
  ⟨.request ⟨headers token, route⟩ fresh, fun _ => 5⟩

def runCreate : RunCreate where
  moduleDigest := Hash.hex (checksum guestModule).bytes
  grantId := grantText
  inputB64 := base64Text [1]
  limits := ⟨1, 1, 1, 1⟩

/-- A tenant, its root grant, a module and a run. -/
def submission : List Step :=
  [⟨.outside (.provisionTenant 1 10 1) rfl, fun _ => 5⟩,
    asked ownerToken 10 (.createRoot (.ok payload)),
    asked ownerToken 0 (.uploadModule (.ok guestModule)),
    asked ownerToken 20 (.createRun (.ok runCreate))]

/-- The store after these steps. -/
def reached (steps : List Step) : Database :=
  (performAll daemon.perform Database.migrated steps).2

theorem run_reached (steps : List Step) :
    daemon.Run (performAll daemon.perform Database.migrated steps).1
      (reached steps) :=
  Execution.of_performAll (AllPermitted.of_forall fun _ _ _ => trivial)

/-- The last of the steps is recorded where it was made. -/
theorem last_mem (steps : List Step) (step : Step) :
    (⟨reached steps, step, (daemon.perform (reached steps) step).1,
      (daemon.perform (reached steps) step).2⟩ : Daemon.Event) ∈
      (performAll daemon.perform Database.migrated (steps ++ [step])).1 := by
  rw [performAll_append_singleton]
  exact List.mem_append_right _ (List.mem_singleton_self _)

/-- The store with the run waiting. -/
def waiting : Database :=
  (performAll daemon.perform Database.migrated submission).2

def claimStep : Step := asked workerToken 0 (.claim (.ok ⟨"worker", 1⟩))

def steps : List Step := submission ++ [claimStep]

def history : List Daemon.Event :=
  (performAll daemon.perform Database.migrated steps).1

def served : Database := (performAll daemon.perform Database.migrated steps).2

theorem served_run : daemon.Run history served := run_reached steps

/-- The claim at the end of the run. -/
def claiming : Daemon.Event :=
  ⟨waiting, claimStep, (daemon.perform waiting claimStep).1,
    (daemon.perform waiting claimStep).2⟩

theorem claiming_mem : claiming ∈ history := last_mem submission claimStep

end Sample

end Control

end EffectLatch
