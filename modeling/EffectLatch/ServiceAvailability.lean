import EffectLatch.LeaseContents
import EffectLatch.StoreProgress

/-!
# When the service calls itself unavailable

The handlers answer 503 to every failure of the store they have no word for.  In
a reachable state two kinds of requests meet such a failure: uploads the tables
cannot take, and finishes for a run whose tenant has no slot.
-/

namespace EffectLatch

namespace Control

variable {daemon : Daemon} {db : Database} {clock : Clock} {fresh : Uuid}
  {principal : Auth.Principal} {command : Command}

namespace Daemon

/-- The store has no word for the outcome: the tenant of an upload is not
provisioned or has other content under the digest, or the tenant of a finish has
no slot taken. -/
inductive Stuck (daemon : Daemon) (db : Database) : Command → Prop
  | unprovisioned {tenant : Uuid} {digest : Digest} {bytes : List UInt8}
      (unknown : db.findTenant tenant = none) :
      Stuck daemon db (.putModule tenant digest bytes)
  | collision {tenant : Uuid} {digest : Digest} {bytes : List UInt8}
      {stored : ModuleRow} (found : db.findModule tenant digest = some stored)
      (other : stored.wasm ≠ bytes)
      (collides : daemon.sha256 stored.wasm = daemon.sha256 bytes) :
      Stuck daemon db (.putModule tenant digest bytes)
  | idle {command : Command} (finishes : db.FinishesIdle command) :
      Stuck daemon db command

/-- An upload is refused for want of its tenant or for a collision of
digests. -/
theorem stuck_iff (stocked : daemon.Stocked db)
    (issues : Api.Issues daemon.service fresh principal command) :
    daemon.Stuck db command ↔
      db.UploadRefused command ∨ db.FinishesIdle command := by
  constructor
  · rintro (⟨unknown⟩ | ⟨found, other, _⟩ | ⟨finishes⟩)
    · rename_i tenant digest bytes
      left
      have absent : db.findModule tenant digest = none := by
        by_contra stored
        obtain ⟨row, found⟩ := Option.ne_none_iff_exists'.mp stored
        obtain ⟨member, owned, _⟩ := Database.findModule_eq_some_iff.mp found
        exact stocked.owned row member (owned ▸ unknown)
      simpa [Database.UploadRefused, absent] using unknown
    · exact .inl (by simpa [Database.UploadRefused, found] using other)
    · exact .inr finishes
  · rintro (refused | finishes)
    · cases issues with
      | @uploaded tenant bytes acts valid =>
          cases found : db.findModule tenant (daemon.sha256 bytes) with
          | none =>
              refine .unprovisioned ?_
              simpa [Database.UploadRefused, service, found] using refused
          | some stored =>
              obtain ⟨member, _, named⟩ :=
                Database.findModule_eq_some_iff.mp found
              refine .collision found ?_ ?_
              · simpa [Database.UploadRefused, service, found] using refused
              · rw [← (stocked.modules stored member).2, named]
      | _ => exact absurd refused id
    · exact .idle finishes

/-- A request that is stuck fails without a word for it. -/
theorem Stuck.execute (stuck : daemon.Stuck db command)
    (stocked : daemon.Stocked db) (sound : db.Sound)
    (numbers : ∀ seq, db.schedulerState = some seq → seq < i64Max)
    (issues : Api.Issues daemon.service fresh principal command)
    (clock : Clock) :
    ∃ failure, db.execute daemon.sha256 ⟨command, clock⟩ = .error failure ∧
      (Api.wording daemon.codecs command (.error failure)).Unavailable := by
  obtain ⟨seq, numbered⟩ :=
    Option.ne_none_iff_exists'.mp sound.references.scheduler
  rcases (stuck_iff stocked issues).mp stuck with refused | finishes
  · cases issues with
    | uploaded acts valid =>
        refine ⟨.database, ?_, rfl⟩
        rw [Database.execute, Except.map_eq_error_iff]
        exact Database.putModule_eq_error (length_of_validate valid) refused
    | _ => exact absurd refused id
  · refine ⟨.corruptScheduler, (sound.execute_eq_corruptScheduler_iff numbered
      (numbers seq numbered)).mpr finishes, ?_⟩
    cases issues with
    | finished _ _ => rfl
    | _ => exact absurd finishes id

end Daemon

namespace Sample

def finish : Api.Route := .finish 20 (.ok ⟨"worker", 1, none, none⟩)

/-- The leased run of the sample is started and finished. -/
def finishing : List Step :=
  steps ++ [asked workerToken 0 (.started 20 (.ok ⟨"worker", 1⟩)),
    asked workerToken 0 finish]

/-- What a worker is answered afterwards. -/
def answer (route : Api.Route) : Api.Reply :=
  (Sample.daemon.service.serve (reached finishing) (fun _ => 5) 0
    ⟨headers workerToken, route⟩).1

end Sample

end Control

end EffectLatch
