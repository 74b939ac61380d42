import EffectLatch.LockWaitGraphs
import EffectLatch.StoreCalls

/-!
# The lock protocol of the store

Which row locks each operation asks for, statement by statement, and how any
number of open transactions asks for them in any interleaving.  A statement that
meets a conflicting lock waits; locks are held until the transaction ends, which
it may do after any statement.
-/

namespace EffectLatch

/-- The row locks the store takes.  `FOR UPDATE` and the advisory lock are
`forUpdate`, an `UPDATE` of other than key columns is `noKeyUpdate`, and an
`INSERT` takes `keyShare` on every row its foreign keys refer to. -/
inductive LockMode where
  | keyShare
  | noKeyUpdate
  | forUpdate
deriving DecidableEq

/-- Whether a request is held up by a lock of another transaction. -/
def LockMode.conflicts : LockMode → LockMode → Bool
  | .keyShare, .forUpdate => true
  | .keyShare, _ => false
  | .noKeyUpdate, .keyShare => false
  | .noKeyUpdate, _ => true
  | .forUpdate, _ => true

inductive Resource where
  | advisory
  | schedulerState
  | tenant (id : Uuid)
  | run (tenant id : Uuid)
  | module (tenant : Uuid) (digest : Digest)
  | grant (tenant id : Uuid)
  | effect (tenant run : Uuid) (ordinal : Int)
deriving DecidableEq

abbrev Lock := Resource × LockMode

/-- The locks a transaction still asks for.  Those of a grant ancestry are known
only once its identities are read. -/
inductive LockProgram where
  | done
  | lock (request : Lock) (rest : LockProgram)
  | loadGrantChainLocked (tenant leaf : Uuid)
      (rest : List Uuid → LockProgram)

namespace LockProgram

/-- Ask for the locks in order, then go on. -/
def locks (requests : List Lock) (rest : LockProgram) : LockProgram :=
  requests.foldr lock rest

end LockProgram

/-- Lock the rows of an ancestry in the order they were read. -/
def chainLocks (tenant : Uuid) (ids : List Uuid) : List Lock :=
  ids.map fun id => (.grant tenant id, .forUpdate)

def beginSchedulerLocks : List Lock :=
  [(.advisory, .forUpdate), (.schedulerState, .forUpdate)]

/-- The head of the run, the foreign key of the event, the new head. -/
def appendEventLocks (tenant run : Uuid) : List Lock :=
  [(.run tenant run, .forUpdate), (.run tenant run, .keyShare),
    (.run tenant run, .noKeyUpdate)]

/-- An operation with the rows it works on.  Where an operation goes two ways,
each way is listed; a way that ends early is one whose transaction ends
early. -/
inductive Operation where
  | admitExisting (tenant run : Uuid)
  | admitFresh (tenant run : Uuid) (digest : Digest) (grant : Uuid)
  | claimDenied (tenant run grant : Uuid)
  | claimLeased (tenant run grant : Uuid)
  | heartbeatRun (tenant run : Uuid)
  | markRunStarted (tenant run : Uuid)
  | reapWaiting (tenant run : Uuid)
  | reapExpired (tenant run : Uuid)
  | finishRun (tenant run : Uuid)
  | createRoot (tenant : Uuid)
  | createChild (tenant parent : Uuid)
  | getGrant (tenant id : Uuid)
  | revokeGrant (tenant id : Uuid)
  | reserveGrantChain (tenant run : Uuid) (ordinal : Int) (grant : Uuid)

namespace Operation

open LockProgram

def program : Operation → LockProgram
  | admitExisting tenant run =>
      locks (beginSchedulerLocks ++
        [(.tenant tenant, .forUpdate), (.run tenant run, .forUpdate)]) done
  | admitFresh tenant run digest grant =>
      -- the inserted run is locked before its foreign keys are looked up
      locks (beginSchedulerLocks ++
        [(.tenant tenant, .forUpdate), (.run tenant run, .forUpdate)]) <|
      locks [(.tenant tenant, .keyShare)] <|
      locks [(.module tenant digest, .keyShare), (.grant tenant grant, .keyShare)]
        <|
      locks (appendEventLocks tenant run) done
  | claimDenied tenant run grant =>
      locks (beginSchedulerLocks ++
        [(.tenant tenant, .forUpdate), (.run tenant run, .forUpdate)]) <|
      loadGrantChainLocked tenant grant fun _ =>
        locks ((.run tenant run, .noKeyUpdate) :: appendEventLocks tenant run ++
          appendEventLocks tenant run) done
  | claimLeased tenant run grant =>
      locks (beginSchedulerLocks ++
        [(.tenant tenant, .forUpdate), (.run tenant run, .forUpdate)]) <|
      loadGrantChainLocked tenant grant fun _ =>
        locks ([(.schedulerState, .noKeyUpdate), (.tenant tenant, .noKeyUpdate),
          (.run tenant run, .noKeyUpdate)] ++ appendEventLocks tenant run) done
  | heartbeatRun tenant run => locks [(.run tenant run, .noKeyUpdate)] done
  | markRunStarted tenant run =>
      locks [(.run tenant run, .forUpdate)] <|
      locks ((.run tenant run, .noKeyUpdate) :: appendEventLocks tenant run) done
  | reapWaiting tenant run =>
      locks (beginSchedulerLocks ++
        [(.tenant tenant, .forUpdate), (.run tenant run, .forUpdate)]) <|
      locks ((.run tenant run, .noKeyUpdate) :: appendEventLocks tenant run) done
  | reapExpired tenant run =>
      locks (beginSchedulerLocks ++
        [(.tenant tenant, .forUpdate), (.run tenant run, .forUpdate)]) <|
      locks ([(.tenant tenant, .noKeyUpdate), (.run tenant run, .noKeyUpdate)] ++
        appendEventLocks tenant run ++ appendEventLocks tenant run) done
  | finishRun tenant run =>
      locks (beginSchedulerLocks ++
        [(.tenant tenant, .forUpdate), (.run tenant run, .forUpdate)]) <|
      locks ([(.tenant tenant, .noKeyUpdate), (.run tenant run, .noKeyUpdate)] ++
        appendEventLocks tenant run) done
  | createRoot tenant =>
      -- the foreign keys of the grant and of the operator event
      locks [(.tenant tenant, .forUpdate)] <|
      locks [(.tenant tenant, .keyShare), (.tenant tenant, .keyShare)] done
  | createChild tenant parent =>
      -- the tenant is asked for only now, with the ancestry locked
      loadGrantChainLocked tenant parent fun _ =>
        locks [(.tenant tenant, .keyShare), (.grant tenant parent, .keyShare),
          (.tenant tenant, .keyShare)] done
  | getGrant tenant id => loadGrantChainLocked tenant id fun _ => done
  | revokeGrant tenant id =>
      loadGrantChainLocked tenant id fun _ =>
        locks [(.grant tenant id, .noKeyUpdate), (.tenant tenant, .keyShare)] done
  | reserveGrantChain tenant run ordinal grant =>
      locks [(.run tenant run, .forUpdate)] <|
      loadGrantChainLocked tenant grant fun ids =>
        locks [(.effect tenant run ordinal, .forUpdate)] <|
        locks (ids.flatMap (fun id =>
            [(.grant tenant id, .noKeyUpdate),
              (.effect tenant run ordinal, .keyShare),
              (.grant tenant id, .keyShare)]) ++
          [(.effect tenant run ordinal, .noKeyUpdate)]) done

end Operation

/-- An open transaction: what it still asks for, what it holds, and whether its
next request is waiting. -/
structure Session where
  program : LockProgram
  held : List Lock
  waiting : Bool

namespace Session

def opened (operation : Operation) : Session := ⟨operation.program, [], false⟩

def ended : Session := ⟨.done, [], false⟩

/-- The session holds a lock against the request. -/
def blocks (session : Session) (request : Lock) : Bool :=
  session.held.any fun lock =>
    decide (lock.1 = request.1) && request.2.conflicts lock.2

end Session

/-- The committed state and the transactions opened so far, by number. -/
structure LockSystem where
  db : Database
  sessions : List Session

inductive LockAction where
  | commit (call : Call)
  | start (operation : Operation)
  | proceed (transaction : Nat)
  | finish (transaction : Nat)

namespace LockSystem

/-- Another transaction holds a lock against the request. -/
def blocked (system : LockSystem) (transaction : Nat) (request : Lock) : Bool :=
  (List.range system.sessions.length).any fun other =>
    decide (other ≠ transaction) &&
      (system.sessions[other]?).any fun session => session.blocks request

def withSession (system : LockSystem) (transaction : Nat)
    (session : Session) : LockSystem :=
  { system with sessions := system.sessions.set transaction session }

/-- The next step of a transaction: read an ancestry, or ask for a lock and get
it or wait.  An ancestry that is not there ends the transaction. -/
def proceed (system : LockSystem) (transaction : Nat) : LockSystem :=
  match system.sessions[transaction]? with
  | none => system
  | some session =>
      match session.program with
      | .done => system
      | .loadGrantChainLocked tenant leaf rest =>
          let ids := system.db.chainIds tenant leaf
          if ids = [] ∨ 5 < ids.length then
            system.withSession transaction Session.ended
          else
            system.withSession transaction
              ⟨LockProgram.locks (chainLocks tenant ids) (rest ids),
                session.held, false⟩
      | .lock request rest =>
          if system.blocked transaction request then
            system.withSession transaction { session with waiting := true }
          else
            system.withSession transaction
              ⟨rest, request :: session.held, false⟩

/-- Commits of the store happen between any two lock steps, those of the open
transactions among them. -/
def perform (sha256 : Sha256) (system : LockSystem) (action : LockAction) :
    Unit × LockSystem :=
  match action with
  | .commit call =>
      ((), { system with db := (system.db.perform sha256 call).2 })
  | .start operation =>
      ((), { system with
        sessions := system.sessions ++ [Session.opened operation] })
  | .proceed transaction => ((), system.proceed transaction)
  | .finish transaction =>
      ((), system.withSession transaction Session.ended)

/-- No transaction is open on the migrated database. -/
def initial : LockSystem := ⟨Database.migrated, []⟩

def Holds (system : LockSystem) (transaction : Nat) (resource : Resource)
    (mode : LockMode) : Prop :=
  ∃ session, system.sessions[transaction]? = some session ∧
    (resource, mode) ∈ session.held

def Waits (system : LockSystem) (transaction : Nat) (resource : Resource)
    (mode : LockMode) : Prop :=
  ∃ session rest, system.sessions[transaction]? = some session ∧
    session.waiting = true ∧ session.program = .lock (resource, mode) rest

/-- `first` waits for a lock that `second` holds. -/
def WaitsFor (system : LockSystem) (first second : Nat) : Prop :=
  LockTable.WaitsFor (fun mode held => mode.conflicts held = true) system.Holds
    system.Waits first second

/-- The next request of the transaction. -/
def nextRequest (system : LockSystem) (transaction : Nat) : Option Lock :=
  (system.sessions[transaction]?).bind fun session =>
    match session.program with
    | .lock request _ => some request
    | _ => none

/-- The step asks for no foreign-key lock on a tenant that another transaction
holds for update. -/
def tenantReferenceFree (system : LockSystem) : LockAction → Bool
  | .proceed transaction =>
      match system.nextRequest transaction with
      | some (.tenant tenant, .keyShare) =>
          !system.blocked transaction (.tenant tenant, .keyShare)
      | _ => true
  | _ => true

end LockSystem

end EffectLatch
