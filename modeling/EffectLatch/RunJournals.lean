import EffectLatch.EventChainBinding
import EffectLatch.SlotAccounting

/-!
# The event log as a journal

An auditor who reads only kinds and payloads, in the order of `seq`, gets back
the state, the epoch, the attempt and the slot of every run.  Row and events
are written by different statements with hand-formatted payloads, so that the
two agree is a theorem about all of them.
-/

namespace EffectLatch

/-- The columns of a run that its log accounts for. -/
structure RunStatus where
  state : RunState
  leaseEpoch : Int
  attempt : Int
  activeSlotHeld : Bool
deriving DecidableEq

def RunRow.status (row : RunRow) : RunStatus where
  state := row.state
  leaseEpoch := row.leaseEpoch
  attempt := row.attempt
  activeSlotHeld := row.activeSlotHeld

namespace Journal

/-- What follows a fixed beginning. -/
def after (front bytes : List UInt8) : Option (List UInt8) :=
  if front.isPrefixOf bytes then some (bytes.drop front.length) else none

/-- The state a payload names in its first field. -/
def namedState (payload : List UInt8) : Option RunState := do
  let rest ← after (utf8 "\x7b\"state\":\"") payload
  let name := rest.takeWhile fun byte => byte != 0x22
  [RunState.queued, .retryWait, .leased, .running, .succeeded, .failed,
    .cancelled, .needsReconciliation].find? fun state =>
      utf8 state.text == name

/-- The epoch a claim names in its first field. -/
def namedEpoch (payload : List UInt8) : Option Int := do
  let rest ← after (utf8 "\x7b\"epoch\":") payload
  let digits := rest.takeWhile fun byte => 0x30 ≤ byte && byte ≤ 0x39
  some (digits.foldl (fun value byte => value * 10 + (byte.toNat - 0x30)) 0)

/-- The state an event kind announces. -/
def announced (kind : String) : Option RunState :=
  if kind = "run.admitted" then some .queued
  else if kind = "runner.started" then some .running
  else if kind = "run.requeued" then some .queued
  else if kind = "run.retry_wait" then some .retryWait
  else if kind = "run.needs_reconciliation" then some .needsReconciliation
  else if kind = "run.cancelled" then some .cancelled
  else if kind = "run.failed" then some .failed
  else if kind = "run.succeeded" then some .succeeded
  else none

/-- The state that kind and payload agree on. -/
def agreed (entry : String × List UInt8) : Option RunState := do
  let state ← announced entry.1
  let named ← namedState entry.2
  if named = state then some state else none

/-- One event read as a transition; `none` when it names none. -/
def replayEvent (status : RunStatus) (entry : String × List UInt8) :
    Option RunStatus :=
  if entry.1 = "lease.claimed" then do
    let epoch ← namedEpoch entry.2
    some
      { state := .leased
        leaseEpoch := epoch
        attempt := status.attempt + 1
        activeSlotHeld := true }
  else if entry.1 = "lease.expired" then
    some { status with activeSlotHeld := false }
  else if entry.1 = "grant.denied" then
    some status
  else do
    let state ← agreed entry
    -- a final state gives back the slot the run finished under
    some { status with
      state := state
      activeSlotHeld := status.activeSlotHeld && !state.terminal }

/-- The status a log describes: an admission and then transitions. -/
def replay : List (String × List UInt8) → Option RunStatus
  | [] => none
  | admission :: rest => do
      if admission.1 = "run.admitted" then
        let state ← agreed admission
        rest.foldlM replayEvent
          { state := state
            leaseEpoch := 0
            attempt := 0
            activeSlotHeld := false }
      else
        none

theorem replay_append {entries : List (String × List UInt8)}
    {status : RunStatus} (replayed : replay entries = some status)
    (later : List (String × List UInt8)) :
    replay (entries ++ later) = later.foldlM replayEvent status := by
  cases entries with
  | nil => simp [replay] at replayed
  | cons admission rest =>
      simp only [List.cons_append, replay] at replayed ⊢
      split at replayed
      next first =>
        rw [if_pos first]
        obtain ⟨state, named, folded⟩ := Option.bind_eq_some_iff.mp replayed
        simp only [Option.bind_eq_bind, named, Option.bind_some,
          List.foldlM_append, folded]
      next => simp at replayed

theorem namedState_statePayload (state : RunState) :
    namedState (statePayload state) = some state := by
  cases state <;> decide +kernel

/-- A run is claimed at most three times, so its epochs are single digits. -/
theorem namedEpoch_claimPayload {epoch : Int} (positive : 1 ≤ epoch)
    (few : epoch ≤ 3) (worker : String) :
    namedEpoch (claimPayload epoch worker) = some epoch := by
  have split : claimPayload epoch worker =
      utf8 ("\x7b\"epoch\":" ++ toString epoch ++ ",\"worker_id\":\"") ++
        utf8 (worker ++ "\"\x7d") := by
    rw [← utf8_append, claimPayload]
    simp only [String.append_assoc]
  rw [split]
  obtain rfl | rfl | rfl : epoch = 1 ∨ epoch = 2 ∨ epoch = 3 := by omega
  · rfl
  · rfl
  · rfl

/-- A state event with its own payload moves the run to that state. -/
theorem replayEvent_announced {kind : String} {state : RunState}
    (status : RunStatus)
    (plain : kind ≠ "lease.claimed" ∧ kind ≠ "lease.expired" ∧
      kind ≠ "grant.denied")
    (announces : announced kind = some state) :
    replayEvent status (kind, statePayload state) =
      some { status with
        state := state
        activeSlotHeld := status.activeSlotHeld && !state.terminal } := by
  have both : agreed (kind, statePayload state) = some state := by
    simp [agreed, announces, namedState_statePayload]
  simp only [replayEvent, if_neg plain.1, if_neg plain.2.1, if_neg plain.2.2,
    both, Option.bind_eq_bind, Option.bind_some]

end Journal

namespace Database

variable {sha256 : Sha256} {db next : Database} {clock : Clock}
  {command : Command} {response : Response} {row : RunRow}

/-- Where the verdicts of a sweep go is what their events say. -/
theorem replayEvent_reaped {verdict : Verdict}
    (reaped : verdict ∈ reapVerdicts) (status : RunStatus)
    (free : status.activeSlotHeld = false) :
    Journal.replayEvent status (verdict.2.2, statePayload verdict.1) =
      some { status with state := verdict.1 } := by
  have plain : ∀ verdict ∈ reapVerdicts, verdict.2.2 ≠ "lease.claimed" ∧
      verdict.2.2 ≠ "lease.expired" ∧ verdict.2.2 ≠ "grant.denied" := by
    decide
  have announces : ∀ verdict ∈ reapVerdicts,
      Journal.announced verdict.2.2 = some verdict.1 := by
    decide
  rw [Journal.replayEvent_announced status (plain verdict reaped)
    (announces verdict reaped), free, Bool.false_and]

theorem replayEvent_finalVerdict (row : RunRow) (errorCode : Option String)
    (status : RunStatus) :
    Journal.replayEvent status ((row.finalVerdict errorCode).2,
        statePayload (row.finalVerdict errorCode).1) =
      some { status with
        state := (row.finalVerdict errorCode).1
        activeSlotHeld := false } := by
  unfold RunRow.finalVerdict
  split_ifs <;>
  · rw [Journal.replayEvent_announced status (by decide) (by decide)]
    simp [RunState.terminal]

/-- Replaying the events of a rewrite from the old status gives the new one. -/
theorem RunStep.replayed {old new : RunRow}
    {entries : List (String × List UInt8)}
    (step : db.RunStep clock command old new entries)
    (positive : 0 ≤ old.leaseEpoch) (few : new.leaseEpoch ≤ 3) :
    entries.foldlM Journal.replayEvent old.status = some new.status := by
  cases step with
  | @leased worker _ _ _ _ _ _ _ _ _ _ =>
      change old.leaseEpoch + 1 ≤ 3 at few
      have named : Journal.namedEpoch
          (claimPayload (old.leaseEpoch + 1) worker) =
            some (old.leaseEpoch + 1) :=
        Journal.namedEpoch_claimPayload (by omega) few worker
      simp [Journal.replayEvent, named, RunRow.status, RunRow.leasedBy]
  | denied selected _ =>
      have failed : Journal.agreed ("run.failed", utf8
          "\x7b\"state\":\"failed\",\"error_code\":\"GRANT_DENIED\"\x7d") =
            some .failed := by
        decide +kernel
      simp [Journal.replayEvent, failed, RunRow.status, RunRow.deniedAt,
        selected.free]
  | renewed _ _ => rfl
  | started _ _ =>
      have moved : Journal.replayEvent old.status
          ("runner.started", statePayload .running) =
            some { old.status with
              state := .running
              activeSlotHeld := old.status.activeSlotHeld && true } :=
        Journal.replayEvent_announced old.status (by decide) (by decide)
      rw [Bool.and_true] at moved
      simp only [List.foldlM_cons, List.foldlM_nil, moved,
        Option.bind_eq_bind, Option.bind_some]
      rfl
  | @promoted policy _ _ free =>
      have moved := replayEvent_reaped
        (db.promotionVerdict_mem_reap policy old) old.status free
      simp only [List.foldlM_cons, List.foldlM_nil, moved,
        Option.bind_eq_bind, Option.bind_some]
      rfl
  | @expired policy _ queueLimit _ _ _ =>
      have released : Journal.replayEvent old.status
          ("lease.expired", utf8 "\x7b\"expired\":true\x7d") =
            some { old.status with activeSlotHeld := false } := by
        simp [Journal.replayEvent]
      have moved := replayEvent_reaped
        (db.expiryVerdict_mem_reap policy queueLimit old)
        { old.status with activeSlotHeld := false } rfl
      simp only [List.foldlM_cons, List.foldlM_nil, released, moved,
        Option.bind_eq_bind, Option.bind_some]
      rfl
  | @finished _ _ _ _ _ errorCode _ _ _ _ =>
      have moved := replayEvent_finalVerdict old errorCode old.status
      simp only [List.foldlM_cons, List.foldlM_nil, moved,
        Option.bind_eq_bind, Option.bind_some]
      rfl
  | cancelRequested => rfl

/-- A rewrite changes the status exactly when it records events. -/
theorem RunStep.status_eq_iff {old new : RunRow}
    {entries : List (String × List UInt8)}
    (step : db.RunStep clock command old new entries) :
    new.status = old.status ↔ entries = [] := by
  cases step with
  | leased selected _ _ =>
      simp [RunRow.status, RunRow.leasedBy, selected.queued]
  | denied selected _ =>
      simp [RunRow.status, RunRow.deniedAt, selected.queued]
  | renewed _ _ => simp [RunRow.status, RunRow.renewedUntil]
  | started _ waiting => simp [RunRow.status, RunRow.startedAt, waiting]
  | @promoted policy _ waiting _ =>
      have leaves := db.promotionVerdict_leaves policy old
      simp [RunRow.status, RunRow.movedTo, waiting, leaves]
  | expired held _ _ => simp [RunRow.status, RunRow.releasedTo, held]
  | finished lease _ _ => simp [RunRow.status, RunRow.finishedAs, lease.held]
  | cancelRequested => simp [RunRow.status, RunRow.cancelAsked]

theorem RunAdmission.replayed
    (admission : RunAdmission sha256 db clock command row) :
    Journal.replay [("run.admitted", statePayload .queued)] =
      some row.status := by
  cases admission with
  | admitted _ _ _ _ _ =>
      have queued : Journal.agreed ("run.admitted", statePayload .queued) =
          some .queued := by
        decide +kernel
      simp only [Journal.replay, if_true, queued, Option.bind_eq_bind,
        Option.bind_some, List.foldlM_nil]
      rfl

/-- The log of every run replays to its row. -/
def Journaled (db : Database) : Prop :=
  ∀ row ∈ db.runs.rows,
    Journal.replay ((db.eventsOf row.id).map RunEventRow.entry) =
      some row.status

theorem Transition.journaled
    (moved : Transition sha256 db clock command response next)
    (heads : db.EventHeads) (journaled : db.Journaled) : next.Journaled := by
  intro row member
  cases moved.logMove heads member with
  | kept stored events =>
      rw [events]
      exact journaled row stored
  | admitted admission _ same events =>
      rw [events, RunRow.emitted_entries, admission.replayed, same]
      rfl
  | @rewritten old new entries stored sameId step same events =>
      have checked := db.runs.checked old stored
      have newChecked := next.runs.checked row member
      have bounded := (moved.eventHeads heads).heads row member
      simp only [RunRow.schema, decide_eq_true_eq] at checked newChecked
      have few : row.leaseEpoch ≤ 3 := by
        rw [bounded.epoch]
        exact newChecked.2.2.2.2.2.2
      have replayed := Journal.replay_append (journaled old stored)
        ((new.emitted sha256 entries).map RunEventRow.entry)
      rw [events, List.map_append, ← sameId, replayed, RunRow.emitted_entries]
      subst same
      exact step.replayed checked.2.2.2.2.1 few

/-- The events of a run in the order of `seq`. -/
def eventLog (db : Database) (run : Uuid) : List RunEventRow :=
  (db.eventsOf run).insertionSort fun first second => first.seq ≤ second.seq

/-- An intact chain was appended in the order of `seq`. -/
theorem eventLog_eq_eventsOf
    (intact : row.ChainIntact sha256 (db.eventsOf row.id)) :
    db.eventLog row.id = db.eventsOf row.id := by
  apply List.Pairwise.insertionSort_eq
  rw [← List.pairwise_map (f := RunEventRow.seq) (R := fun a b => a ≤ b),
    intact.numbered, List.pairwise_map]
  apply List.pairwise_le_range.imp
  intro first second before
  omega

theorem findRunById_status_of_mem (member : row ∈ db.runs.rows) :
    (db.findRunById row.id).map RunRow.status = some row.status := by
  rw [findRunById_eq_some_iff.mpr ⟨member, rfl⟩]
  rfl

/-- A call appends to the log of a run exactly when it changes its status. -/
theorem Transition.log_growth
    (moved : Transition sha256 db clock command response next)
    (heads : db.EventHeads) (run : Uuid) :
    ∃ added, next.eventsOf run = db.eventsOf run ++ added ∧
      (added = [] ↔ (next.findRunById run).map RunRow.status =
        (db.findRunById run).map RunRow.status) := by
  cases found : next.findRunById run with
  | none =>
      have absent : ∀ row ∈ next.runs.rows, row.id ≠ run := by
        simpa [findRunById, List.find?_eq_none] using found
      have before : ∀ row ∈ db.runs.rows, row.id ≠ run := by
        intro row member sameId
        obtain ⟨new, newFound, _⟩ := moved.extends.findRun_eq_some
          (findRun_eq_some_iff.mpr ⟨member, rfl, sameId⟩)
        obtain ⟨newMember, _, newId⟩ := findRun_eq_some_iff.mp newFound
        exact absent new newMember newId
      have missing : db.findRunById run = none := by
        simpa [findRunById, List.find?_eq_none] using before
      refine ⟨[], ?_, ?_⟩
      · rw [heads.eventsOf_eq_nil before,
          (moved.eventHeads heads).eventsOf_eq_nil absent]
        rfl
      · simp [missing]
  | some row =>
      obtain ⟨member, rfl⟩ := findRunById_eq_some_iff.mp found
      cases moved.logMove heads member with
      | kept stored events =>
          refine ⟨[], by rw [events, List.append_nil], ?_⟩
          simp [findRunById_status_of_mem stored]
      | admitted _ absent _ events =>
          have missing : db.findRunById row.id = none := by
            simpa [findRunById, List.find?_eq_none] using absent
          refine ⟨_, by rw [heads.eventsOf_eq_nil absent, List.nil_append,
            events], ?_⟩
          simp [missing, RunRow.emitted, RunRow.chainEvents]
      | @rewritten old new entries stored sameId step same events =>
          refine ⟨_, events, ?_⟩
          have empty : new.emitted sha256 entries = [] ↔ entries = [] := by
            rw [← List.length_eq_zero_iff, ← List.length_map RunEventRow.entry,
              RunRow.emitted_entries, List.length_eq_zero_iff]
          have status : row.status = new.status := by
            rw [same]
            rfl
          rw [← sameId, findRunById_status_of_mem stored, empty,
            ← step.status_eq_iff, Option.map_some, status, Option.some.injEq]

end Database

/-- In every run of the store the log of each run, read in the order of `seq`,
replays to its state, epoch, attempt and slot, and a call appends to the log of
a run exactly when it changes one of these. -/
theorem eventLogs_journal_runs {sha256 : Sha256}
    {allowed : Database → Call → Prop} {db : Database} {history : List Event}
    (execution : StoreExecution sha256 allowed history db) :
    (∀ row ∈ db.runs.rows,
      Journal.replay ((db.eventLog row.id).map RunEventRow.entry) =
        some row.status) ∧
    ∀ event ∈ history, ∀ run, ∃ added,
      event.after.eventsOf run = event.before.eventsOf run ++ added ∧
      (added = [] ↔ (event.after.findRunById run).map RunRow.status =
        (event.before.findRunById run).map RunRow.status) := by
  constructor
  · have reached : Reachable sha256 allowed db := ⟨history, execution⟩
    have together := reached.invariant
      (fun db => db.EventHeads ∧ Database.ChainHeads sha256 db ∧ db.Journaled)
      ⟨Database.eventHeads_migrated,
        by simp [Database.ChainHeads, Database.migrated, Table.empty],
        by simp [Database.Journaled, Database.migrated, Table.empty]⟩
      fun _ _ _ _ holds _ moved => ⟨moved.eventHeads holds.1,
        moved.chainHeads holds.1 holds.2.1, moved.journaled holds.1 holds.2.2⟩
    intro row member
    rw [Database.eventLog_eq_eventsOf (together.2.1 row member).intact]
    exact together.2.2 row member
  · intro event member run
    obtain ⟨_, _, reached, _, done, _⟩ := execution.split_mem member
    have heads := Reachable.eventHeads ⟨_, reached⟩
    rcases Database.moved_of_perform done with
      ⟨_, _, same⟩ | ⟨response, _, moved⟩
    · exact ⟨[], by rw [same, List.append_nil], by simp [same]⟩
    · exact moved.log_growth heads run

theorem eventLogs_journal_runs_completed :
    ∃ row ∈ (Sample.after Sample.completed).runs.rows,
      row.status = ⟨.succeeded, 1, 1, false⟩ ∧
      Journal.replay (((Sample.after Sample.completed).eventLog row.id).map
        RunEventRow.entry) = some ⟨.succeeded, 1, 1, false⟩ := by
  have execution : StoreExecution Sample.sha256 (fun _ _ => True) _
      (Sample.after Sample.completed) :=
    Sample.execution_after fun _ _ _ => trivial
  have finished : ∃ row ∈ (Sample.after Sample.completed).runs.rows,
      row.status = ⟨.succeeded, 1, 1, false⟩ := by decide +kernel
  obtain ⟨row, member, status⟩ := finished
  refine ⟨row, member, status, ?_⟩
  rw [← status]
  exact (eventLogs_journal_runs execution).1 row member

end EffectLatch
