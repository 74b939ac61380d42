import EffectLatch.StoreReferences

/-!
# Event heads

The head of a run's event chain is ahead of every stored event of the run, and
since a run has at most three attempts it stays small.  So an append to a
stored run never fails.
-/

namespace EffectLatch

/-- How far the head of a run in this state may be from six events an
attempt. -/
def RunState.headroom : RunState → Int
  | .queued => 2
  | .leased => -3
  | .running => -2
  | .retryWait => 0
  | .succeeded => 4
  | .failed => 4
  | .cancelled => 4
  | .needsReconciliation => 4

theorem RunState.headroom_le (state : RunState) : state.headroom ≤ 4 := by
  cases state <;> decide

/-- Epoch and attempt count the same claims, and the head is within the events
of that many attempts. -/
structure RunRow.HeadBounded (row : RunRow) : Prop where
  epoch : row.leaseEpoch = row.attempt
  positive : 1 ≤ row.nextEventSeq
  bounded : row.nextEventSeq ≤ 6 * row.attempt + row.state.headroom

theorem RunRow.HeadBounded.advance {sha256 : Sha256} {row : RunRow}
    {entries : List (String × List UInt8)}
    (epoch : row.leaseEpoch = row.attempt) (positive : 1 ≤ row.nextEventSeq)
    (room : row.nextEventSeq + entries.length ≤
      6 * row.attempt + row.state.headroom) :
    (row.advance sha256 entries).HeadBounded where
  epoch := epoch
  positive := by
    change 1 ≤ row.nextEventSeq + entries.length
    omega
  bounded := room

namespace Database

variable {sha256 : Sha256} {db next : Database} {clock : Clock}
  {command : Command} {response : Response} {row : RunRow}

theorem headroom_promotionVerdict (db : Database) (policy : ReapPolicy)
    (row : RunRow) : 1 ≤ (db.promotionVerdict policy row).1.headroom := by
  have roomy : ∀ verdict ∈ promotionVerdicts, 1 ≤ verdict.1.headroom := by
    decide
  exact roomy _ (db.promotionVerdict_mem policy row)

theorem headroom_expiryVerdict (db : Database) (policy : ReapPolicy)
    (queueLimit : Int) (row : RunRow) :
    0 ≤ (db.expiryVerdict policy queueLimit row).1.headroom := by
  have roomy : ∀ verdict ∈ reapVerdicts, 0 ≤ verdict.1.headroom := by
    decide
  exact roomy _ (db.expiryVerdict_mem_reap policy queueLimit row)

theorem headroom_finalVerdict (row : RunRow) (errorCode : Option String) :
    (row.finalVerdict errorCode).1.headroom = 4 := by
  rcases row.finalVerdict_cases errorCode with same | same | same <;>
  · rw [same]
    rfl

theorem RunAdmission.headBounded
    (admission : RunAdmission sha256 db clock command row) :
    (row.advance sha256 [("run.admitted", statePayload .queued)]).HeadBounded := by
  cases admission with
  | admitted _ _ _ _ _ =>
      refine RunRow.HeadBounded.advance rfl (le_refl _) ?_
      change (1 : Int) + 1 ≤ 6 * 0 + 2
      decide

theorem RunStep.headBounded {old new : RunRow}
    {entries : List (String × List UInt8)}
    (step : db.RunStep clock command old new entries)
    (before : old.HeadBounded) :
    (new.advance sha256 entries).HeadBounded := by
  obtain ⟨epoch, positive, bounded⟩ := before
  cases step with
  | leased selected _ _ =>
      rw [selected.queued] at bounded
      refine .advance (congrArg (· + 1) epoch) positive ?_
      change old.nextEventSeq ≤ 6 * old.attempt + 2 at bounded
      change old.nextEventSeq + 1 ≤ 6 * (old.attempt + 1) + -3
      omega
  | denied selected _ =>
      rw [selected.queued] at bounded
      refine .advance epoch positive ?_
      change old.nextEventSeq ≤ 6 * old.attempt + 2 at bounded
      change old.nextEventSeq + 2 ≤ 6 * old.attempt + 4
      omega
  | renewed _ _ =>
      refine .advance epoch positive ?_
      change old.nextEventSeq + 0 ≤ 6 * old.attempt + old.state.headroom
      omega
  | started _ waiting =>
      rw [waiting] at bounded
      refine .advance epoch positive ?_
      change old.nextEventSeq ≤ 6 * old.attempt + -3 at bounded
      change old.nextEventSeq + 1 ≤ 6 * old.attempt + -2
      omega
  | @promoted policy _ waiting _ =>
      rw [waiting] at bounded
      have room := db.headroom_promotionVerdict policy old
      refine .advance epoch positive ?_
      change old.nextEventSeq ≤ 6 * old.attempt + 0 at bounded
      change old.nextEventSeq + 1 ≤
        6 * old.attempt + (db.promotionVerdict policy old).1.headroom
      omega
  | @expired policy _ queueLimit _ active _ =>
      have room := db.headroom_expiryVerdict policy queueLimit old
      have held : old.state.headroom ≤ -2 := by
        rcases active with leased | running
        · rw [leased]
          decide
        · rw [running]
          decide
      refine .advance epoch positive ?_
      change old.nextEventSeq + 2 ≤
        6 * old.attempt + (db.expiryVerdict policy queueLimit old).1.headroom
      omega
  | @finished _ _ _ _ _ errorCode _ _ running _ =>
      rw [running] at bounded
      have room := headroom_finalVerdict old errorCode
      refine .advance epoch positive ?_
      change old.nextEventSeq ≤ 6 * old.attempt + -2 at bounded
      change old.nextEventSeq + 1 ≤
        6 * old.attempt + (old.finalVerdict errorCode).1.headroom
      omega
  | cancelRequested =>
      refine .advance epoch positive ?_
      change old.nextEventSeq + 0 ≤ 6 * old.attempt + old.state.headroom
      omega

/-- The head of every run is ahead of its events. -/
structure EventHeads (db : Database) : Prop where
  heads : ∀ row ∈ db.runs.rows, row.HeadBounded
  events : ∀ event ∈ db.runEvents.rows, ∃ row ∈ db.runs.rows,
    row.tenantId = event.tenantId ∧ row.id = event.runId ∧
      event.seq < row.nextEventSeq

theorem eventHeads_migrated : migrated.EventHeads := by
  constructor <;> simp [migrated, Table.empty]

/-- A rewrite keeps the identity of the run and never moves its head back. -/
theorem RunStep.head_le {old new : RunRow}
    {entries : List (String × List UInt8)}
    (step : db.RunStep clock command old new entries) :
    new.tenantId = old.tenantId ∧ new.id = old.id ∧
      new.nextEventSeq = old.nextEventSeq := by
  cases step <;> exact ⟨rfl, rfl, rfl⟩

theorem Transition.eventHeads
    (moved : Transition sha256 db clock command response next)
    (heads : db.EventHeads) : next.EventHeads where
  heads := moved.runs_keep (fun _ admission => admission.headBounded)
    (fun _ _ _ step before => step.headBounded before) heads.heads
  events := by
    rcases moved.runs_cases with ⟨runs, events⟩ |
      ⟨admitted, _, inserted, logged⟩ | ⟨old, new, entries, step, recorded⟩
    · rw [runs, events]
      exact heads.events
    · rw [logged]
      intro event member
      rcases List.mem_append.mp member with earlier | fresh
      · obtain ⟨row, stored, columns⟩ := heads.events event earlier
        exact ⟨row, inserted.old_mem stored, columns⟩
      · obtain ⟨tenantEq, runEq, below⟩ := RunRow.mem_emitted fresh
        exact ⟨_, inserted.new_mem, tenantEq.symm, runEq.symm, below⟩
    · rw [recorded.logged]
      obtain ⟨sameTenant, sameId, sameHead⟩ := step.head_le
      intro event member
      rcases List.mem_append.mp member with earlier | fresh
      · obtain ⟨row, stored, tenantEq, runEq, below⟩ :=
          heads.events event earlier
        by_cases rewritten : row = old
        · subst rewritten
          refine ⟨_, recorded.replaced.new_mem, sameTenant.trans tenantEq,
            sameId.trans runEq, ?_⟩
          simp only [RunRow.advance, sameHead]
          omega
        · exact ⟨row, recorded.replaced.mem_iff.mpr (.inr ⟨stored, rewritten⟩),
            tenantEq, runEq, below⟩
      · obtain ⟨tenantEq, runEq, below⟩ := RunRow.mem_emitted fresh
        exact ⟨_, recorded.replaced.new_mem, tenantEq.symm, runEq.symm, below⟩

end Database

namespace Database

variable {db : Database} {tenant run : Uuid}

/-- `row` is the stored run and has room for `count` more events. -/
structure Appendable (db : Database) (tenant run : Uuid) (row : RunRow)
    (count : Nat) : Prop where
  found : db.findRun tenant run = some row
  positive : 1 ≤ row.nextEventSeq
  room : row.nextEventSeq + count ≤ i64Max
  ahead : ∀ event ∈ db.runEvents.rows, event.tenantId = tenant →
    event.runId = run → event.seq < row.nextEventSeq

theorem EventHeads.appendable {row : RunRow} (heads : db.EventHeads)
    (found : db.findRun tenant run = some row) :
    db.Appendable tenant run row 1000 := by
  obtain ⟨member, tenantEq, idEq⟩ := findRun_eq_some_iff.mp found
  have head := heads.heads row member
  have checked := db.runs.checked row member
  simp only [RunRow.schema, decide_eq_true_eq] at checked
  obtain ⟨_, _, _, _, _, _, few⟩ := checked
  refine ⟨found, head.positive, ?_, ?_⟩
  · have bounded := head.bounded
    have room := row.state.headroom_le
    simp only [i64Max]
    omega
  · intro event stored sameTenant sameRun
    obtain ⟨other, otherMember, _, otherRun, below⟩ :=
      heads.events event stored
    rw [run_eq_of_id otherMember member
      (otherRun.trans (sameRun.trans idEq.symm))] at below
    exact below

/-- A rewrite that passes the check clause succeeds. -/
theorem exists_updateRun (db : Database) (tenant run : Uuid)
    (change : RunRow → RunRow)
    (keepsKey : ∀ row, RunRow.schema.key (change row) = RunRow.schema.key row)
    (checked : ∀ row, RunRow.schema.check row = true →
      RunRow.schema.check (change row) = true) :
    ∃ runs, db.updateRun tenant run change keepsKey =
      .ok { db with runs := runs } := by
  obtain ⟨runs, updated⟩ : ∃ runs, db.runs.update
      (fun row => decide (row.tenantId = tenant ∧ row.id = run)) change
        keepsKey = some runs :=
    Table.exists_update fun row member _ =>
      checked row (db.runs.checked row member)
  exact ⟨runs, by rw [updateRun, updateRuns, updated]; rfl⟩

/-- A rewrite that keeps the head of a stored run leaves room for events. -/
theorem EventHeads.exists_updateRun {row : RunRow} (heads : db.EventHeads)
    (found : db.findRun tenant run = some row) (change : RunRow → RunRow)
    (keepsKey : ∀ row, RunRow.schema.key (change row) = RunRow.schema.key row)
    (checked : ∀ row, RunRow.schema.check row = true →
      RunRow.schema.check (change row) = true)
    (sameHead : (change row).nextEventSeq = row.nextEventSeq) :
    ∃ runs, db.updateRun tenant run change keepsKey =
        .ok { db with runs := runs } ∧
      ({ db with runs := runs } : Database).Appendable tenant run (change row)
        1000 := by
  obtain ⟨runs, updated⟩ :=
    Database.exists_updateRun db tenant run change keepsKey checked
  obtain ⟨otherRuns, same, replaced⟩ := updateRun_ok updated found
  obtain rfl : otherRuns = runs := by simpa using same.symm
  have room := heads.appendable found
  exact ⟨otherRuns, updated, findRun_of_replaced found replaced,
    sameHead ▸ room.positive, sameHead ▸ room.room, sameHead ▸ room.ahead⟩

/-- The next event of a run with room is stored. -/
theorem Appendable.exists_insertRunEvent {row : RunRow} {count : Nat}
    (appendable : db.Appendable tenant run row count) (kind : String)
    {payload : List UInt8} (sized : payload.length ≤ 16384)
    (previous hash : Digest) :
    ∃ events, db.insertRunEvent
        ⟨tenant, run, row.nextEventSeq, kind, payload, previous, hash⟩ =
      .ok { db with runEvents := events } := by
  obtain ⟨found, positive, _, ahead⟩ := appendable
  have known : db.findRun tenant run ≠ none := found ▸ Option.some_ne_none row
  obtain ⟨events, inserted⟩ : ∃ events, db.runEvents.insert
      ⟨tenant, run, row.nextEventSeq, kind, payload, previous, hash⟩ =
        some events := by
    refine Table.exists_insert ?_ ?_
    · intro old stored
      simp only [RunEventRow.schema, decide_eq_false_iff_not, Prod.mk.injEq]
      rintro ⟨sameTenant, sameRun, sameSeq⟩
      have below := ahead old stored sameTenant sameRun
      omega
    · simp only [RunEventRow.schema, decide_eq_true_eq]
      exact ⟨by omega, sized⟩
  exact ⟨events, by rw [insertRunEvent, Except.require_of known, inserted]; rfl⟩

/-- An append to a run with room succeeds and uses up one place. -/
theorem Appendable.exists_appendEvent {row : RunRow} {count : Nat}
    (appendable : db.Appendable tenant run row (count + 1))
    (sha256 : Sha256) (kind : String) (payload : List UInt8)
    (sized : (utf8 kind).length ≠ 0 ∧ (utf8 kind).length ≤ 128 ∧
      payload.length ≤ 16384) :
    ∃ runs events, db.appendEvent sha256 tenant run kind payload =
        .ok { db with runs := runs, runEvents := events } ∧
      ({ db with runs := runs, runEvents := events } :
        Database).Appendable tenant run
          (row.advance sha256 [(kind, payload)]) count := by
  obtain ⟨events, logged⟩ := appendable.exists_insertRunEvent kind sized.2.2
    row.lastEventHash
    (Hash.event sha256 tenant run row.nextEventSeq.toNat row.lastEventHash kind
      payload)
  obtain ⟨found, positive, room, ahead⟩ := appendable
  have seqFits : row.nextEventSeq + 1 ≤ i64Max ∧ 0 < row.nextEventSeq := by
    push_cast at room
    omega
  obtain ⟨runs, updated⟩ := exists_updateRun
    { db with runEvents := events } tenant run
    (fun other => { other with
      nextEventSeq := row.nextEventSeq + 1
      lastEventHash := Hash.event sha256 tenant run row.nextEventSeq.toNat
        row.lastEventHash kind payload })
    (fun _ => rfl) fun _ checked => checked
  have appended : db.appendEvent sha256 tenant run kind payload =
      .ok { db with runs := runs, runEvents := events } := by
    simp only [appendEvent, found, Except.require_of sized, Except.fetch_some,
      Except.ok_bind_eq, Except.require_of seqFits, logged]
    exact updated
  obtain ⟨otherRuns, otherEvents, same, replaced, stored⟩ :=
    appendEvent_ok appended found
  obtain ⟨rfl, rfl⟩ : otherRuns = runs ∧ otherEvents = events := by
    simpa using same.symm
  refine ⟨otherRuns, otherEvents, appended,
    findRun_of_replaced found replaced, ?_, ?_, ?_⟩
  · change 1 ≤ row.nextEventSeq + 1
    omega
  · change row.nextEventSeq + 1 + (count : Int) ≤ i64Max
    push_cast at room
    omega
  · intro old member sameTenant sameRun
    change old ∈ otherEvents.rows at member
    rw [stored] at member
    rcases List.mem_append.mp member with earlier | fresh
    · have below := ahead old earlier sameTenant sameRun
      change old.seq < row.nextEventSeq + 1
      omega
    · exact (RunRow.mem_emitted fresh).2.2

end Database

theorem Reachable.eventHeads {sha256 : Sha256}
    {allowed : Database → Call → Prop} {db : Database}
    (reached : Reachable sha256 allowed db) : db.EventHeads :=
  reached.invariant Database.EventHeads Database.eventHeads_migrated
    fun _ _ _ _ heads _ moved => moved.eventHeads heads

end EffectLatch
