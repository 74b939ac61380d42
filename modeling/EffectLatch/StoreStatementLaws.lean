import EffectLatch.StoreStatements

/-!
# Laws of the store's statements

A lookup by a unique column set finds the stored row, a successful update
replaces one row, and appended events extend the run's hash chain.  Proofs
about operations use these laws and never unfold a statement.
-/

namespace EffectLatch

namespace RunRow

/-- The events that recording `entries` emits from the head of the run, and the
hash of the last one. -/
def chainEvents (sha256 : Sha256) (tenant run : Uuid) :
    Int → Digest → List (String × List UInt8) → List RunEventRow × Digest
  | _, previous, [] => ([], previous)
  | seq, previous, (kind, payload) :: rest =>
      let hash := Hash.event sha256 tenant run seq.toNat previous kind payload
      let (later, last) := chainEvents sha256 tenant run (seq + 1) hash rest
      (⟨tenant, run, seq, kind, payload, previous, hash⟩ :: later, last)

/-- The event rows that recording `entries` for this run inserts. -/
def emitted (sha256 : Sha256) (row : RunRow)
    (entries : List (String × List UInt8)) : List RunEventRow :=
  (chainEvents sha256 row.tenantId row.id row.nextEventSeq row.lastEventHash
    entries).1

/-- The run with its event head moved past `entries`. -/
def advance (sha256 : Sha256) (row : RunRow)
    (entries : List (String × List UInt8)) : RunRow :=
  { row with
    nextEventSeq := row.nextEventSeq + entries.length
    lastEventHash := (chainEvents sha256 row.tenantId row.id row.nextEventSeq
      row.lastEventHash entries).2 }

theorem advance_nil (sha256 : Sha256) (row : RunRow) :
    row.advance sha256 [] = row := by
  simp [advance, chainEvents]

theorem chainEvents_append (sha256 : Sha256) (tenant run : Uuid) (seq : Int)
    (previous : Digest) (entries later : List (String × List UInt8)) :
    chainEvents sha256 tenant run seq previous (entries ++ later) =
      let first := chainEvents sha256 tenant run seq previous entries
      let second := chainEvents sha256 tenant run (seq + entries.length)
        first.2 later
      (first.1 ++ second.1, second.2) := by
  induction entries generalizing seq previous with
  | nil => simp [chainEvents]
  | cons entry rest ih =>
      have count : seq + 1 + (rest.length : Int) =
          seq + ((entry :: rest).length : Int) := by
        simp only [List.length_cons, Nat.cast_add, Nat.cast_one]
        omega
      simp only [List.cons_append, chainEvents, ih, count]

theorem advance_append (sha256 : Sha256) (row : RunRow)
    (entries later : List (String × List UInt8)) :
    row.advance sha256 (entries ++ later) =
      (row.advance sha256 entries).advance sha256 later := by
  simp only [advance, chainEvents_append, List.length_append, Nat.cast_add,
    Int.add_assoc]

theorem emitted_append (sha256 : Sha256) (row : RunRow)
    (entries later : List (String × List UInt8)) :
    row.emitted sha256 (entries ++ later) =
      row.emitted sha256 entries ++
        (row.advance sha256 entries).emitted sha256 later := by
  simp only [emitted, advance, chainEvents_append]

/-- Recorded events belong to the run they are recorded for and are numbered
below its new head. -/
theorem mem_emitted {sha256 : Sha256} {row : RunRow} {event : RunEventRow}
    {entries : List (String × List UInt8)}
    (member : event ∈ row.emitted sha256 entries) :
    event.tenantId = row.tenantId ∧ event.runId = row.id ∧
      event.seq < row.nextEventSeq + entries.length := by
  unfold emitted at member
  generalize row.nextEventSeq = seq at member ⊢
  generalize row.lastEventHash = previous at member
  induction entries generalizing seq previous with
  | nil => simp [chainEvents] at member
  | cons entry rest ih =>
      simp only [chainEvents, List.mem_cons] at member
      simp only [List.length_cons, Nat.cast_add, Nat.cast_one]
      rcases member with rfl | later
      · refine ⟨rfl, rfl, ?_⟩
        change seq < seq + (rest.length + 1)
        omega
      · obtain ⟨tenantEq, runEq, below⟩ := ih _ _ later
        exact ⟨tenantEq, runEq, by omega⟩

end RunRow

namespace Database

variable {db next : Database}

theorem tenants_alone (db : Database) (id : Uuid) :
    List.Alone (fun row => decide (row.id = id)) db.tenants.rows := by
  apply db.tenants.alone
  intro first second firstChosen secondChosen
  simp only [decide_eq_true_eq] at firstChosen secondChosen
  simp [TenantRow.schema, firstChosen, secondChosen]

theorem modules_alone (db : Database) (tenant : Uuid) (digest : Digest) :
    List.Alone
      (fun row => decide (row.tenantId = tenant ∧ row.digest = digest))
      db.modules.rows := by
  apply db.modules.alone
  intro first second firstChosen secondChosen
  simp only [decide_eq_true_eq] at firstChosen secondChosen
  simp [ModuleRow.schema, firstChosen, secondChosen]

theorem grants_alone (db : Database) (tenant id : Uuid) :
    List.Alone (fun row => decide (row.tenantId = tenant ∧ row.id = id))
      db.grants.rows := by
  apply db.grants.alone
  intro first second firstChosen secondChosen
  simp only [decide_eq_true_eq] at firstChosen secondChosen
  simp [GrantRow.schema, firstChosen, secondChosen]

theorem runs_alone (db : Database) (id : Uuid) :
    List.Alone (fun row => decide (row.id = id)) db.runs.rows := by
  apply db.runs.alone
  intro first second firstChosen secondChosen
  simp only [decide_eq_true_eq] at firstChosen secondChosen
  simp [RunRow.schema, firstChosen, secondChosen]

theorem runs_alone_key (db : Database) (tenant : Uuid) (key : String) :
    List.Alone
      (fun row => decide (row.tenantId = tenant ∧ row.idempotencyKey = key))
      db.runs.rows := by
  apply db.runs.alone
  intro first second firstChosen secondChosen
  simp only [decide_eq_true_eq] at firstChosen secondChosen
  simp [RunRow.schema, firstChosen, secondChosen]

theorem effects_alone (db : Database) (tenant run : Uuid) (ordinal : Int) :
    List.Alone
      (fun row => decide (row.tenantId = tenant ∧ row.runId = run ∧
        row.ordinal = ordinal)) db.effects.rows := by
  apply db.effects.alone
  intro first second firstChosen secondChosen
  simp only [decide_eq_true_eq] at firstChosen secondChosen
  simp [EffectRow.schema, firstChosen, secondChosen]

theorem findTenant_eq_some_iff {id : Uuid} {row : TenantRow} :
    db.findTenant id = some row ↔ row ∈ db.tenants.rows ∧ row.id = id := by
  rw [findTenant, (db.tenants_alone id).find?_eq_some_iff, decide_eq_true_eq]

theorem findModule_eq_some_iff {tenant : Uuid} {digest : Digest}
    {row : ModuleRow} :
    db.findModule tenant digest = some row ↔
      row ∈ db.modules.rows ∧ row.tenantId = tenant ∧ row.digest = digest := by
  rw [findModule, (db.modules_alone tenant digest).find?_eq_some_iff,
    decide_eq_true_eq]

theorem findGrant_eq_some_iff {tenant id : Uuid} {row : GrantRow} :
    db.findGrant tenant id = some row ↔
      row ∈ db.grants.rows ∧ row.tenantId = tenant ∧ row.id = id := by
  rw [findGrant, (db.grants_alone tenant id).find?_eq_some_iff,
    decide_eq_true_eq]

theorem findRun_eq_some_iff {tenant id : Uuid} {row : RunRow} :
    db.findRun tenant id = some row ↔
      row ∈ db.runs.rows ∧ row.tenantId = tenant ∧ row.id = id := by
  have alone : List.Alone
      (fun row => decide (row.tenantId = tenant ∧ row.id = id))
      db.runs.rows :=
    (db.runs_alone id).mono (by simp)
  rw [findRun, alone.find?_eq_some_iff, decide_eq_true_eq]

theorem findRunById_eq_some_iff {id : Uuid} {row : RunRow} :
    db.findRunById id = some row ↔ row ∈ db.runs.rows ∧ row.id = id := by
  rw [findRunById, (db.runs_alone id).find?_eq_some_iff, decide_eq_true_eq]

theorem findRunByKey_eq_some_iff {tenant : Uuid} {key : String}
    {row : RunRow} :
    db.findRunByKey tenant key = some row ↔
      row ∈ db.runs.rows ∧ row.tenantId = tenant ∧
        row.idempotencyKey = key := by
  rw [findRunByKey, (db.runs_alone_key tenant key).find?_eq_some_iff,
    decide_eq_true_eq]

theorem findEffect_eq_some_iff {tenant run : Uuid} {ordinal : Int}
    {row : EffectRow} :
    db.findEffect tenant run ordinal = some row ↔
      row ∈ db.effects.rows ∧ row.tenantId = tenant ∧ row.runId = run ∧
        row.ordinal = ordinal := by
  rw [findEffect, (db.effects_alone tenant run ordinal).find?_eq_some_iff,
    decide_eq_true_eq]

/-- Runs are identified by their UUID alone. -/
theorem run_eq_of_id {first second : RunRow}
    (firstMember : first ∈ db.runs.rows) (secondMember : second ∈ db.runs.rows)
    (sameId : first.id = second.id) : first = second :=
  (db.runs_alone second.id).eq firstMember secondMember (by simp [sameId])
    (by simp)

theorem tenant_eq_of_id {first second : TenantRow}
    (firstMember : first ∈ db.tenants.rows)
    (secondMember : second ∈ db.tenants.rows)
    (sameId : first.id = second.id) : first = second :=
  db.tenants.eq_of_key_eq firstMember secondMember sameId

theorem grant_eq_of_id {first second : GrantRow}
    (firstMember : first ∈ db.grants.rows)
    (secondMember : second ∈ db.grants.rows)
    (sameTenant : first.tenantId = second.tenantId)
    (sameId : first.id = second.id) : first = second :=
  db.grants.eq_of_key_eq firstMember secondMember
    (Prod.ext sameTenant sameId)

theorem effect_eq_of_key {first second : EffectRow}
    (firstMember : first ∈ db.effects.rows)
    (secondMember : second ∈ db.effects.rows)
    (sameTenant : first.tenantId = second.tenantId)
    (sameRun : first.runId = second.runId)
    (sameOrdinal : first.ordinal = second.ordinal) : first = second :=
  (db.effects_alone second.tenantId second.runId second.ordinal).eq firstMember
    secondMember (by simp [sameTenant, sameRun, sameOrdinal]) (by simp)

/-- A successful update of the runs table replaces the one selected row. -/
theorem updateRuns_ok {selected : RunRow → Bool} {change : RunRow → RunRow}
    {keepsKey : ∀ row, RunRow.schema.key (change row) = RunRow.schema.key row}
    {row : RunRow}
    (updated : db.updateRuns selected change keepsKey = .ok next)
    (narrow : ∀ other, selected other = true → other.id = row.id)
    (member : row ∈ db.runs.rows) (chosen : selected row = true) :
    ∃ runs, next = { db with runs := runs } ∧
      Table.Replaced db.runs runs row (change row) := by
  simp only [updateRuns, Except.bind_eq_ok_iff, Except.fetch_eq_ok_iff] at updated
  obtain ⟨runs, stored, committed⟩ := updated
  refine ⟨runs, (Except.ok.inj committed).symm, ?_⟩
  apply Table.replaced_of_update stored ?_ member chosen
  exact (db.runs_alone row.id).mono (by simpa using narrow)

theorem updateRun_ok {tenant id : Uuid} {change : RunRow → RunRow}
    {keepsKey : ∀ row, RunRow.schema.key (change row) = RunRow.schema.key row}
    {row : RunRow}
    (updated : db.updateRun tenant id change keepsKey = .ok next)
    (found : db.findRun tenant id = some row) :
    ∃ runs, next = { db with runs := runs } ∧
      Table.Replaced db.runs runs row (change row) := by
  obtain ⟨member, tenantEq, idEq⟩ := findRun_eq_some_iff.mp found
  apply updateRuns_ok updated ?_ member (by simp [tenantEq, idEq])
  intro other chosen
  rw [idEq]
  exact (of_decide_eq_true chosen).2

/-- A row that replaced the found one is found in its place. -/
theorem findRun_of_replaced {tenant id : Uuid} {row new : RunRow}
    (found : db.findRun tenant id = some row)
    (replaced : Table.Replaced db.runs next.runs row new) :
    next.findRun tenant id = some new := by
  obtain ⟨_, tenantEq, idEq⟩ := findRun_eq_some_iff.mp found
  have keyEq := replaced.sameKey
  simp only [RunRow.schema, Prod.mk.injEq] at keyEq
  rw [findRun_eq_some_iff]
  exact ⟨replaced.new_mem, keyEq.1.trans tenantEq, keyEq.2.1.trans idEq⟩

/-- A successful append moves the head of the run and emits one event. -/
theorem appendEvent_ok {sha256 : Sha256} {tenant run : Uuid} {kind : String}
    {payload : List UInt8} {row : RunRow}
    (appended : db.appendEvent sha256 tenant run kind payload = .ok next)
    (found : db.findRun tenant run = some row) :
    ∃ runs events, next = { db with runs := runs, runEvents := events } ∧
      Table.Replaced db.runs runs row
        (row.advance sha256 [(kind, payload)]) ∧
      events.rows = db.runEvents.rows ++
        row.emitted sha256 [(kind, payload)] := by
  obtain ⟨_, rfl, rfl⟩ := findRun_eq_some_iff.mp found
  simp only [appendEvent, Except.bind_eq_ok_iff, Except.require_eq_ok_iff,
    Except.fetch_eq_ok_iff, insertRunEvent] at appended
  obtain ⟨_, _, head, headFound, _, _, logged, inserted, updated⟩ := appended
  obtain rfl : row = head := Option.some.inj (found.symm.trans headFound)
  obtain ⟨_, _, events, stored, committed⟩ := inserted
  obtain rfl : { db with runEvents := events } = logged :=
    Except.ok.inj committed
  obtain ⟨runs, rfl, replaced⟩ := updateRun_ok updated found
  exact ⟨runs, events, rfl, replaced, (Table.insert_eq_some_iff.mp stored).1⟩

/-- Two tables in which one run was rewritten to `new` and `entries` were
recorded for it. -/
structure Recorded (sha256 : Sha256) (db : Database)
    (runs : Table RunRow.schema) (events : Table RunEventRow.schema)
    (row new : RunRow) (entries : List (String × List UInt8)) : Prop where
  replaced : Table.Replaced db.runs runs row (new.advance sha256 entries)
  logged : events.rows = db.runEvents.rows ++ new.emitted sha256 entries

theorem updateRun_recorded (sha256 : Sha256) {tenant id : Uuid}
    {change : RunRow → RunRow}
    {keepsKey : ∀ row, RunRow.schema.key (change row) = RunRow.schema.key row}
    {row : RunRow}
    (updated : db.updateRun tenant id change keepsKey = .ok next)
    (found : db.findRun tenant id = some row) :
    ∃ runs, next = { db with runs := runs } ∧
      Recorded sha256 db runs db.runEvents row (change row) [] := by
  obtain ⟨runs, rfl, replaced⟩ := updateRun_ok updated found
  refine ⟨runs, rfl, ?_, by simp [RunRow.emitted, RunRow.chainEvents]⟩
  rw [RunRow.advance_nil]
  exact replaced

/-- An append to a rewritten run records one more entry. -/
theorem Recorded.append {sha256 : Sha256} {runs : Table RunRow.schema}
    {events : Table RunEventRow.schema} {row new : RunRow}
    {entries : List (String × List UInt8)} {tenant id : Uuid} {kind : String}
    {payload : List UInt8} {middle : Database}
    (recorded : Recorded sha256 db runs events row new entries)
    (found : db.findRun tenant id = some row)
    (appended : middle.appendEvent sha256 tenant id kind payload = .ok next)
    (runsEq : middle.runs = runs) (eventsEq : middle.runEvents = events) :
    ∃ runs events, next = { middle with runs := runs, runEvents := events } ∧
      Recorded sha256 db runs events row new (entries ++ [(kind, payload)]) := by
  subst runsEq eventsEq
  have foundThen : middle.findRun tenant id =
      some (new.advance sha256 entries) :=
    findRun_of_replaced found recorded.replaced
  obtain ⟨runs, events, rfl, replaced, logged⟩ :=
    appendEvent_ok appended foundThen
  refine ⟨runs, events, rfl, ?_, ?_⟩
  · rw [RunRow.advance_append]
    exact recorded.replaced.trans replaced
  · rw [logged, recorded.logged, RunRow.emitted_append, List.append_assoc]

end Database

end EffectLatch
