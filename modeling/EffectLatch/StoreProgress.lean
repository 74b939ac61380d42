import EffectLatch.IdempotentAdmission
import EffectLatch.ReapDraining
import EffectLatch.RevocationFinality

/-!
# Calls go through unless there is a reason to refuse

In a reachable state no statement of an operation fails for a reason of its
own: with fresh identifiers and a clock in range, every call succeeds or gives
one of the refusals its callers know.
-/

namespace EffectLatch

namespace Database

variable {sha256 : Sha256} {db : Database} {clock : Clock}
  {tenant run grant : Uuid}

/-- The digest is taken by other content, or there is no such tenant. -/
def UploadRefused (db : Database) : Command → Prop
  | .putModule tenant digest wasm =>
      match db.findModule tenant digest with
      | some stored => stored.wasm ≠ wasm
      | none => db.findTenant tenant = none
  | _ => False

theorem putModule_eq_error {digest : Digest} {wasm : List UInt8}
    (sized : wasm ≠ [] ∧ wasm.length ≤ moduleBytes)
    (refused : db.UploadRefused (.putModule tenant digest wasm)) :
    db.putModule tenant digest wasm = .error .database := by
  simp only [putModule, Except.require_of sized, Except.ok_bind_eq]
  cases found : db.findModule tenant digest with
  | some stored =>
      have other : stored.wasm ≠ wasm := by
        simpa [UploadRefused, found] using refused
      simp only [Except.require, if_neg other]
      rfl
  | none =>
      have unknown : db.findTenant tenant = none := by
        simpa [UploadRefused, found] using refused
      simp only [insertModule, unknown, ne_eq, not_true_eq_false,
        Except.require, if_false]
      rfl

/-! ## Submissions -/

/-- A rewrite of one stored run that passes the check clause succeeds. -/
theorem EventHeads.exists_rewriteRun {row : RunRow} (heads : db.EventHeads)
    (found : db.findRun tenant run = some row) (change : RunRow → RunRow)
    (keepsKey : ∀ row, RunRow.schema.key (change row) = RunRow.schema.key row)
    (checked : RunRow.schema.check (change row) = true)
    (sameHead : (change row).nextEventSeq = row.nextEventSeq) :
    ∃ runs, db.updateRun tenant run change keepsKey =
        .ok { db with runs := runs } ∧
      ({ db with runs := runs } : Database).Appendable tenant run (change row)
        1000 := by
  obtain ⟨runs, updated⟩ : ∃ runs, db.runs.update
      (fun row => decide (row.tenantId = tenant ∧ row.id = run)) change
        keepsKey = some runs := by
    apply Table.exists_update
    intro other stored chosen
    simp only [decide_eq_true_eq] at chosen
    have same : row = other := Option.some.inj
      (found.symm.trans (findRun_eq_some_iff.mpr ⟨stored, chosen⟩))
    exact same ▸ checked
  have written : db.updateRun tenant run change keepsKey =
      .ok { db with runs := runs } := by
    rw [updateRun, updateRuns, updated]
    rfl
  obtain ⟨otherRuns, same, replaced⟩ := updateRun_ok written found
  obtain rfl : otherRuns = runs := by simpa using same.symm
  have room := heads.appendable found
  exact ⟨otherRuns, written, findRun_of_replaced found replaced,
    sameHead ▸ room.positive, sameHead ▸ room.room, sameHead ▸ room.ahead⟩

/-- The claim event of an early epoch is within the limits of an event. -/
theorem sized_claimPayload {worker : String} {epoch : Int}
    (named : workerIdentifier worker = true) (first : 1 ≤ epoch)
    (last : epoch ≤ 3) :
    (utf8 "lease.claimed").length ≠ 0 ∧
      (utf8 "lease.claimed").length ≤ 128 ∧
      (claimPayload epoch worker).length ≤ 16384 := by
  refine ⟨by decide, by decide, ?_⟩
  simp only [workerIdentifier, shortIdentifier, Bool.and_eq_true,
    decide_eq_true_eq] at named
  have numeral : (utf8 (toString epoch)).length = 1 := by
    have cases : epoch = 1 ∨ epoch = 2 ∨ epoch = 3 := by omega
    rcases cases with rfl | rfl | rfl <;> decide
  have before : (utf8 "\x7b\"epoch\":").length = 9 := by decide
  have between : (utf8 ",\"worker_id\":\"").length = 14 := by decide
  have after : (utf8 "\"\x7d").length = 2 := by decide
  simp only [claimPayload, utf8_append, List.length_append, numeral, before,
    between, after]
  omega

/-- The selected run is leased. -/
theorem Sound.exists_issueLease (sound : db.Sound) (sha256 : Sha256)
    (clock : Clock) {worker : String} {policy : ClaimPolicy}
    {allowedTenants grantIds : List Uuid} {owner : TenantRow} {row : RunRow}
    {seq : Int} (named : workerIdentifier worker = true)
    (attempts : policy.maxAttempts ≤ 3)
    (numbered : db.schedulerState = some seq) (below : seq < i64Max)
    (candidate : db.claimCandidate allowedTenants policy =
      some (owner, row)) :
    ∃ lease next, db.issueLease sha256 clock worker policy owner.id row.id
      grantIds = .ok (some lease, next) := by
  obtain ⟨tenantFound, tenantFree, runFound, runFree, _⟩ :=
    sound.claimCandidate_free candidate
  obtain ⟨_, _, _, member, owned, _⟩ := claimCandidate_eq_some candidate
  obtain ⟨tenants, served⟩ : ∃ tenants, db.tenants.update
      (fun other => decide (other.id = owner.id))
      (fun other => { other with
        activeCount := other.activeCount + 1
        lastServedSeq := seq + 1 }) (fun _ => rfl) = some tenants := by
    apply Table.exists_update
    intro other stored chosen
    have same := db.tenant_eq_of_id stored
      (findTenant_eq_some_iff.mp tenantFound).1 (of_decide_eq_true chosen)
    have checked := db.tenants.checked other stored
    simp only [TenantRow.schema, decide_eq_true_eq] at checked ⊢
    rw [same] at checked ⊢
    omega
  have heads : ({ db with
      schedulerState := some (seq + 1)
      tenants := tenants } : Database).EventHeads :=
    ⟨sound.heads.heads, sound.heads.events⟩
  have stays : ({ db with
      schedulerState := some (seq + 1)
      tenants := tenants } : Database).findRun owner.id row.id = some row :=
    runFound
  have counted := (sound.heads.heads row member).epoch
  have checked := db.runs.checked row member
  simp only [RunRow.schema, decide_eq_true_eq] at checked
  obtain ⟨nonempty, short, input, output, epoch, attempt, _⟩ := checked
  obtain ⟨runs, updated, room⟩ := heads.exists_rewriteRun stays
    (fun other => { other with
      state := .leased
      leaseEpoch := other.leaseEpoch + 1
      leaseOwner := some worker
      leaseExpiresAt := some (leaseExpiry
        (clock 1 + (policy.leaseMs : Int) * 1000)
        (db.grantRows owner.id grantIds))
      attempt := other.attempt + 1
      activeSlotHeld := true
      updatedAt := clock 2 }) (fun _ => rfl)
    (by
      simp only [RunRow.schema, decide_eq_true_eq]
      exact ⟨nonempty, short, input, output, by omega, by omega, by omega⟩)
    rfl
  have moduleKnown := (sound.references.runs row member).module
  rw [owned] at moduleKnown
  obtain ⟨stored, moduleFound⟩ := Option.ne_none_iff_exists'.mp moduleKnown
  obtain ⟨newRuns, events, appended, _⟩ := room.exists_appendEvent sha256
    "lease.claimed" (claimPayload (row.leaseEpoch + 1) worker)
    (sized_claimPayload named (by omega) (by omega))
  have moduleStays : ({ db with
      schedulerState := some (seq + 1)
      tenants := tenants
      runs := runs } : Database).findModule owner.id row.moduleDigest =
        some stored := moduleFound
  simp only [issueLease, updateTenants, numbered, Except.fetch_some,
    Except.ok_bind_eq, Except.require_of below, served, pure_bind]
  rw [updated, Except.ok_bind_eq, room.found, Except.fetch_some,
    Except.ok_bind_eq, moduleStays, Except.fetch_some, Except.ok_bind_eq,
    appended]
  exact ⟨_, _, rfl⟩

/-- The event of a final state is within the limits of an event. -/
theorem sized_finalVerdict (row : RunRow) (errorCode : Option String) :
    (utf8 (row.finalVerdict errorCode).2).length ≠ 0 ∧
      (utf8 (row.finalVerdict errorCode).2).length ≤ 128 ∧
      (statePayload (row.finalVerdict errorCode).1).length ≤ 16384 := by
  unfold RunRow.finalVerdict
  split
  · decide
  · split <;> decide

/-- A finish under the live lease of a run without open effects goes
through. -/
theorem Sound.exists_finishRun (sound : db.Sound) (sha256 : Sha256)
    {worker : String} {allowedTenants : List Uuid} {epoch : Int}
    {output : Option (List UInt8)} {errorCode : Option String} {row : RunRow}
    {owner : TenantRow}
    (asked : db.FinishAsked run worker allowedTenants epoch output errorCode
      row owner)
    (leased : row.state = .running ∧ row.leaseOwner = some worker ∧
      row.leaseEpoch = epoch ∧ row.live (clock 0) = true ∧
      row.activeSlotHeld = true)
    (resolved : db.unfinished row.tenantId run = false) :
    ∃ record next, db.finishRun sha256 clock run worker allowedTenants epoch
      output errorCode = .ok (record, next) := by
  obtain ⟨accepted, found, permitted, tenantFound⟩ := asked
  obtain ⟨member, identity⟩ := findRunById_eq_some_iff.mp found
  have runFound : db.findRun row.tenantId run = some row :=
    findRun_eq_some_iff.mpr ⟨member, rfl, identity⟩
  have counted := sound.activeCount_pos member leased.2.2.2.2 tenantFound
  obtain ⟨tenants, released⟩ := exists_releaseSlot tenantFound counted
  have heads : ({ db with tenants := tenants } : Database).EventHeads :=
    ⟨sound.heads.heads, sound.heads.events⟩
  have stays : ({ db with tenants := tenants } : Database).findRun
      row.tenantId run = some row := runFound
  obtain ⟨_, updated, room⟩ := heads.exists_updateRun stays
    (fun other => { other with
      state := (row.finalVerdict errorCode).1
      outputBytes := output
      errorCode := errorCode
      activeSlotHeld := false
      leaseOwner := none
      leaseExpiresAt := none
      updatedAt := clock 1 }) (fun _ => rfl) (fun other checked => by
        simp only [RunRow.schema, decide_eq_true_eq] at checked ⊢
        obtain ⟨nonempty, short, input, _, fits⟩ := checked
        exact ⟨nonempty, short, input, accepted.2.2.1, fits⟩) rfl
  obtain ⟨runs, events, appended, logged⟩ := room.exists_appendEvent sha256
    (row.finalVerdict errorCode).2 (statePayload (row.finalVerdict errorCode).1)
    (sized_finalVerdict row errorCode)
  obtain ⟨stored, _, _⟩ := findRun_eq_some_iff.mp logged.found
  have keyed := findRunByKey_eq_some_iff.mpr ⟨stored, rfl, rfl⟩
  rw [FinishAccepted] at accepted
  simp only [finishRun, beginScheduler, Except.require_of accepted,
    Except.require_of sound.references.scheduler, found, Except.fetch_some,
    Except.require_of permitted, tenantFound, Except.ok_bind_eq,
    Except.require_of counted, runFound, Except.require_of leased,
    Except.require_of resolved, released]
  rw [RunRow.finalVerdict] at updated appended
  rw [updated, Except.ok_bind_eq, appended, Except.ok_bind_eq, fetchRunByKey]
  simp only [RunRow.advance] at keyed
  rw [keyed]
  exact ⟨_, _, rfl⟩

end Database

end EffectLatch
