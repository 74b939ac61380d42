import EffectLatch.DomainGrantLaws
import EffectLatch.StoreTransitions

/-!
# The operations stay within the transition relation

One lemma per operation takes its statements apart; `execute_transition` puts
them together.  Nothing later unfolds an operation to learn what it changed.
-/

namespace EffectLatch

namespace Database

variable {sha256 : Sha256} {db next : Database} {clock : Clock}

theorem putModule_transition {tenant : Uuid} {digest : Digest}
    {wasm : List UInt8} {result : PutModule}
    (succeeded : db.putModule tenant digest wasm = .ok (result, next)) :
    Transition sha256 db clock (.putModule tenant digest wasm)
      (.module result) next := by
  simp only [putModule, Except.bind_eq_ok_iff, Except.require_eq_ok_iff]
    at succeeded
  obtain ⟨_, _, succeeded⟩ := succeeded
  cases found : db.findModule tenant digest with
  | none =>
      simp only [found, insertModule, Except.bind_eq_ok_iff,
        Except.require_eq_ok_iff, Except.fetch_eq_ok_iff,
        Except.pure_eq_ok_iff, Prod.mk.injEq] at succeeded
      obtain ⟨_, ⟨_, tenantKnown, modules, stored, rfl⟩, rfl, rfl⟩ := succeeded
      exact .moduleCreated tenantKnown (Table.inserted_of_insert stored)
  | some stored =>
      simp only [found, Except.bind_eq_ok_iff, Except.require_eq_ok_iff,
        Except.pure_eq_ok_iff, Prod.mk.injEq] at succeeded
      obtain ⟨_, _, rfl, rfl⟩ := succeeded
      exact .unchanged .modulePresent

theorem admitExisting_transition {runId tenant : Uuid} {key : String}
    {request : NormalizedRun} {maxPendingGlobal maxPendingTenant : Nat}
    {row : RunRow} {result : Admission}
    (found : db.findRunByKey tenant key = some row)
    (succeeded : db.admitExisting tenant key row.requestHash
      (Hash.run sha256 request) = .ok (result, next)) :
    Transition sha256 db clock
      (.admitRun runId tenant key request maxPendingGlobal maxPendingTenant)
      (.admission result) next := by
  simp only [admitExisting, Except.bind_eq_ok_iff, Except.require_eq_ok_iff,
    Except.pure_eq_ok_iff, Prod.mk.injEq] at succeeded
  obtain ⟨_, sameRequest, record, described, rfl, rfl⟩ := succeeded
  exact .unchanged (.admittedBefore found sameRequest described)

theorem admitRun_transition {runId tenant : Uuid} {key : String}
    {request : NormalizedRun} {maxPendingGlobal maxPendingTenant : Nat}
    {result : Admission}
    (succeeded : db.admitRun sha256 clock runId tenant key request
      maxPendingGlobal maxPendingTenant = .ok (result, next)) :
    Transition sha256 db clock
      (.admitRun runId tenant key request maxPendingGlobal maxPendingTenant)
      (.admission result) next := by
  simp only [admitRun, Except.bind_eq_ok_iff, Except.require_eq_ok_iff,
    Except.fetch_eq_ok_iff] at succeeded
  obtain ⟨_, _, _, _, tenantRow, tenantFound, succeeded⟩ := succeeded
  cases found : db.findRunByKey tenant key with
  | some row =>
      simp only [found] at succeeded
      exact admitExisting_transition found succeeded
  | none =>
      simp only [found, admitFresh, insertRun, Except.bind_eq_ok_iff,
        Except.require_eq_ok_iff, Except.fetch_eq_ok_iff,
        Except.pure_eq_ok_iff, Prod.mk.injEq] at succeeded
      obtain ⟨_, moduleFound, _, live, _, room, middle, stored, logged, appended,
        record, described, rfl, rfl⟩ := succeeded
      obtain ⟨_, _, _, _, _, grantFound, runs, inserted, rfl⟩ := stored
      have insertedRow := Table.inserted_of_insert inserted
      have foundRow : ({ db with runs := runs } : Database).findRun tenant
          runId = some (admittedRow sha256 clock runId tenant key request) := by
        rw [findRun_eq_some_iff]
        exact ⟨insertedRow.mem_iff.mpr (Or.inr rfl), rfl, rfl⟩
      obtain ⟨finalRuns, events, rfl, replaced, emitted⟩ :=
        appendEvent_ok appended foundRow
      exact .admitted tenantFound found moduleFound grantFound live room.1
        room.2 (Table.Replaced.of_inserted insertedRow replaced) emitted
        described

theorem createGrant_transition {id tenant : Uuid} {parent : Option Uuid}
    {actorId : String} {authority : Authority} {record : GrantRecord}
    (succeeded : db.createGrant sha256 clock id tenant parent actorId
      authority = .ok (record, next)) :
    Transition sha256 db clock
      (.createGrant id tenant parent actorId authority) (.grant record)
      next := by
  simp only [createGrant, insertGrant, insertOperatorEvent,
    Except.bind_eq_ok_iff, Except.require_eq_ok_iff, Except.fetch_eq_ok_iff,
    Except.mapError_eq_ok_iff, Except.pure_eq_ok_iff, Prod.mk.injEq]
    at succeeded
  obtain ⟨_, _, ancestry, loaded, nowMs, now, _, validated, _, _, _, _, inserted,
    stored, logged, event, _, _, _, _, rfl, rfl⟩ := succeeded
  obtain ⟨_, tenantKnown, _, _, grants, insertedGrant, rfl⟩ := stored
  obtain ⟨_, _, rfl⟩ := event
  exact .grantCreated loaded tenantKnown now validated
    (Table.inserted_of_insert insertedGrant)

theorem getGrant_transition {tenant id : Uuid} {record : GrantRecord}
    (succeeded : db.getGrant tenant id = .ok (record, next)) :
    Transition sha256 db clock (.getGrant tenant id) (.grant record)
      next := by
  simp only [getGrant, Except.bind_eq_ok_iff, Except.pure_eq_ok_iff,
    Prod.mk.injEq] at succeeded
  obtain ⟨_, _, _, _, rfl, rfl⟩ := succeeded
  exact .unchanged .grantRead

theorem revokeGrant_transition {tenant id : Uuid} {actorId reason : String}
    {record : RevocationRecord}
    (succeeded : db.revokeGrant sha256 clock tenant id actorId reason =
      .ok (record, next)) :
    Transition sha256 db clock (.revokeGrant tenant id actorId reason)
      (.revocation record) next := by
  simp only [revokeGrant, Except.bind_eq_ok_iff, Except.require_eq_ok_iff,
    Except.fetch_eq_ok_iff] at succeeded
  obtain ⟨_, _, _, _, row, found, succeeded⟩ := succeeded
  obtain ⟨member, tenantEq, idEq⟩ := findGrant_eq_some_iff.mp found
  cases revoked : row.revokedAt with
  | some existing =>
      simp only [revoked, Except.pure_eq_ok_iff, Prod.mk.injEq] at succeeded
      obtain ⟨rfl, rfl⟩ := succeeded
      exact .unchanged (.revokedBefore found revoked)
  | none =>
      simp only [revoked, updateGrants, insertOperatorEvent,
        Except.bind_eq_ok_iff, Except.require_eq_ok_iff,
        Except.fetch_eq_ok_iff, Except.pure_eq_ok_iff, Prod.mk.injEq]
        at succeeded
      obtain ⟨_, ⟨grants, updated, rfl⟩, _, ⟨_, _, rfl⟩, rfl, rfl⟩ := succeeded
      refine .grantRevoked found revoked ?_
      refine Table.replaced_of_update updated
        ((db.grants_alone tenant id).mono ?_) member
        (by simp [tenantEq, idEq, revoked])
      intro other chosen
      simp only [decide_eq_true_eq] at chosen ⊢
      exact ⟨chosen.1, chosen.2.1⟩

/-- Charging one grant whose stored count is one below the planned count. -/
theorem chargeOne_rows {request : GrantReservation} {grant : Uuid} {count : Int}
    (single : db.grants.rows.countP (fun row => decide
      (row.tenantId = request.tenant ∧ row.id = grant ∧
        row.usedEffects = count - 1)) = 1) :
    db.grants.rows.updateWhere
        (fun row => decide (row.tenantId = request.tenant ∧ row.id = grant ∧
          row.usedEffects = count - 1))
        (fun row => { row with usedEffects := count }) =
      db.grants.rows.map (GrantRow.charged request [grant]) := by
  have positive : 0 < db.grants.rows.countP (fun row => decide
      (row.tenantId = request.tenant ∧ row.id = grant ∧
        row.usedEffects = count - 1)) := by
    rw [single]
    exact Nat.one_pos
  obtain ⟨hit, hitMember, hitChosen⟩ := List.countP_pos_iff.mp positive
  simp only [decide_eq_true_eq] at hitChosen
  apply List.map_congr_left
  intro row member
  by_cases target : row.tenantId = request.tenant ∧ row.id = grant
  · have same : row = hit := grant_eq_of_id member hitMember
      (target.1.trans hitChosen.1.symm) (target.2.trans hitChosen.2.1.symm)
    subst same
    have next : row.usedEffects + 1 = count := by omega
    rw [if_pos (decide_eq_true hitChosen), GrantRow.charged,
      if_pos ⟨target.1, List.mem_singleton.mpr target.2⟩, next]
  · have notChosen : ¬ (row.tenantId = request.tenant ∧ row.id = grant ∧
        row.usedEffects = count - 1) :=
      fun chosen => target ⟨chosen.1, chosen.2.1⟩
    simp [GrantRow.charged, target, notChosen]

theorem charged_charged {request : GrantReservation} {grant : Uuid}
    {rest : List Uuid} (fresh : grant ∉ rest) (row : GrantRow) :
    GrantRow.charged request rest (GrantRow.charged request [grant] row) =
      GrantRow.charged request (grant :: rest) row := by
  by_cases owner : row.tenantId = request.tenant
  · by_cases head : row.id = grant
    · have notLater : row.id ∉ rest := head ▸ fresh
      simp [GrantRow.charged, owner, head, fresh]
    · by_cases later : row.id ∈ rest
      · simp [GrantRow.charged, owner, head, later]
      · simp [GrantRow.charged, owner, head, later]
  · simp [GrantRow.charged, owner]

/-- Applying a plan with distinct grants charges each of them once. -/
theorem applyReservations_ok {request : GrantReservation}
    {plan : List (Uuid × UInt64)} (distinct : (plan.map Prod.fst).Nodup)
    (applied : applyReservations request plan db = .ok next) :
    ∃ grants reservations,
      next = { db with
        grants := grants
        effectReservations := reservations } ∧
      grants.rows = db.grants.rows.map
        (GrantRow.charged request (plan.map Prod.fst)) ∧
      reservations.rows = db.effectReservations.rows ++
        request.rows (plan.map Prod.fst) := by
  induction plan generalizing db with
  | nil =>
      simp only [applyReservations, Except.pure_eq_ok_iff] at applied
      subst applied
      refine ⟨db.grants, db.effectReservations, rfl, ?_, ?_⟩
      · have unchanged : GrantRow.charged request [] = id := by
          funext row
          simp [GrantRow.charged]
        simp [unchanged]
      · simp [GrantReservation.rows]
  | cons entry rest ih =>
      obtain ⟨grant, count⟩ := entry
      rw [List.map_cons, List.nodup_cons] at distinct
      simp only [applyReservations, updateGrants, insertReservation,
        Except.bind_eq_ok_iff, Except.require_eq_ok_iff,
        Except.fetch_eq_ok_iff, Except.pure_eq_ok_iff] at applied
      obtain ⟨_, _, _, ⟨chargedGrants, updated, rfl⟩, _, single, _,
        ⟨_, _, _, _, oneReservation, inserted, rfl⟩, applied⟩ := applied
      obtain ⟨grants, reservations, rfl, grantRows, reservationRows⟩ :=
        ih distinct.2 applied
      refine ⟨grants, reservations, rfl, ?_, ?_⟩
      · have first := (Table.update_eq_some_iff.mp updated).1
        rw [chargeOne_rows single] at first
        have composed : GrantRow.charged request (rest.map Prod.fst) ∘
            GrantRow.charged request [grant] =
              GrantRow.charged request (grant :: rest.map Prod.fst) :=
          funext (charged_charged distinct.1)
        rw [grantRows, first, List.map_map, composed, List.map_cons]
      · have first := (Table.insert_eq_some_iff.mp inserted).1
        rw [reservationRows, first]
        simp [GrantReservation.rows]

theorem reserveGrantChain_transition {request : GrantReservation}
    {kind : ReservationKind}
    (succeeded : db.reserveGrantChain clock request = .ok (kind, next)) :
    Transition sha256 db clock (.reserveGrantChain request)
      (.reservation kind) next := by
  simp only [reserveGrantChain, Except.bind_eq_ok_iff,
    Except.fetch_eq_ok_iff] at succeeded
  obtain ⟨run, runFound, chain, loaded, effect, effectFound, succeeded⟩ :=
    succeeded
  split at succeeded
  · simp only [Except.bind_eq_ok_iff, Except.require_eq_ok_iff,
      Except.pure_eq_ok_iff, Prod.mk.injEq] at succeeded
    obtain ⟨_, ⟨_, charged⟩, rfl, rfl⟩ := succeeded
    exact .unchanged (.reservedBefore effectFound charged)
  · simp only [updateEffects, Except.bind_eq_ok_iff, Except.require_eq_ok_iff,
      Except.mapError_eq_ok_iff, Except.fetch_eq_ok_iff,
      Except.pure_eq_ok_iff, Prod.mk.injEq] at succeeded
    obtain ⟨_, ⟨uncharged, prepared⟩, nowMs, now, plan, planned, _, applied, _,
      ⟨effects, updated, rfl⟩, _, _, rfl, rfl⟩ := succeeded
    obtain ⟨validated, planIds⟩ := reservationPlan_eq_ok planned
    have distinct : (plan.map Prod.fst).Nodup := by
      rw [planIds]
      exact (validateChain_eq_ok_iff.mp validated).2.ids_fresh.1
    obtain ⟨grants, reservations, rfl, charged, recorded⟩ :=
      applyReservations_ok distinct applied
    obtain ⟨member, tenantEq, runEq, ordinalEq⟩ :=
      findEffect_eq_some_iff.mp effectFound
    refine .reserved runFound loaded effectFound uncharged prepared now planned
      charged recorded ?_
    refine Table.replaced_of_update updated ?_ member
      (by simp [tenantEq, runEq, ordinalEq, uncharged])
    refine (db.effects_alone request.tenant request.run request.ordinal).mono ?_
    intro other chosen
    simp only [decide_eq_true_eq] at chosen ⊢
    exact ⟨chosen.1, chosen.2.1, chosen.2.2.1⟩

end Database

end EffectLatch
