import EffectLatch.EffectBudgetConservation

/-!
# Reservation is all or nothing

`reserve_grant_chain` runs in its caller's transaction, so what it wrote before
an error would stay.  In a reachable state it fails only before its first
write: once a plan exists, every statement that applies it goes through.
-/

namespace EffectLatch

/-- A charge leaves the key of a grant alone. -/
theorem GrantRow.key_used (count : UInt64) (row : GrantRow) :
    GrantRow.schema.key { row with usedEffects := count.toNat } =
      GrantRow.schema.key row :=
  rfl

theorem EffectRow.key_charged (row : EffectRow) :
    EffectRow.schema.key { row with reservationCharged := true } =
      EffectRow.schema.key row :=
  rfl

namespace Database

/-- `applyReservations` before the rest of a transaction, with what was written
when a statement fails. -/
def applyReservationsIn (request : GrantReservation)
    (finish : Database → Except Error ReservationKind × Database) :
    List (Uuid × UInt64) → Database → Except Error ReservationKind × Database
  | [], db => finish db
  | (grant, next) :: rest, db =>
      Except.proceed db (Except.require (next.toNat < 2 ^ 63) .corruptGrant)
        fun _ =>
      let selected : GrantRow → Bool := fun row =>
        decide (row.tenantId = request.tenant ∧ row.id = grant ∧
          row.usedEffects = (next.toNat : Int) - 1)
      Except.proceed db
        (db.updateGrants selected
          (fun row => { row with usedEffects := next.toNat })
          (GrantRow.key_used next))
        fun charged =>
      Except.proceed charged
        (Except.require (db.grants.rows.countP selected = 1) .corruptGrant)
        fun _ =>
      Except.proceed charged
        (charged.insertReservation
          { tenantId := request.tenant
            runId := request.run
            ordinal := request.ordinal
            grantId := grant })
        fun reserved => applyReservationsIn request finish rest reserved

/-- The last statement of `reserveGrantChain`. -/
def markCharged (request : GrantReservation) (reserved : Database) :
    Except Error ReservationKind × Database :=
  let selected : EffectRow → Bool := fun row =>
    decide (row.tenantId = request.tenant ∧ row.runId = request.run ∧
      row.ordinal = request.ordinal ∧ row.reservationCharged = false)
  Except.proceed reserved
    (reserved.updateEffects selected
      (fun row => { row with reservationCharged := true })
      EffectRow.key_charged)
    fun charged =>
  Except.proceed charged
    (Except.require (reserved.effects.rows.countP selected = 1) .corruptGrant)
    fun _ => (.ok .created, charged)

/-- `reserveGrantChain` with what it has written when it fails. -/
def reserveGrantChainIn (db : Database) (clock : Clock)
    (request : GrantReservation) : Except Error ReservationKind × Database :=
  Except.proceed db
    (Except.fetch (db.findRun request.tenant request.run) .runNotFound)
    fun run =>
  Except.proceed db (db.loadGrantChainLocked request.tenant run.grantId)
    fun ancestry =>
  Except.proceed db
    (Except.fetch (db.findEffect request.tenant request.run request.ordinal)
      .effectNotFound)
    fun effect =>
  let existing := ((db.effectReservations.rows.filter fun row =>
      decide (row.tenantId = request.tenant ∧ row.runId = request.run ∧
        row.ordinal = request.ordinal)).map
    ReservationRow.grantId).insertionSort (· ≤ ·)
  if existing ≠ [] then
    let expected := (ancestry.map Grant.id).insertionSort (· ≤ ·)
    Except.proceed db
      (Except.require
        (existing = expected ∧ effect.reservationCharged = true)
        .corruptGrant)
      fun _ => (.ok .existing, db)
  else
    Except.proceed db
      (Except.require
        (effect.reservationCharged = false ∧ effect.state = .prepared)
        .corruptGrant)
      fun _ =>
    Except.proceed db (epochMs (clock 0)) fun nowMs =>
    Except.proceed db
      ((reservationPlan ancestry request.tenant nowMs effect.action
        effect.destination effect.project).mapError Error.grantValidation)
      fun plan =>
    applyReservationsIn request (markCharged request) plan db

variable {sha256 : Sha256} {db next : Database} {clock : Clock}
  {request : GrantReservation}

theorem settle_applyReservationsIn (request : GrantReservation)
    (finish : Database → Except Error ReservationKind × Database)
    (plan : List (Uuid × UInt64)) (db : Database) :
    Except.settle (applyReservationsIn request finish plan db) =
      applyReservations request plan db >>= fun reserved =>
        Except.settle (finish reserved) := by
  induction plan generalizing db with
  | nil => rfl
  | cons entry rest ih =>
      simp only [applyReservationsIn, applyReservations, Except.settle_proceed,
        ih, bind_assoc]

/-- A caller that rolls back on an error sees `reserveGrantChain`. -/
theorem settle_reserveGrantChainIn (db : Database) (clock : Clock)
    (request : GrantReservation) :
    Except.settle (db.reserveGrantChainIn clock request) =
      db.reserveGrantChain clock request := by
  simp only [reserveGrantChainIn, reserveGrantChain, Except.settle_proceed,
    apply_ite Except.settle, settle_applyReservationsIn, markCharged]
  rfl

/-- Every grant of the plan is stored with the count the plan continues and
with budget left, and nothing is reserved for the effect. -/
structure Chargeable (db : Database) (request : GrantReservation)
    (plan : List (Uuid × UInt64)) : Prop where
  known : db.findEffect request.tenant request.run request.ordinal ≠ none
  grants : ∀ entry ∈ plan, ∃ row ∈ db.grants.rows,
    row.tenantId = request.tenant ∧ row.id = entry.1 ∧
      row.usedEffects + 1 = entry.2.toNat ∧ row.usedEffects < row.maxEffects
  free : ∀ entry ∈ plan,
    ⟨request.tenant, request.run, request.ordinal, entry.1⟩ ∉
      db.effectReservations.rows
  distinct : (plan.map Prod.fst).Nodup

theorem updateGrants_eq {selected : GrantRow → Bool}
    {change : GrantRow → GrantRow}
    {keepsKey : ∀ row,
      GrantRow.schema.key (change row) = GrantRow.schema.key row}
    {grants : Table GrantRow.schema}
    (updated : db.grants.update selected change keepsKey = some grants) :
    db.updateGrants selected change keepsKey =
      .ok { db with grants := grants } := by
  simp only [updateGrants, updated, Except.fetch_some, Except.ok_bind_eq]
  rfl

theorem insertReservation_eq {row : ReservationRow}
    {reservations : Table ReservationRow.schema}
    (effectKnown : db.findEffect row.tenantId row.runId row.ordinal ≠ none)
    (grantKnown : db.findGrant row.tenantId row.grantId ≠ none)
    (inserted : db.effectReservations.insert row = some reservations) :
    db.insertReservation row =
      .ok { db with effectReservations := reservations } := by
  simp only [insertReservation, Except.require_of effectKnown,
    Except.require_of grantKnown, inserted, Except.fetch_some,
    Except.ok_bind_eq]
  rfl

/-- Whether the statement for one grant of the plan rewrites the row. -/
def counterAt (request : GrantReservation) (grant : Uuid) (count : UInt64)
    (row : GrantRow) : Bool :=
  decide (row.tenantId = request.tenant ∧ row.id = grant ∧
    row.usedEffects = (count.toNat : Int) - 1)

theorem applyReservationsIn_cons (request : GrantReservation)
    (finish : Database → Except Error ReservationKind × Database)
    (grant : Uuid) (count : UInt64) (rest : List (Uuid × UInt64))
    (db : Database) :
    applyReservationsIn request finish ((grant, count) :: rest) db =
      Except.proceed db (Except.require (count.toNat < 2 ^ 63) .corruptGrant)
        fun _ =>
      Except.proceed db
        (db.updateGrants (counterAt request grant count)
          (fun row => { row with usedEffects := count.toNat })
          (GrantRow.key_used count))
        fun charged =>
      Except.proceed charged
        (Except.require
          (db.grants.rows.countP (counterAt request grant count) = 1)
          .corruptGrant)
        fun _ =>
      Except.proceed charged
        (charged.insertReservation
          ⟨request.tenant, request.run, request.ordinal, grant⟩)
        fun reserved => applyReservationsIn request finish rest reserved :=
  rfl

theorem counterAt_alone (db : Database) (request : GrantReservation)
    (grant : Uuid) (count : UInt64) :
    List.Alone (counterAt request grant count) db.grants.rows := by
  refine (db.grants_alone request.tenant grant).mono ?_
  intro other chosen
  simp only [counterAt, decide_eq_true_eq] at chosen ⊢
  exact ⟨chosen.1, chosen.2.1⟩

namespace Chargeable

variable {grant : Uuid} {count : UInt64} {rest : List (Uuid × UInt64)}

/-- The counter of the first grant can be moved: it stays within the budget, so
the check clause holds. -/
theorem exists_updateGrants
    (chargeable : db.Chargeable request ((grant, count) :: rest)) :
    ∃ row grants, row.tenantId = request.tenant ∧ row.id = grant ∧
      count.toNat < 2 ^ 63 ∧
      db.grants.rows.countP (counterAt request grant count) = 1 ∧
      db.updateGrants (counterAt request grant count)
          (fun row => { row with usedEffects := count.toNat })
          (GrantRow.key_used count) = .ok { db with grants := grants } ∧
      Table.Replaced db.grants grants row
        { row with usedEffects := count.toNat } := by
  obtain ⟨row, member, owner, identity, continued, left⟩ :=
    chargeable.grants _ List.mem_cons_self
  have bounded := GrantRow.bounded_of_mem member
  dsimp only at continued identity
  have alone := db.counterAt_alone request grant count
  have chosen : counterAt request grant count row = true := by
    simp only [counterAt, decide_eq_true_eq]
    exact ⟨owner, identity, by omega⟩
  have checked : ∀ other ∈ db.grants.rows,
      counterAt request grant count other = true →
        GrantRow.schema.check { other with usedEffects := count.toNat } =
          true := by
    intro other stored otherChosen
    obtain rfl := alone.eq stored member otherChosen chosen
    have before := db.grants.checked other stored
    simp only [GrantRow.schema, decide_eq_true_eq] at before ⊢
    obtain ⟨depthLow, depthHigh, actions, actionsHigh, destinations,
      destinationsHigh, projects, projectsHigh, low, high, _, _, placed⟩ :=
      before
    exact ⟨depthLow, depthHigh, actions, actionsHigh, destinations,
      destinationsHigh, projects, projectsHigh, low, high,
      Int.natCast_nonneg _, by omega, placed⟩
  obtain ⟨grants, updated⟩ : ∃ grants, db.grants.update
      (counterAt request grant count)
      (fun row => { row with usedEffects := count.toNat })
      (GrantRow.key_used count) = some grants := Table.exists_update checked
  have small : count.toNat < 2 ^ 63 := by
    have := bounded.maxEffects
    omega
  exact ⟨row, grants, owner, identity, small, alone.countP_eq_one member chosen,
    updateGrants_eq updated, Table.replaced_of_update updated alone member chosen⟩

theorem exists_insert
    (chargeable : db.Chargeable request ((grant, count) :: rest)) :
    ∃ reservations, db.effectReservations.insert
      ⟨request.tenant, request.run, request.ordinal, grant⟩ =
        some reservations := by
  refine Table.exists_insert ?_ rfl
  intro old stored
  simp only [ReservationRow.schema, decide_eq_false_iff_not]
  rintro rfl
  exact chargeable.free _ List.mem_cons_self stored

/-- What is written for the first grant touches none of the others. -/
theorem remaining {row : GrantRow} {grants : Table GrantRow.schema}
    {reservations : Table ReservationRow.schema}
    (chargeable : db.Chargeable request ((grant, count) :: rest))
    (identity : row.id = grant)
    (replaced : Table.Replaced db.grants grants row
      { row with usedEffects := count.toNat })
    (inserted : db.effectReservations.insert
      ⟨request.tenant, request.run, request.ordinal, grant⟩ =
        some reservations) :
    Chargeable { db with grants := grants, effectReservations := reservations }
      request rest := by
  obtain ⟨fresh, distinct⟩ := List.nodup_cons.mp chargeable.distinct
  constructor
  · exact chargeable.known
  · intro entry later
    obtain ⟨other, stored, otherOwner, otherIdentity, otherContinued,
      otherLeft⟩ := chargeable.grants entry (List.mem_cons_of_mem _ later)
    refine ⟨other, replaced.mem_iff.mpr (.inr ⟨stored, ?_⟩), otherOwner,
      otherIdentity, otherContinued, otherLeft⟩
    rintro rfl
    exact fresh (List.mem_map.mpr
      ⟨entry, later, otherIdentity.symm.trans identity⟩)
  · intro entry later stored
    rw [(Table.insert_eq_some_iff.mp inserted).1] at stored
    rcases List.mem_append.mp stored with before | added
    · exact chargeable.free entry (List.mem_cons_of_mem _ later) before
    · have same := congrArg ReservationRow.grantId (List.mem_singleton.mp added)
      exact fresh (List.mem_map.mpr ⟨entry, later, same⟩)
  · exact distinct

/-- The statements for one grant go through and leave the others to charge. -/
theorem charge (chargeable : db.Chargeable request ((grant, count) :: rest)) :
    ∃ grants reservations,
      (∀ finish, applyReservationsIn request finish ((grant, count) :: rest)
          db = applyReservationsIn request finish rest
            { db with
              grants := grants
              effectReservations := reservations }) ∧
        Chargeable
          { db with grants := grants, effectReservations := reservations }
          request rest := by
  obtain ⟨row, grants, owner, identity, small, single, written, replaced⟩ :=
    chargeable.exists_updateGrants
  obtain ⟨reservations, inserted⟩ := chargeable.exists_insert
  refine ⟨grants, reservations, ?_,
    chargeable.remaining identity replaced inserted⟩
  intro finish
  have grantFound : ({ db with grants := grants } : Database).findGrant
      request.tenant grant = some { row with usedEffects := count.toNat } :=
    findGrant_eq_some_iff.mpr ⟨replaced.new_mem, owner, identity⟩
  have recorded : ({ db with grants := grants } : Database).insertReservation
      ⟨request.tenant, request.run, request.ordinal, grant⟩ = .ok { db with
        grants := grants
        effectReservations := reservations } :=
    insertReservation_eq chargeable.known
      (grantFound ▸ Option.some_ne_none _) inserted
  rw [applyReservationsIn_cons, Except.require_of small, Except.proceed_ok,
    written, Except.proceed_ok, Except.require_of single, Except.proceed_ok,
    recorded, Except.proceed_ok]

end Chargeable

/-- A chargeable plan is applied whole. -/
theorem Chargeable.apply {plan : List (Uuid × UInt64)}
    (chargeable : db.Chargeable request plan) :
    ∃ grants reservations, ∀ finish,
      applyReservationsIn request finish plan db = finish
        { db with grants := grants, effectReservations := reservations } := by
  induction plan generalizing db with
  | nil => exact ⟨db.grants, db.effectReservations, fun _ => rfl⟩
  | cons entry rest ih =>
      obtain ⟨grants, reservations, charged, remaining⟩ := chargeable.charge
      obtain ⟨lastGrants, lastReservations, applied⟩ := ih remaining
      exact ⟨lastGrants, lastReservations, fun finish =>
        (charged finish).trans (applied finish)⟩

/-- Whether the statement for the flag rewrites the row. -/
def unchargedAt (request : GrantReservation) (row : EffectRow) : Bool :=
  decide (row.tenantId = request.tenant ∧ row.runId = request.run ∧
    row.ordinal = request.ordinal ∧ row.reservationCharged = false)

/-- The flag of an uncharged effect is set. -/
theorem markCharged_eq {effect : EffectRow}
    (found : db.findEffect request.tenant request.run request.ordinal =
      some effect) (uncharged : effect.reservationCharged = false) :
    (markCharged request db).1 = .ok .created := by
  obtain ⟨member, owner, source, number⟩ := findEffect_eq_some_iff.mp found
  have alone : List.Alone (unchargedAt request) db.effects.rows := by
    refine (db.effects_alone request.tenant request.run request.ordinal).mono ?_
    intro other chosen
    simp only [unchargedAt, decide_eq_true_eq] at chosen ⊢
    exact ⟨chosen.1, chosen.2.1, chosen.2.2.1⟩
  have single : db.effects.rows.countP (unchargedAt request) = 1 :=
    alone.countP_eq_one member (by
      simp [unchargedAt, owner, source, number, uncharged])
  obtain ⟨effects, updated⟩ : ∃ effects, db.effects.update
      (unchargedAt request)
      (fun row => { row with reservationCharged := true })
      EffectRow.key_charged = some effects :=
    Table.exists_update fun other stored _ => db.effects.checked other stored
  have written : db.updateEffects (unchargedAt request)
      (fun row => { row with reservationCharged := true })
      EffectRow.key_charged = .ok { db with effects := effects } := by
    simp only [updateEffects, updated, Except.fetch_some, Except.ok_bind_eq]
    rfl
  change (Except.proceed db (db.updateEffects (unchargedAt request) _ _)
    fun charged => Except.proceed charged
      (Except.require (db.effects.rows.countP (unchargedAt request) = 1) _)
      _).1 = _
  rw [written, Except.proceed_ok, Except.require_of single]
  rfl

/-- Nothing is reserved for an uncharged effect. -/
theorem Ledger.reserved_eq_nil {effect : EffectRow} (ledger : db.Ledger)
    (found : db.findEffect request.tenant request.run request.ordinal =
      some effect) (uncharged : effect.reservationCharged = false) :
    (db.effectReservations.rows.filter fun row =>
      decide (row.tenantId = request.tenant ∧ row.runId = request.run ∧
        row.ordinal = request.ordinal)) = [] := by
  rw [List.filter_eq_nil_iff]
  intro row stored chosen
  simp only [decide_eq_true_eq] at chosen
  obtain ⟨other, otherFound, charged⟩ := ledger.backed row stored
  rw [chosen.1, chosen.2.1, chosen.2.2] at otherFound
  obtain rfl := Option.some.inj (found.symm.trans otherFound)
  rw [uncharged] at charged
  exact absurd charged (by decide)

/-- A plan for an uncharged effect can be applied in a state whose ledger
balances. -/
theorem Ledger.chargeable {run : RunRow} {chain : List Grant}
    {effect : EffectRow} {nowMs : Int64} {plan : List (Uuid × UInt64)}
    (ledger : db.Ledger) (forest : db.GrantForest)
    (loaded : db.loadGrantChainLocked request.tenant run.grantId = .ok chain)
    (found : db.findEffect request.tenant request.run request.ordinal =
      some effect)
    (uncharged : effect.reservationCharged = false)
    (planned : reservationPlan chain request.tenant nowMs effect.action
      effect.destination effect.project = .ok plan) :
    db.Chargeable request plan := by
  obtain ⟨validated, ids⟩ := reservationPlan_eq_ok planned
  simp only [reservationPlan, validated, Except.ok_bind_eq] at planned
  constructor
  · rw [found]
    exact Option.some_ne_none _
  · intro entry member
    obtain ⟨grant, inChain, identity, left, continued⟩ :=
      counts_of_planReservations planned entry member
    obtain ⟨path, _, rfl⟩ := forest.exists_of_load loaded
    obtain ⟨row, inPath, rfl⟩ := List.mem_map.mp inChain
    obtain ⟨_, stored, owner⟩ := mem_chainRows_iff.mp inPath
    have bounded := GrantRow.bounded_of_mem stored
    have used := bounded.usedEffects
    have most := bounded.maxEffects
    have smallUsed : row.usedEffects.toNat % 2 ^ 64 =
        row.usedEffects.toNat := Nat.mod_eq_of_lt (by omega)
    have smallMost : row.maxEffects.toNat % 2 ^ 64 =
        row.maxEffects.toNat := Nat.mod_eq_of_lt (by omega)
    simp only [GrantRow.decoded, GrantRow.authority, UInt64.lt_iff_toNat_lt,
      UInt64.toNat_ofNat', smallUsed, smallMost] at left continued
    exact ⟨row, stored, owner, identity, by omega, by omega⟩
  · intro entry member reserved
    have unreserved :=
      List.filter_eq_nil_iff.mp (ledger.reserved_eq_nil found uncharged) _
        reserved
    simp at unreserved
  · rw [ids]
    exact (validateChain_eq_ok_iff.mp validated).2.ids_fresh.1

/-- Once there is a plan, the reservation is created. -/
theorem Chargeable.created {effect : EffectRow}
    {plan : List (Uuid × UInt64)} (chargeable : db.Chargeable request plan)
    (found : db.findEffect request.tenant request.run request.ordinal =
      some effect) (uncharged : effect.reservationCharged = false) :
    (applyReservationsIn request (markCharged request) plan db).1 =
      .ok .created := by
  obtain ⟨grants, reservations, applied⟩ := chargeable.apply
  rw [applied]
  exact markCharged_eq found uncharged

/-- The effect is charged to the grants, and nothing else is written: each
counter is one more, each grant has its reservation row, and the flag is set. -/
structure Applied (db next : Database) (request : GrantReservation)
    (effect : EffectRow) (grants : List Uuid) : Prop where
  others : next = { db with
    grants := next.grants
    effectReservations := next.effectReservations
    effects := next.effects }
  counters : next.grants.rows =
    db.grants.rows.map (GrantRow.charged request grants)
  reserved : next.effectReservations.rows =
    db.effectReservations.rows ++ request.rows grants
  flag : Table.Replaced db.effects next.effects effect
    { effect with reservationCharged := true }

/-- A created reservation is applied to every grant of its plan. -/
theorem applied_of_created {run : RunRow} {chain : List Grant}
    {effect : EffectRow} {nowMs : Int64} {plan : List (Uuid × UInt64)}
    (created : (db.reserveGrantChainIn clock request).1 = .ok .created)
    (runFound : db.findRun request.tenant request.run = some run)
    (loaded : db.loadGrantChainLocked request.tenant run.grantId = .ok chain)
    (effectFound : db.findEffect request.tenant request.run request.ordinal =
      some effect)
    (now : epochMs (clock 0) = .ok nowMs)
    (planned : reservationPlan chain request.tenant nowMs effect.action
      effect.destination effect.project = .ok plan) :
    Applied db (db.reserveGrantChainIn clock request).2 request effect
      (plan.map Prod.fst) := by
  have pair : db.reserveGrantChainIn clock request =
      (.ok .created, (db.reserveGrantChainIn clock request).2) :=
    Prod.ext created rfl
  generalize (db.reserveGrantChainIn clock request).2 = next at pair ⊢
  have succeeded : db.reserveGrantChain clock request =
      .ok (.created, next) := by
    rw [← settle_reserveGrantChainIn, pair]
    rfl
  have moved : Transition (fun _ => Digest.zero) db clock
      (.reserveGrantChain request) (.reservation .created) next :=
    reserveGrantChain_transition succeeded
  cases moved with
  | unchanged observed => cases observed
  | reserved runKnown chainKnown effectKnown _ _ nowKnown planKnown charged
      recorded marked =>
      obtain rfl := Option.some.inj (runFound.symm.trans runKnown)
      obtain rfl := Except.ok.inj (loaded.symm.trans chainKnown)
      obtain rfl := Option.some.inj (effectFound.symm.trans effectKnown)
      obtain rfl := Except.ok.inj (now.symm.trans nowKnown)
      obtain rfl := Except.ok.inj (planned.symm.trans planKnown)
      exact ⟨rfl, charged, recorded, marked⟩

end Database

/-- In a reachable state, a failed reservation has written nothing in the
caller's transaction: once a plan exists, the reservation is created, and the
effect is charged to every grant of the plan. -/
theorem reservation_all_or_nothing {sha256 : Sha256}
    {allowed : Database → Call → Prop} {db : Database}
    (reached : Reachable sha256 allowed db) (clock : Clock)
    (request : GrantReservation) :
    (∀ failure, (db.reserveGrantChainIn clock request).1 = .error failure →
      (db.reserveGrantChainIn clock request).2 = db) ∧
    ∀ run chain effect nowMs plan,
      db.findRun request.tenant request.run = some run →
      db.loadGrantChainLocked request.tenant run.grantId = .ok chain →
      db.findEffect request.tenant request.run request.ordinal =
        some effect →
      effect.reservationCharged = false → effect.state = .prepared →
      epochMs (clock 0) = .ok nowMs →
      reservationPlan chain request.tenant nowMs effect.action
        effect.destination effect.project = .ok plan →
      (db.reserveGrantChainIn clock request).1 = .ok .created ∧
        Database.Applied db (db.reserveGrantChainIn clock request).2 request
          effect (plan.map Prod.fst) := by
  have forest := reached.grantForest
  have ledger := reached.ledger
  constructor
  · intro failure failed
    have pair : db.reserveGrantChainIn clock request =
        (.error failure, (db.reserveGrantChainIn clock request).2) :=
      Prod.ext failed rfl
    generalize (db.reserveGrantChainIn clock request).2 = left at pair
    rw [Database.reserveGrantChainIn] at pair
    rcases Except.proceed_eq_error_iff.mp pair with
      ⟨_, same⟩ | ⟨run, runFound, pair⟩
    · exact same.symm
    rcases Except.proceed_eq_error_iff.mp pair with
      ⟨_, same⟩ | ⟨chain, loaded, pair⟩
    · exact same.symm
    rcases Except.proceed_eq_error_iff.mp pair with
      ⟨_, same⟩ | ⟨effect, effectFound, pair⟩
    · exact same.symm
    dsimp only at pair
    split at pair
    · rcases Except.proceed_eq_error_iff.mp pair with
        ⟨_, same⟩ | ⟨_, _, answered⟩
      · exact same.symm
      · simp at answered
    rcases Except.proceed_eq_error_iff.mp pair with
      ⟨_, same⟩ | ⟨_, fit, pair⟩
    · exact same.symm
    rcases Except.proceed_eq_error_iff.mp pair with
      ⟨_, same⟩ | ⟨nowMs, _, pair⟩
    · exact same.symm
    rcases Except.proceed_eq_error_iff.mp pair with
      ⟨_, same⟩ | ⟨plan, planned, pair⟩
    · exact same.symm
    -- Behind the plan nothing fails.
    have uncharged := (Except.require_eq_ok_iff.mp fit).1
    have chargeable := ledger.chargeable forest loaded
      (Except.fetch_eq_ok_iff.mp effectFound) uncharged
      (Except.mapError_eq_ok_iff.mp planned)
    have created := chargeable.created (Except.fetch_eq_ok_iff.mp effectFound)
      uncharged
    rw [pair] at created
    simp at created
  · intro run chain effect nowMs plan runFound loaded effectFound uncharged
      prepared now planned
    have chargeable :=
      ledger.chargeable forest loaded effectFound uncharged planned
    have unreserved := ledger.reserved_eq_nil effectFound uncharged
    have created : (db.reserveGrantChainIn clock request).1 =
        .ok .created := by
      rw [Database.reserveGrantChainIn]
      simp only [runFound, loaded, effectFound, now, planned, unreserved,
        Except.fetch_some, Except.proceed_ok, Except.mapError_ok, List.map_nil,
        List.insertionSort_nil, ne_eq, not_true_eq_false, if_false,
        Except.require_of (And.intro uncharged prepared)]
      exact chargeable.created effectFound uncharged
    exact ⟨created, Database.applied_of_created created runFound loaded
      effectFound now planned⟩

namespace Sample

def intent (ordinal : Int) (providerKey : String) : EffectIntent :=
  ⟨1, 20, ordinal, Digest.zero, "ticket.create", "tickets-idem", "DEMO",
    providerKey⟩

/-- An effect prepared and not yet reserved. -/
def preparation : List Command :=
  admission ++ [.prepareEffect (intent 0 "first")]

/-- Three effects reserved, which is the budget, and one more prepared. -/
def spending : List Command :=
  preparation ++ [.reserveGrantChain ⟨1, 20, 0⟩,
    .prepareEffect (intent 1 "second"), .reserveGrantChain ⟨1, 20, 1⟩,
    .prepareEffect (intent 2 "third"), .reserveGrantChain ⟨1, 20, 2⟩,
    .prepareEffect (intent 3 "fourth")]

/-- The chain of the run before any charge. -/
def uncharged : List Grant :=
  [⟨10, 1, none, 0, authority, 0, false⟩,
    ⟨11, 1, some 10, 1, authority, 0, false⟩]

end Sample

/-- The first reservation is created, and the one beyond the budget leaves the
transaction as it was. -/
theorem reservation_all_or_nothing_exhausted :
    Database.Applied (Sample.after Sample.preparation)
      ((Sample.after Sample.preparation).reserveGrantChainIn (fun _ => 5)
        ⟨1, 20, 0⟩).2
      ⟨1, 20, 0⟩ (Sample.intent 0 "first").row [10, 11] ∧
    ((Sample.after Sample.spending).reserveGrantChainIn (fun _ => 5)
      ⟨1, 20, 3⟩).1 = .error (.grantValidation .exhausted) ∧
    ((Sample.after Sample.spending).reserveGrantChainIn (fun _ => 5)
      ⟨1, 20, 3⟩).2 = Sample.after Sample.spending := by
  have reached (commands : List Command) :
      Reachable Sample.sha256 (fun _ _ => True) (Sample.after commands) :=
    Sample.reachable_after fun _ _ _ => trivial
  constructor
  · have grantKnown : ((Sample.after Sample.preparation).findRun 1 20).map
        RunRow.grantId = some 11 := by
      decide +kernel
    obtain ⟨run, runFound, grantEq⟩ := Option.map_eq_some_iff.mp grantKnown
    have loaded : (Sample.after Sample.preparation).loadGrantChainLocked 1
        run.grantId = .ok Sample.uncharged := by
      rw [grantEq]
      decide +kernel
    have effectFound : (Sample.after Sample.preparation).findEffect 1 20 0 =
        some (Sample.intent 0 "first").row := by
      decide +kernel
    have planned : reservationPlan Sample.uncharged 1 0 "ticket.create"
        "tickets-idem" "DEMO" = .ok [(10, 1), (11, 1)] := by
      decide +kernel
    exact ((reservation_all_or_nothing (reached Sample.preparation)
      (fun _ => 5) ⟨1, 20, 0⟩).2 run Sample.uncharged _ 0 [(10, 1), (11, 1)]
      runFound loaded effectFound rfl rfl (by decide +kernel) planned).2
  · have refused : ((Sample.after Sample.spending).reserveGrantChainIn
        (fun _ => 5) ⟨1, 20, 3⟩).1 = .error (.grantValidation .exhausted) := by
      decide +kernel
    exact ⟨refused, (reservation_all_or_nothing (reached Sample.spending)
      (fun _ => 5) ⟨1, 20, 3⟩).1 _ refused⟩

end EffectLatch
