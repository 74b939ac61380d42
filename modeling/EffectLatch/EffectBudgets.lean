import EffectLatch.GrantForestInvariant

/-!
# Effect budgets

A charge is recorded three times: in the counter of every ancestor, in one
reservation row per ancestor, and in the flag of the effect.  The ledger
invariant keeps the three in step over the whole delegation forest.
-/

namespace EffectLatch

namespace EffectRow

def key (row : EffectRow) : Uuid × Uuid × Int :=
  (row.tenantId, row.runId, row.ordinal)

end EffectRow

namespace ReservationRow

def effectKey (row : ReservationRow) : Uuid × Uuid × Int :=
  (row.tenantId, row.runId, row.ordinal)

end ReservationRow

namespace Database

/-- The number of reservation rows that name the grant. -/
def reservationCount (db : Database) (tenant id : Uuid) : Nat :=
  db.effectReservations.rows.countP fun row =>
    decide (row.tenantId = tenant ∧ row.grantId = id)

/-- The effect is charged and its run's grant is `id` or a descendant. -/
def ChargedUnder (db : Database) (tenant id : Uuid) (row : EffectRow) : Prop :=
  row.tenantId = tenant ∧ row.reservationCharged = true ∧
    ∃ run, db.findRun row.tenantId row.runId = some run ∧
      db.Descends tenant id run.grantId

open Classical in
/-- The number of charged effects of the grant and its descendants. -/
noncomputable def chargedCount (db : Database) (tenant id : Uuid) : Nat :=
  db.effects.rows.countP fun row => decide (db.ChargedUnder tenant id row)

/-- Counters, reservation rows and charge flags agree. -/
structure Ledger (db : Database) : Prop where
  counted : ∀ row ∈ db.grants.rows,
    row.usedEffects = db.reservationCount row.tenantId row.id
  charged : ∀ row ∈ db.effects.rows, row.reservationCharged = true →
    ∀ run, db.findRun row.tenantId row.runId = some run → ∀ id,
      (⟨row.tenantId, row.runId, row.ordinal, id⟩ ∈
          db.effectReservations.rows ↔
        db.Descends row.tenantId id run.grantId)
  backed : ∀ row ∈ db.effectReservations.rows,
    ∃ effect, db.findEffect row.tenantId row.runId row.ordinal = some effect ∧
      effect.reservationCharged = true

theorem ledger_migrated : migrated.Ledger := by
  constructor <;> simp [migrated, Table.empty]

/-- Growing the store adds no ancestor to a stored grant. -/
theorem Extends.descends_iff {db next : Database} {tenant id ancestor : Uuid}
    {path : List Uuid} (extended : db.Extends next)
    (lineage : db.Ancestry tenant id path) :
    next.Descends tenant ancestor id ↔ db.Descends tenant ancestor id := by
  rw [← mem_ancestry_iff lineage,
    ← mem_ancestry_iff (extended.ancestry lineage)]

variable {sha256 : Sha256} {db next : Database} {clock : Clock}
  {command : Command} {response : Response}

/-- What a successful first reservation does. -/
structure Reservation (db next : Database) (request : GrantReservation)
    (run : RunRow) (effect : EffectRow) (path : List Uuid) : Prop where
  runFound : db.findRun request.tenant request.run = some run
  lineage : db.Ancestry request.tenant run.grantId path
  effectFound : db.findEffect request.tenant request.run request.ordinal =
    some effect
  uncharged : effect.reservationCharged = false
  grants : next.grants.rows = db.grants.rows.map (GrantRow.charged request path)
  reservations : next.effectReservations.rows =
    db.effectReservations.rows ++ request.rows path
  effects : Table.Replaced db.effects next.effects effect
    { effect with reservationCharged := true }

/-- A call that is no first reservation moves no counter, no reservation row
and no flag. -/
structure BudgetsKept (db next : Database) (clock : Clock)
    (command : Command) : Prop where
  grants : ∀ row ∈ next.grants.rows,
    (∃ old ∈ db.grants.rows, old.Evolves row ∧
      row.usedEffects = old.usedEffects) ∨ db.GrantCreation clock command row
  reservations : next.effectReservations = db.effectReservations
  effects : ∀ row ∈ next.effects.rows, row.reservationCharged = true →
    ∃ old ∈ db.effects.rows, old.Evolves row ∧ old.reservationCharged = true

theorem BudgetsKept.of_same (grants : next.grants = db.grants)
    (reservations : next.effectReservations = db.effectReservations)
    (effects : next.effects = db.effects) :
    BudgetsKept db next clock command where
  grants row member := .inl ⟨row, grants ▸ member, .refl row, rfl⟩
  reservations := reservations
  effects row member charged := ⟨row, effects ▸ member, .refl row, charged⟩

theorem Transition.budget_cases (forest : db.GrantForest)
    (moved : Transition sha256 db clock command response next) :
    BudgetsKept db next clock command ∨
      ∃ request run effect path, command = .reserveGrantChain request ∧
        Reservation db next request run effect path := by
  cases moved with
  | grantCreated loaded tenantKnown now validated inserted =>
      refine .inl ⟨?_, rfl, fun row member charged =>
        ⟨row, member, .refl row, charged⟩⟩
      intro row member
      rcases inserted.mem_iff.mp member with stored | rfl
      · exact .inl ⟨row, stored, .refl row, rfl⟩
      · exact .inr (.created loaded tenantKnown now validated
          (findGrant_eq_none_of_inserted inserted))
  | grantRevoked _ unrevoked replaced =>
      refine .inl ⟨?_, rfl, fun row member charged =>
        ⟨row, member, .refl row, charged⟩⟩
      intro row member
      exact .inl (replaced.exists_origin
        (fun old row => old.Evolves row ∧ row.usedEffects = old.usedEffects)
        (fun row => ⟨.refl row, rfl⟩)
        ⟨GrantRow.evolves_revokedFrom _ unrevoked, rfl⟩ member)
  | @reserved request run effect chain _ plan _ _ _ runFound loaded effectFound
      uncharged _ _ planned charged recorded marked =>
      obtain ⟨path, lineage, rfl⟩ := forest.exists_of_load loaded
      have ids : plan.map Prod.fst = path := by
        rw [(reservationPlan_eq_ok planned).2, List.map_map]
        exact forest.ids_chainRows lineage
      rw [ids] at charged recorded
      exact .inr ⟨request, run, effect, path, rfl, runFound, lineage,
        effectFound, uncharged, charged, recorded, marked⟩
  | effectPrepared _ inserted =>
      refine .inl ⟨fun row member => .inl ⟨row, member, .refl row, rfl⟩, rfl,
        ?_⟩
      intro row member charged
      rcases inserted.mem_iff.mp member with stored | rfl
      · exact ⟨row, stored, .refl row, charged⟩
      · simp [EffectIntent.row] at charged
  | effectMoved _ replaced =>
      refine .inl ⟨fun row member => .inl ⟨row, member, .refl row, rfl⟩, rfl,
        ?_⟩
      intro row member charged
      obtain ⟨old, stored, evolved, same⟩ := replaced.exists_origin
        (fun old row => old.Evolves row ∧
          old.reservationCharged = row.reservationCharged)
        (fun row => ⟨.refl row, rfl⟩) ⟨⟨rfl, rfl, rfl, id⟩, rfl⟩ member
      exact ⟨old, stored, evolved, same.trans charged⟩
  | _ => exact .inl (.of_same rfl rfl rfl)

/-- Every reservation row names a stored grant. -/
theorem Ledger.findGrant_ne_none {row : ReservationRow} (ledger : db.Ledger)
    (refers : db.References) (forest : db.GrantForest)
    (member : row ∈ db.effectReservations.rows) :
    db.findGrant row.tenantId row.grantId ≠ none := by
  obtain ⟨effect, found, charged⟩ := ledger.backed row member
  obtain ⟨stored, tenantEq, runEq, ordinalEq⟩ :=
    findEffect_eq_some_iff.mp found
  obtain ⟨run, runFound⟩ :=
    Option.ne_none_iff_exists'.mp (refers.effects effect stored)
  obtain ⟨runStored, runTenant, _⟩ := findRun_eq_some_iff.mp runFound
  have grantKnown := (refers.runs run runStored).grant
  rw [runTenant] at grantKnown
  obtain ⟨path, lineage⟩ := forest.exists_ancestry grantKnown
  have descends := (ledger.charged effect stored charged run runFound
    row.grantId).mp (by rw [tenantEq, runEq, ordinalEq]; exact member)
  obtain ⟨above, aboveFound⟩ := forest.known_of_ancestry lineage row.grantId
    ((mem_ancestry_iff lineage).mpr descends)
  rw [← tenantEq, aboveFound]
  simp

/-- A created grant has no reservation yet. -/
theorem Ledger.reservationCount_created {row : GrantRow} (ledger : db.Ledger)
    (refers : db.References) (forest : db.GrantForest)
    (creation : db.GrantCreation clock command row) :
    db.reservationCount row.tenantId row.id = 0 := by
  rw [reservationCount, List.countP_eq_zero]
  intro reservation member named
  simp only [decide_eq_true_eq] at named
  have known := ledger.findGrant_ne_none refers forest member
  rw [named.1, named.2] at known
  cases creation with
  | created _ _ _ _ fresh => exact known fresh

/-- What a kept flag and its effect say about the store before the call. -/
theorem Ledger.charged_of_old {row old : EffectRow} (ledger : db.Ledger)
    (refers : db.References) (forest : db.GrantForest)
    (extended : db.Extends next) (stored : old ∈ db.effects.rows)
    (evolved : old.Evolves row) (charged : old.reservationCharged = true)
    {run : RunRow} (runFound : next.findRun row.tenantId row.runId = some run)
    (id : Uuid) :
    ⟨row.tenantId, row.runId, row.ordinal, id⟩ ∈ db.effectReservations.rows ↔
      next.Descends row.tenantId id run.grantId := by
  obtain ⟨oldRun, oldFound⟩ :=
    Option.ne_none_iff_exists'.mp (refers.effects old stored)
  obtain ⟨newRun, newFound, same⟩ := extended.findRun_eq_some oldFound
  rw [evolved.tenantId, evolved.runId] at runFound
  obtain rfl := Option.some.inj (runFound.symm.trans newFound)
  obtain ⟨runStored, runTenant, _⟩ := findRun_eq_some_iff.mp oldFound
  have grantKnown := (refers.runs oldRun runStored).grant
  rw [runTenant] at grantKnown
  obtain ⟨path, lineage⟩ := forest.exists_ancestry grantKnown
  rw [evolved.tenantId, evolved.runId, evolved.ordinal, same.grantId,
    extended.descends_iff lineage]
  exact ledger.charged old stored charged oldRun oldFound id

theorem Ledger.keep (ledger : db.Ledger) (refers : db.References)
    (forest : db.GrantForest) (extended : db.Extends next)
    (kept : BudgetsKept db next clock command) : next.Ledger where
  counted row member := by
    have sameCount : next.reservationCount row.tenantId row.id =
        db.reservationCount row.tenantId row.id := by
      rw [reservationCount, kept.reservations, reservationCount]
    rw [sameCount]
    rcases kept.grants row member with ⟨old, stored, evolved, used⟩ | creation
    · rw [used, evolved.tenantId, evolved.id]
      exact ledger.counted old stored
    · rw [ledger.reservationCount_created refers forest creation]
      cases creation with
      | created _ _ _ _ _ => rfl
  charged row member charged run runFound id := by
    obtain ⟨old, stored, evolved, oldCharged⟩ :=
      kept.effects row member charged
    rw [kept.reservations]
    exact ledger.charged_of_old refers forest extended stored evolved
      oldCharged runFound id
  backed row member := by
    rw [kept.reservations] at member
    obtain ⟨effect, found, charged⟩ := ledger.backed row member
    obtain ⟨new, newFound, evolved⟩ := extended.findEffect_eq_some found
    exact ⟨new, newFound, evolved.charged charged⟩

/-- The rows of one reservation name each grant of the path once. -/
theorem countP_reservation_rows {request : GrantReservation}
    {path : List Uuid} (distinct : path.Nodup) (tenant id : Uuid) :
    (request.rows path).countP
        (fun row => decide (row.tenantId = tenant ∧ row.grantId = id)) =
      if tenant = request.tenant ∧ id ∈ path then 1 else 0 := by
  rw [GrantReservation.rows, List.countP_map]
  by_cases owner : tenant = request.tenant
  · have counted : ((fun row : ReservationRow =>
          decide (row.tenantId = tenant ∧ row.grantId = id)) ∘ fun grant =>
            ⟨request.tenant, request.run, request.ordinal, grant⟩) =
        fun grant => grant == id := by
      funext grant
      simp [owner, beq_eq_decide]
    rw [counted]
    change path.count id = _
    by_cases member : id ∈ path
    · rw [if_pos ⟨owner, member⟩, List.count_eq_one_of_mem distinct member]
    · rw [if_neg fun both => member both.2, List.count_eq_zero_of_not_mem member]
  · rw [if_neg fun both => owner both.1, List.countP_eq_zero]
    intro grant _ named
    simp only [Function.comp_apply, decide_eq_true_eq] at named
    exact owner named.1.symm

section Reserving

variable {request : GrantReservation} {run : RunRow} {effect : EffectRow}
  {path : List Uuid} (ledger : db.Ledger) (refers : db.References)
  (forest : db.GrantForest) (extended : db.Extends next)
  (reservation : Reservation db next request run effect path)

include ledger forest reservation

theorem Ledger.counted_reserve :
    ∀ row ∈ next.grants.rows,
      row.usedEffects = next.reservationCount row.tenantId row.id := by
  intro row member
  rw [reservation.grants, List.mem_map] at member
  obtain ⟨old, stored, rfl⟩ := member
  have before := ledger.counted old stored
  have tenantEq : (old.charged request path).tenantId = old.tenantId :=
    (old.evolves_charged request path).tenantId
  have idEq : (old.charged request path).id = old.id :=
    (old.evolves_charged request path).id
  have after : next.reservationCount old.tenantId old.id =
      db.reservationCount old.tenantId old.id +
        if old.tenantId = request.tenant ∧ old.id ∈ path then 1 else 0 := by
    rw [reservationCount, reservation.reservations, List.countP_append,
      countP_reservation_rows (forest.nodup_ancestry reservation.lineage)]
    rfl
  rw [tenantEq, idEq, after]
  by_cases charged : old.tenantId = request.tenant ∧ old.id ∈ path
  · simp [GrantRow.charged, charged, before]
  · simp [GrantRow.charged, charged, before]

omit forest in
/-- The effect being reserved had no reservation row. -/
theorem Ledger.none_reserved (id : Uuid) :
    ⟨request.tenant, request.run, request.ordinal, id⟩ ∉
      db.effectReservations.rows := by
  intro member
  obtain ⟨other, found, charged⟩ := ledger.backed _ member
  obtain rfl := Option.some.inj (found.symm.trans reservation.effectFound)
  simp [reservation.uncharged] at charged

theorem Ledger.charged_reserve (refers : db.References)
    (extended : db.Extends next) :
    ∀ row ∈ next.effects.rows, row.reservationCharged = true →
      ∀ run, next.findRun row.tenantId row.runId = some run → ∀ id,
        (⟨row.tenantId, row.runId, row.ordinal, id⟩ ∈
            next.effectReservations.rows ↔
          next.Descends row.tenantId id run.grantId) := by
  intro row member charged owner ownerFound id
  obtain ⟨stored, tenantEq, runEq, ordinalEq⟩ :=
    findEffect_eq_some_iff.mp reservation.effectFound
  rw [reservation.reservations, List.mem_append]
  rcases reservation.effects.mem_iff.mp member with rfl | ⟨old, different⟩
  · -- the effect reserved now: its rows are the appended ones
    simp only [tenantEq, runEq, ordinalEq] at ownerFound ⊢
    obtain ⟨newRun, newFound, same⟩ :=
      extended.findRun_eq_some reservation.runFound
    obtain rfl := Option.some.inj (ownerFound.symm.trans newFound)
    rw [same.grantId, extended.descends_iff reservation.lineage,
      ← mem_ancestry_iff reservation.lineage]
    simp [GrantReservation.rows, ledger.none_reserved reservation]
  · -- another effect: the appended rows carry a different key
    have apart : (⟨row.tenantId, row.runId, row.ordinal, id⟩ :
        ReservationRow) ∉ request.rows path := by
      intro appended
      simp only [GrantReservation.rows, List.mem_map,
        ReservationRow.mk.injEq] at appended
      obtain ⟨_, _, tenant, runId, ordinal, _⟩ := appended
      have found : db.findEffect request.tenant request.run request.ordinal =
          some row :=
        findEffect_eq_some_iff.mpr
          ⟨old, tenant.symm, runId.symm, ordinal.symm⟩
      exact different
        (Option.some.inj (found.symm.trans reservation.effectFound))
    rw [or_iff_left apart]
    exact ledger.charged_of_old refers forest extended old (.refl row) charged
      ownerFound id

theorem Ledger.reserve (refers : db.References) (extended : db.Extends next) :
    next.Ledger where
  counted := ledger.counted_reserve forest reservation
  charged := ledger.charged_reserve forest reservation refers extended
  backed row member := by
    rw [reservation.reservations, List.mem_append] at member
    rcases member with old | appended
    · obtain ⟨stored, found, charged⟩ := ledger.backed row old
      obtain ⟨new, newFound, evolved⟩ := extended.findEffect_eq_some found
      exact ⟨new, newFound, evolved.charged charged⟩
    · obtain ⟨grant, _, rfl⟩ := List.mem_map.mp appended
      obtain ⟨_, columns⟩ := findEffect_eq_some_iff.mp reservation.effectFound
      exact ⟨_, findEffect_eq_some_iff.mpr
        ⟨reservation.effects.new_mem, columns⟩, rfl⟩

end Reserving

theorem Transition.ledger
    (moved : Transition sha256 db clock command response next)
    (refers : db.References) (forest : db.GrantForest) (ledger : db.Ledger) :
    next.Ledger := by
  rcases moved.budget_cases forest with kept |
    ⟨request, run, effect, path, _, reservation⟩
  · exact ledger.keep refers forest moved.extends kept
  · exact ledger.reserve forest reservation refers moved.extends

end Database

end EffectLatch
