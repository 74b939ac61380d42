import EffectLatch.EffectBudgets
import Mathlib.Data.List.Nodup

/-!
# Conservation of effect budgets

In every reachable state the counter of a grant is the number of charged
effects in its subtree, so delegation multiplies no budget, and a repeated
reservation charges nothing.
-/

namespace EffectLatch

variable {sha256 : Sha256} {allowed : Database → Call → Prop} {db : Database}
  {history : List Event}

theorem Reachable.ledger (reached : Reachable sha256 allowed db) :
    db.Ledger := by
  have together := reached.invariant
    (fun db => db.References ∧ db.GrantForest ∧ db.Ledger)
    ⟨Database.references_migrated, Database.grantForest_migrated,
      Database.ledger_migrated⟩
    fun _ _ _ _ holds _ moved =>
      ⟨moved.references holds.1, moved.grantForest holds.2.1,
        moved.ledger holds.1 holds.2.1 holds.2.2⟩
  exact together.2.2

namespace Database

variable {tenant id : Uuid}

/-- The run of an effect, with the ancestry of its grant. -/
theorem References.exists_run {row : EffectRow} (refers : db.References)
    (forest : db.GrantForest) (stored : row ∈ db.effects.rows) :
    ∃ run path, db.findRun row.tenantId row.runId = some run ∧
      db.Ancestry row.tenantId run.grantId path := by
  obtain ⟨run, found⟩ :=
    Option.ne_none_iff_exists'.mp (refers.effects row stored)
  obtain ⟨runStored, runTenant, _⟩ := findRun_eq_some_iff.mp found
  have grantKnown := (refers.runs run runStored).grant
  rw [runTenant] at grantKnown
  obtain ⟨path, lineage⟩ := forest.exists_ancestry grantKnown
  exact ⟨run, path, found, lineage⟩

/-- An effect is charged under a grant exactly when a reservation row for it
names the grant. -/
theorem Ledger.chargedUnder_iff {row : EffectRow} (ledger : db.Ledger)
    (refers : db.References) (forest : db.GrantForest)
    (stored : row ∈ db.effects.rows) :
    db.ChargedUnder tenant id row ↔ row.tenantId = tenant ∧
      ⟨row.tenantId, row.runId, row.ordinal, id⟩ ∈
        db.effectReservations.rows := by
  constructor
  · rintro ⟨rfl, charged, run, found, descends⟩
    exact ⟨rfl, (ledger.charged row stored charged run found id).mpr descends⟩
  · rintro ⟨rfl, reserved⟩
    obtain ⟨effect, found, charged⟩ := ledger.backed _ reserved
    obtain rfl : row = effect := Option.some.inj
      ((findEffect_eq_some_iff.mpr ⟨stored, rfl, rfl, rfl⟩).symm.trans found)
    obtain ⟨run, path, runFound, _⟩ := refers.exists_run forest stored
    exact ⟨rfl, charged, run, runFound,
      (ledger.charged row stored charged run runFound id).mp reserved⟩

/-- Reservation rows and charged effects are in bijection through the key of
the effect. -/
theorem Ledger.reservationCount_eq (ledger : db.Ledger)
    (refers : db.References) (forest : db.GrantForest) (tenant id : Uuid) :
    db.reservationCount tenant id = db.chargedCount tenant id := by
  classical
  let reserved := db.effectReservations.rows.filter fun row =>
    decide (row.tenantId = tenant ∧ row.grantId = id)
  let charged := db.effects.rows.filter fun row =>
    decide (db.ChargedUnder tenant id row)
  have reservedKeys : (reserved.map ReservationRow.effectKey).Nodup := by
    refine List.Nodup.map_on ?_ (db.effectReservations.nodup.filter _)
    intro first firstMember second secondMember sameKey
    simp only [reserved, List.mem_filter, decide_eq_true_eq] at firstMember
    simp only [reserved, List.mem_filter, decide_eq_true_eq] at secondMember
    cases first
    cases second
    simp_all [ReservationRow.effectKey]
  have chargedKeys : (charged.map EffectRow.key).Nodup := by
    refine List.Nodup.map_on ?_ (db.effects.nodup.filter _)
    intro first firstMember second secondMember sameKey
    simp only [EffectRow.key, Prod.mk.injEq] at sameKey
    exact effect_eq_of_key (List.mem_of_mem_filter firstMember)
      (List.mem_of_mem_filter secondMember) sameKey.1 sameKey.2.1 sameKey.2.2
  have sameKeys : ∀ key, key ∈ reserved.map ReservationRow.effectKey ↔
      key ∈ charged.map EffectRow.key := by
    intro key
    simp only [List.mem_map, reserved, charged, List.mem_filter,
      decide_eq_true_eq]
    constructor
    · rintro ⟨row, ⟨member, rfl, rfl⟩, rfl⟩
      obtain ⟨effect, found, _⟩ := ledger.backed row member
      obtain ⟨stored, tenantEq, runEq, ordinalEq⟩ :=
        findEffect_eq_some_iff.mp found
      refine ⟨effect, ⟨stored, ?_⟩, by
        simp [EffectRow.key, ReservationRow.effectKey, tenantEq, runEq,
          ordinalEq]⟩
      rw [ledger.chargedUnder_iff refers forest stored, tenantEq, runEq,
        ordinalEq]
      exact ⟨rfl, member⟩
    · rintro ⟨effect, ⟨stored, under⟩, rfl⟩
      obtain ⟨tenantEq, member⟩ :=
        (ledger.chargedUnder_iff refers forest stored).mp under
      exact ⟨_, ⟨member, tenantEq, rfl⟩, rfl⟩
  have lengths := ((List.perm_ext_iff_of_nodup reservedKeys chargedKeys).mpr
    sameKeys).length_eq
  rw [List.length_map, List.length_map] at lengths
  rw [reservationCount, chargedCount, List.countP_eq_length_filter,
    List.countP_eq_length_filter]
  exact lengths

/-- Reserving for a charged effect answers without a change. -/
theorem Ledger.reserve_existing {request : GrantReservation}
    {effect : EffectRow} (ledger : db.Ledger) (refers : db.References)
    (forest : db.GrantForest)
    (found : db.findEffect request.tenant request.run request.ordinal =
      some effect)
    (charged : effect.reservationCharged = true) (clock : Clock) :
    db.reserveGrantChain clock request = .ok (.existing, db) := by
  obtain ⟨stored, tenantEq, runEq, ordinalEq⟩ :=
    findEffect_eq_some_iff.mp found
  obtain ⟨run, path, runFound, lineage⟩ := refers.exists_run forest stored
  have rows := ledger.charged effect stored charged run runFound
  rw [tenantEq, runEq, ordinalEq] at rows
  rw [tenantEq, runEq] at runFound
  rw [tenantEq] at lineage
  have ids : ((db.chainRows request.tenant path).map GrantRow.decoded).map
      Grant.id = path := by
    rw [List.map_map]
    exact forest.ids_chainRows lineage
  let existing := (db.effectReservations.rows.filter fun row =>
      decide (row.tenantId = request.tenant ∧ row.runId = request.run ∧
        row.ordinal = request.ordinal)).map ReservationRow.grantId
  have distinct : existing.Nodup := by
    refine List.Nodup.map_on ?_ (db.effectReservations.nodup.filter _)
    intro first firstMember second secondMember sameGrant
    simp only [List.mem_filter, decide_eq_true_eq] at firstMember secondMember
    cases first
    cases second
    simp_all
  have members : ∀ grant, grant ∈ existing ↔ grant ∈ path := by
    intro grant
    rw [mem_ancestry_iff lineage, ← rows grant]
    simp only [existing, List.mem_map, List.mem_filter, decide_eq_true_eq]
    constructor
    · rintro ⟨row, ⟨member, rowTenant, rowRun, rowOrdinal⟩, rfl⟩
      cases row
      simp_all
    · intro member
      exact ⟨_, ⟨member, rfl, rfl, rfl⟩, rfl⟩
  have sorted : existing.insertionSort (· ≤ ·) =
      path.insertionSort (· ≤ ·) := by
    have permuted := (List.perm_ext_iff_of_nodup distinct
      (forest.nodup_ancestry lineage)).mpr members
    refine List.Perm.eq_of_pairwise' (List.pairwise_insertionSort (· ≤ ·) _)
      (List.pairwise_insertionSort (· ≤ ·) _) ?_
    exact (List.perm_insertionSort _ _).trans
      (permuted.trans (List.perm_insertionSort _ _).symm)
  have nonempty : existing.insertionSort (· ≤ ·) ≠ [] := by
    have member := (List.mem_insertionSort (· ≤ ·)).mpr
      ((members run.grantId).mpr lineage.self_mem)
    exact List.ne_nil_of_mem member
  rw [reserveGrantChain, runFound, Except.fetch_some, Except.ok_bind_eq,
    forest.loadGrantChainLocked_eq lineage, Except.ok_bind_eq, found,
    Except.fetch_some, Except.ok_bind_eq]
  simp only [ids]
  rw [if_pos nonempty, Except.require_of ⟨sorted, charged⟩]
  rfl

/-- After a successful reservation the effect is charged. -/
theorem Transition.charged_of_reserve {next : Database} {clock : Clock}
    {request : GrantReservation} {response : Response}
    (moved : Transition sha256 db clock (.reserveGrantChain request) response
      next) :
    ∃ effect, next.findEffect request.tenant request.run request.ordinal =
      some effect ∧ effect.reservationCharged = true := by
  cases moved with
  | unchanged observed =>
      cases observed with
      | reservedBefore found charged => exact ⟨_, found, charged⟩
  | reserved _ _ effectFound _ _ _ _ _ _ marked =>
      obtain ⟨_, columns⟩ := findEffect_eq_some_iff.mp effectFound
      exact ⟨_, findEffect_eq_some_iff.mpr ⟨marked.new_mem, columns⟩, rfl⟩

end Database

/-- Every counter is the number of reservation rows that name the grant, is the
number of charged effects in its subtree, and stays within the budget; and once
a reservation succeeded, repeating it answers `existing` and changes
nothing. -/
theorem effectBudgets_conserved
    (execution : StoreExecution sha256 allowed history db) :
    (∀ row ∈ db.grants.rows,
      row.usedEffects = db.reservationCount row.tenantId row.id ∧
      row.usedEffects = db.chargedCount row.tenantId row.id ∧
      row.usedEffects ≤ row.maxEffects) ∧
    ∀ performed ∈ history, ∀ request kind,
      performed.call.command = .reserveGrantChain request →
      performed.outcome = .ok (.reservation kind) →
      ∀ clock, db.perform sha256 ⟨.reserveGrantChain request, clock⟩ =
        (.ok (.reservation .existing), db) := by
  have reached : Reachable sha256 allowed db := ⟨history, execution⟩
  have refers := reached.references
  have forest := reached.grantForest
  have ledger := reached.ledger
  constructor
  · intro row member
    have counted := ledger.counted row member
    refine ⟨counted, ?_, (GrantRow.bounded_of_mem member).usedEffects.2⟩
    rw [counted, ledger.reservationCount_eq refers forest]
  · intro performed member request kind command outcome clock
    obtain ⟨_, _, _, _, done, continued⟩ := execution.split_mem member
    rw [outcome] at done
    have moved := Database.transition_of_perform done
    rw [command] at moved
    obtain ⟨effect, found, charged⟩ := moved.charged_of_reserve
    obtain ⟨last, lastFound, evolved⟩ :=
      (Database.extends_of_execution continued).findEffect_eq_some found
    simp [Database.perform, Database.execute, Except.map,
      ledger.reserve_existing refers forest lastFound
        (evolved.charged charged) clock]

theorem effectBudgets_conserved_reservation :
    ∃ row ∈ (Sample.after Sample.reservation).grants.rows,
      row.id = 10 ∧ row.usedEffects = 1 ∧
        (Sample.after Sample.reservation).chargedCount 1 10 = 1 := by
  have charged : ((Sample.after Sample.reservation).findGrant 1 10).map
      GrantRow.usedEffects = some 1 := by decide +kernel
  obtain ⟨row, found, used⟩ := Option.map_eq_some_iff.mp charged
  obtain ⟨member, tenantEq, idEq⟩ :=
    Database.findGrant_eq_some_iff.mp found
  have execution : StoreExecution Sample.sha256 (fun _ _ => True) _
      (Sample.after Sample.reservation) :=
    Sample.execution_after fun _ _ _ => trivial
  obtain ⟨_, counted, _⟩ := (effectBudgets_conserved execution).1 row member
  rw [tenantEq, idEq, used] at counted
  exact ⟨row, member, idEq, used, by exact_mod_cast counted.symm⟩

end EffectLatch
