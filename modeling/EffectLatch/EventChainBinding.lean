import EffectLatch.DomainHashingLaws
import EffectLatch.HashChains
import EffectLatch.IdempotentAdmission
import EffectLatch.RunEventLogs
import Mathlib.Data.List.Chain
import Mathlib.Data.Set.Function

/-!
# The hash chain of a run

Event rows and the head in the run row are written by different statements.
They agree in every reachable state, so the last digest of a run commits to its
tenant, its identity and all its events.
-/

namespace EffectLatch

/-- The log of a run is numbered without gaps from one, every event hashes its
fields and the digest before it, and the row holds the end of the chain. -/
structure RunRow.ChainIntact (sha256 : Sha256) (row : RunRow)
    (events : List RunEventRow) : Prop where
  numbered : events.map RunEventRow.seq =
    (List.range events.length).map fun (index : Nat) => (index : Int) + 1
  next : row.nextEventSeq = events.length + 1
  first : ∀ event, events.head? = some event → event.prevHash = Digest.zero
  linked : events.IsChain fun earlier later =>
    later.prevHash = earlier.eventHash
  owned : ∀ event ∈ events,
    event.tenantId = row.tenantId ∧ event.runId = row.id
  hashed : ∀ event ∈ events, event.eventHash =
    Hash.event sha256 event.tenantId event.runId event.seq.toNat
      event.prevHash event.kind event.payload
  last : row.lastEventHash =
    (events.getLast?.map RunEventRow.eventHash).getD Digest.zero

/-- The bytes that were hashed for an event. -/
def RunEventRow.preimage (event : RunEventRow) : List UInt8 :=
  Hash.eventPreimage event.tenantId event.runId event.seq.toNat event.prevHash
    event.kind event.payload

/-- The byte strings behind the stored events. -/
def Database.hashedBytes (db : Database) : Set (List UInt8) :=
  { bytes | ∃ event ∈ db.runEvents.rows, event.preimage = bytes }

namespace RunRow

variable {sha256 : Sha256} {tenant run : Uuid}

theorem chainEvents_seqs (seq : Int) (previous : Digest)
    (entries : List (String × List UInt8)) :
    (chainEvents sha256 tenant run seq previous entries).1.map
        RunEventRow.seq =
      (List.range entries.length).map fun (index : Nat) => seq + index := by
  induction entries generalizing seq previous with
  | nil => rfl
  | cons entry rest induction =>
      simp only [chainEvents, List.map_cons, induction, List.length_cons,
        List.range_succ_eq_map, List.map_map]
      congr 1
      · simp
      · apply List.map_congr_left
        intro index _
        simp only [Function.comp_apply, Nat.succ_eq_add_one]
        push_cast
        omega

theorem chainEvents_hashed (seq : Int) (previous : Digest)
    (entries : List (String × List UInt8)) :
    ∀ event ∈ (chainEvents sha256 tenant run seq previous entries).1,
      event.tenantId = tenant ∧ event.runId = run ∧
        event.eventHash = sha256 event.preimage := by
  induction entries generalizing seq previous with
  | nil => simp [chainEvents]
  | cons entry rest induction =>
      intro event member
      simp only [chainEvents, List.mem_cons] at member
      rcases member with rfl | later
      · exact ⟨rfl, rfl, rfl⟩
      · exact induction _ _ event later

theorem chainEvents_linked (seq : Int) (previous : Digest)
    (entries : List (String × List UInt8)) :
    (∀ event,
      (chainEvents sha256 tenant run seq previous entries).1.head? =
        some event → event.prevHash = previous) ∧
    (chainEvents sha256 tenant run seq previous entries).1.IsChain
      (fun earlier later => later.prevHash = earlier.eventHash) ∧
    (chainEvents sha256 tenant run seq previous entries).2 =
      ((chainEvents sha256 tenant run seq previous entries).1.getLast?.map
        RunEventRow.eventHash).getD previous := by
  induction entries generalizing seq previous with
  | nil => simp [chainEvents]
  | cons entry rest induction =>
      obtain ⟨first, linked, last⟩ := induction (seq + 1)
        (Hash.event sha256 tenant run seq.toNat previous entry.1 entry.2)
      simp only [chainEvents]
      refine ⟨?_, ?_, ?_⟩
      · intro event found
        obtain rfl := Option.some.inj found
        rfl
      · exact List.IsChain.cons linked fun later found => first later found
      · rw [last, List.getLast?_cons]
        cases (chainEvents sha256 tenant run (seq + 1) _ rest).1.getLast? <;>
          rfl

/-- The log is the chain of its own entries, and the row holds its head. -/
structure HeadOf (sha256 : Sha256) (row : RunRow)
    (events : List RunEventRow) : Prop where
  chain : (chainEvents sha256 row.tenantId row.id 1 Digest.zero
    (events.map RunEventRow.entry)).1 = events
  next : row.nextEventSeq = events.length + 1
  last : row.lastEventHash = (chainEvents sha256 row.tenantId row.id 1
    Digest.zero (events.map RunEventRow.entry)).2

theorem HeadOf.intact {row : RunRow} {events : List RunEventRow}
    (head : row.HeadOf sha256 events) : row.ChainIntact sha256 events := by
  have seqs := @chainEvents_seqs sha256 row.tenantId row.id 1 Digest.zero
    (events.map RunEventRow.entry)
  have hashed := @chainEvents_hashed sha256 row.tenantId row.id 1 Digest.zero
    (events.map RunEventRow.entry)
  have linked := @chainEvents_linked sha256 row.tenantId row.id 1 Digest.zero
    (events.map RunEventRow.entry)
  rw [← head.last] at linked
  rw [head.chain] at seqs hashed linked
  constructor
  · rw [seqs, List.length_map]
    apply List.map_congr_left
    intro index _
    omega
  · exact head.next
  · exact linked.1
  · exact linked.2.1
  · intro event member
    exact ⟨(hashed event member).1, (hashed event member).2.1⟩
  · intro event member
    exact (hashed event member).2.2
  · exact linked.2.2

/-- The digest a run's chain continues with. -/
def link (sha256 : Sha256) (owner : Uuid × Uuid) (seq : Nat)
    (previous : Digest) (entry : String × List UInt8) : Digest :=
  Hash.event sha256 owner.1 owner.2 seq previous entry.1 entry.2

theorem chainEvents_head (seq : Nat) (previous : Digest)
    (entries : List (String × List UInt8)) :
    (chainEvents sha256 tenant run seq previous entries).2 =
      HashChain.head (link sha256 (tenant, run)) seq previous entries := by
  induction entries generalizing seq previous with
  | nil => rfl
  | cons entry rest induction =>
      simp only [chainEvents, HashChain.head]
      rw [← induction (seq + 1)]
      rfl

/-- The link was hashed for some event of the set, with fields that fit their
frames. -/
structure Occurs (hashed : Set (List UInt8)) (owner : Uuid × Uuid) (seq : Nat)
    (previous : Digest) (entry : String × List UInt8) : Prop where
  fed : Hash.eventPreimage owner.1 owner.2 seq previous entry.1 entry.2 ∈ hashed
  seqFits : seq < 256 ^ 8
  kindFits : (utf8 entry.1).length < 256 ^ 8
  payloadFits : entry.2.length < 256 ^ 8

theorem link_injective {hashed : Set (List UInt8)}
    (injective : Set.InjOn sha256 hashed)
    (first second : Uuid × Uuid) (seq other : Nat) (previous before : Digest)
    (entry later : String × List UInt8)
    (occurs : Occurs hashed first seq previous entry)
    (otherOccurs : Occurs hashed second other before later)
    (same : link sha256 first seq previous entry =
      link sha256 second other before later) :
    first = second ∧ seq = other ∧ previous = before ∧ entry = later := by
  have bytes := injective occurs.fed otherOccurs.fed same
  obtain ⟨tenants, runs, seqs, digests, kinds, payloads⟩ :=
    Hash.eventPreimage_inj bytes occurs.seqFits otherOccurs.seqFits
      occurs.kindFits otherOccurs.kindFits occurs.payloadFits
      otherOccurs.payloadFits
  exact ⟨Prod.ext tenants runs, seqs, digests, Prod.ext kinds payloads⟩

/-- The event was hashed as part of the set and its fields fit their frames. -/
def Fits (hashed : Set (List UInt8)) (event : RunEventRow) : Prop :=
  Occurs hashed (event.tenantId, event.runId) event.seq.toNat event.prevHash
    event.entry

theorem links_of_fits {hashed : Set (List UInt8)} (seq : Nat)
    (previous : Digest) (entries : List (String × List UInt8))
    (fits : ∀ event ∈ (chainEvents sha256 tenant run seq previous entries).1,
      Fits hashed event) :
    HashChain.Links (link sha256 (tenant, run)) (Occurs hashed (tenant, run))
      seq previous entries := by
  induction entries generalizing seq previous with
  | nil => trivial
  | cons entry rest induction =>
      simp only [chainEvents, List.mem_cons, forall_eq_or_imp] at fits
      exact ⟨fits.1, induction (seq + 1) _ fits.2⟩

/-- Equal ends of two non-empty chains have one owner and equal entries. -/
theorem HeadOf.binding {hashed : Set (List UInt8)} {row other : RunRow}
    {events others : List RunEventRow}
    (injective : Set.InjOn sha256 hashed)
    (head : row.HeadOf sha256 events) (otherHead : other.HeadOf sha256 others)
    (fits : ∀ event ∈ events, Fits hashed event)
    (othersFit : ∀ event ∈ others, Fits hashed event)
    (nonempty : events ≠ []) (othersNonempty : others ≠ [])
    (same : row.lastEventHash = other.lastEventHash) :
    row.tenantId = other.tenantId ∧ row.id = other.id ∧
      events.map RunEventRow.entry = others.map RunEventRow.entry := by
  rw [head.last, otherHead.last] at same
  have chained := @chainEvents_head sha256 row.tenantId row.id 1 Digest.zero
    (events.map RunEventRow.entry)
  have otherChained := @chainEvents_head sha256 other.tenantId other.id 1
    Digest.zero (others.map RunEventRow.entry)
  have linked := @links_of_fits sha256 row.tenantId row.id hashed 1
    Digest.zero (events.map RunEventRow.entry) (head.chain.symm ▸ fits)
  have otherLinked := @links_of_fits sha256 other.tenantId other.id hashed 1
    Digest.zero (others.map RunEventRow.entry) (otherHead.chain.symm ▸ othersFit)
  obtain ⟨owners, entries⟩ := HashChain.binding (link_injective injective)
    (by simpa using nonempty) (by simpa using othersNonempty) linked otherLinked
    (chained.symm.trans (same.trans otherChained))
  exact ⟨congrArg Prod.fst owners, congrArg Prod.snd owners, entries⟩

end RunRow

namespace Database

variable {sha256 : Sha256} {db next : Database} {clock : Clock}
  {command : Command} {response : Response} {row : RunRow}

/-- No rewrite touches the end of the chain. -/
theorem RunStep.lastEventHash_eq {old new : RunRow}
    {entries : List (String × List UInt8)}
    (step : db.RunStep clock command old new entries) :
    new.lastEventHash = old.lastEventHash := by
  cases step <;> rfl

/-- The row of every run holds the head of its log. -/
def ChainHeads (sha256 : Sha256) (db : Database) : Prop :=
  ∀ row ∈ db.runs.rows, row.HeadOf sha256 (db.eventsOf row.id)

/-- A fresh log starts the chain. -/
theorem RunAdmission.headOf
    (admission : RunAdmission sha256 db clock command row)
    (entries : List (String × List UInt8)) :
    (row.advance sha256 entries).HeadOf sha256
      (row.emitted sha256 entries) := by
  have length : (row.emitted sha256 entries).length = entries.length := by
    rw [← List.length_map RunEventRow.entry, RunRow.emitted_entries]
  cases admission with
  | admitted _ _ _ _ _ =>
      constructor
      · rw [RunRow.emitted_entries]
        rfl
      · rw [length]
        exact Int.add_comm 1 _
      · rw [RunRow.emitted_entries]
        rfl

/-- The events of a rewrite continue the chain. -/
theorem RunStep.headOf {old new : RunRow} {events : List RunEventRow}
    {entries : List (String × List UInt8)}
    (step : db.RunStep clock command old new entries)
    (head : old.HeadOf sha256 events) :
    (new.advance sha256 entries).HeadOf sha256
      (events ++ new.emitted sha256 entries) := by
  obtain ⟨sameTenant, sameId, sameSeq⟩ := step.head_le
  have sameHash := step.lastEventHash_eq
  have length : (new.emitted sha256 entries).length = entries.length := by
    rw [← List.length_map RunEventRow.entry, RunRow.emitted_entries]
  have appended := RunRow.chainEvents_append sha256 old.tenantId old.id 1
    Digest.zero (events.map RunEventRow.entry) entries
  have seq : (1 : Int) + (events.map RunEventRow.entry).length =
      new.nextEventSeq := by
    rw [sameSeq, head.next, List.length_map]
    omega
  simp only [← head.last, head.chain, seq] at appended
  simp only [← sameHash, ← sameTenant, ← sameId] at appended
  constructor
  · rw [List.map_append, RunRow.emitted_entries]
    exact congrArg Prod.fst appended
  · change new.nextEventSeq + (entries.length : Int) = _
    rw [List.length_append, length, sameSeq, head.next]
    push_cast
    omega
  · rw [List.map_append, RunRow.emitted_entries]
    exact (congrArg Prod.snd appended).symm

theorem Transition.chainHeads
    (moved : Transition sha256 db clock command response next)
    (heads : db.EventHeads) (chained : ChainHeads sha256 db) :
    ChainHeads sha256 next := by
  intro row member
  cases moved.logMove heads member with
  | kept stored events =>
      rw [events]
      exact chained row stored
  | admitted admission _ same events =>
      subst same
      rw [events]
      exact admission.headOf _
  | rewritten stored sameId step same events =>
      subst same
      rw [events, ← sameId]
      exact step.headOf (chained _ stored)

theorem reap_kind_length_le {verdict : Verdict}
    (reaped : verdict ∈ reapVerdicts) : (utf8 verdict.2.2).length ≤ 128 := by
  revert verdict
  decide +kernel

/-- Every recorded kind is short enough for its frame. -/
theorem RunStep.kind_length_le {old new : RunRow}
    {entries : List (String × List UInt8)}
    (step : db.RunStep clock command old new entries) :
    ∀ entry ∈ entries, (utf8 entry.1).length ≤ 128 := by
  cases step with
  | leased _ _ _ =>
      simp only [List.mem_singleton, forall_eq]
      decide +kernel
  | denied _ _ =>
      simp only [List.mem_cons, List.not_mem_nil, or_false, forall_eq_or_imp,
        forall_eq]
      decide +kernel
  | renewed _ _ => simp
  | started _ _ =>
      simp only [List.mem_singleton, forall_eq]
      decide +kernel
  | @promoted policy _ _ _ =>
      simp only [List.mem_singleton, forall_eq]
      exact reap_kind_length_le (db.promotionVerdict_mem_reap policy old)
  | @expired policy _ queueLimit _ _ _ =>
      simp only [List.mem_cons, List.not_mem_nil, or_false, forall_eq_or_imp,
        forall_eq]
      exact ⟨by decide +kernel,
        reap_kind_length_le (db.expiryVerdict_mem_reap policy queueLimit old)⟩
  | @finished _ _ _ _ _ errorCode _ _ _ _ =>
      simp only [List.mem_singleton, forall_eq]
      unfold RunRow.finalVerdict
      split_ifs <;> decide +kernel
  | cancelRequested => simp

/-- Every stored kind is short enough for its frame. -/
def KindsShort (db : Database) : Prop :=
  ∀ event ∈ db.runEvents.rows, (utf8 event.kind).length ≤ 128

theorem emitted_kind_length_le {entries : List (String × List UInt8)}
    (short : ∀ entry ∈ entries, (utf8 entry.1).length ≤ 128) :
    ∀ event ∈ row.emitted sha256 entries, (utf8 event.kind).length ≤ 128 := by
  intro event member
  have listed := List.mem_map_of_mem (f := RunEventRow.entry) member
  rw [RunRow.emitted_entries] at listed
  exact short event.entry listed

theorem Transition.kindsShort
    (moved : Transition sha256 db clock command response next)
    (short : db.KindsShort) : next.KindsShort := by
  rcases moved.runs_cases with ⟨_, events⟩ | ⟨_, _, _, logged⟩ |
    ⟨old, new, entries, step, recorded⟩
  · rw [KindsShort, events]
    exact short
  · rw [KindsShort, logged]
    apply List.forall_mem_append.mpr ⟨short, _⟩
    apply emitted_kind_length_le
    simp only [List.mem_singleton, forall_eq]
    decide +kernel
  · rw [KindsShort, recorded.logged]
    exact List.forall_mem_append.mpr
      ⟨short, emitted_kind_length_le step.kind_length_le⟩

/-- The stored events have fields that fit their frames. -/
theorem EventHeads.fits (heads : db.EventHeads) (short : db.KindsShort)
    {hashed : Set (List UInt8)} (fed : db.hashedBytes ⊆ hashed) (run : Uuid) :
    ∀ event ∈ db.eventsOf run, RunRow.Fits hashed event := by
  intro event listed
  have member := (List.mem_filter.mp listed).1
  obtain ⟨owner, stored, _, _, below⟩ := heads.events event member
  have bounded := (heads.heads owner stored).bounded
  have room := owner.state.headroom_le
  have ownerChecked := db.runs.checked owner stored
  have checked := db.runEvents.checked event member
  have kind := short event member
  simp only [RunRow.schema, decide_eq_true_eq] at ownerChecked
  simp only [RunEventRow.schema, decide_eq_true_eq] at checked
  constructor
  · exact fed ⟨event, member, rfl⟩
  · omega
  · change (utf8 event.kind).length < 256 ^ 8
    omega
  · change event.payload.length < 256 ^ 8
    omega

end Database

/-- In every reachable state the events of a run form an intact hash chain that
ends in the run's row.  When SHA-256 tells the hashed events of two reachable
states apart, runs with equal last digests have the same tenant, the same
identity and the same events. -/
theorem eventChains_intact_and_binding {sha256 : Sha256}
    {allowed otherAllowed : Database → Call → Prop} {db other : Database}
    (reached : Reachable sha256 allowed db)
    (otherReached : Reachable sha256 otherAllowed other) :
    (∀ row ∈ db.runs.rows,
      row.ChainIntact sha256 (db.eventsOf row.id)) ∧
    (Set.InjOn sha256 (db.hashedBytes ∪ other.hashedBytes) →
      ∀ row ∈ db.runs.rows, ∀ run ∈ other.runs.rows,
        db.eventsOf row.id ≠ [] → other.eventsOf run.id ≠ [] →
        row.lastEventHash = run.lastEventHash →
        row.tenantId = run.tenantId ∧ row.id = run.id ∧
          (db.eventsOf row.id).map (fun event => (event.kind, event.payload)) =
            (other.eventsOf run.id).map fun event =>
              (event.kind, event.payload)) := by
  have chained {allowed : Database → Call → Prop} {db : Database}
      (reached : Reachable sha256 allowed db) :
      db.EventHeads ∧ db.KindsShort ∧ Database.ChainHeads sha256 db :=
    reached.invariant
      (fun db => db.EventHeads ∧ db.KindsShort ∧
        Database.ChainHeads sha256 db)
      ⟨Database.eventHeads_migrated,
        by simp [Database.KindsShort, Database.migrated, Table.empty],
        by simp [Database.ChainHeads, Database.migrated, Table.empty]⟩
      fun _ _ _ _ holds _ moved => ⟨moved.eventHeads holds.1,
        moved.kindsShort holds.2.1, moved.chainHeads holds.1 holds.2.2⟩
  obtain ⟨heads, short, intact⟩ := chained reached
  obtain ⟨otherHeads, otherShort, otherIntact⟩ := chained otherReached
  constructor
  · intro row member
    exact (intact row member).intact
  · intro injective row member run runMember nonempty runNonempty same
    apply RunRow.HeadOf.binding injective (intact row member)
      (otherIntact run runMember)
    · exact heads.fits short Set.subset_union_left row.id
    · exact otherHeads.fits otherShort Set.subset_union_right run.id
    · exact nonempty
    · exact runNonempty
    · exact same

/-- A digest function tells the hashed events apart when it tells the events of
the two states apart one by one. -/
theorem injOn_hashedBytes {sha256 : Sha256} {db other : Database}
    (apart : ∀ first ∈ db.runEvents.rows ++ other.runEvents.rows,
      ∀ second ∈ db.runEvents.rows ++ other.runEvents.rows,
        sha256 first.preimage = sha256 second.preimage →
        first.preimage = second.preimage) :
    Set.InjOn sha256 (db.hashedBytes ∪ other.hashedBytes) := by
  have listed : ∀ bytes ∈ db.hashedBytes ∪ other.hashedBytes,
      ∃ event ∈ db.runEvents.rows ++ other.runEvents.rows,
        event.preimage = bytes := by
    rintro bytes (⟨event, member, same⟩ | ⟨event, member, same⟩)
    · exact ⟨event, List.mem_append_left _ member, same⟩
    · exact ⟨event, List.mem_append_right _ member, same⟩
  intro first firstFed second secondFed same
  obtain ⟨event, member, rfl⟩ := listed first firstFed
  obtain ⟨later, laterMember, rfl⟩ := listed second secondFed
  exact apart event member later laterMember same

namespace Sample

/-- The database after the commands, with digests that tell events apart. -/
def digested (commands : List Command) : Database :=
  (performAll (Database.perform checksum) Database.migrated
    (calls commands)).2

/-- The leased run with its lease cut short by a renewal. -/
def renewedLease : List Command :=
  lease ++ [.heartbeatRun 20 "worker" [1] 1 1]

end Sample

theorem eventChains_intact_and_binding_renewal :
    ∃ row ∈ (Sample.digested Sample.lease).runs.rows,
      ∃ run ∈ (Sample.digested Sample.renewedLease).runs.rows,
        row.leaseExpiresAt ≠ run.leaseExpiresAt ∧
        row.tenantId = run.tenantId ∧ row.id = run.id ∧
          ((Sample.digested Sample.lease).eventsOf row.id).map
              (fun event => (event.kind, event.payload)) =
            ((Sample.digested Sample.renewedLease).eventsOf run.id).map
              fun event => (event.kind, event.payload) := by
  have leased : Reachable Sample.checksum (fun _ _ => True)
      (Sample.digested Sample.lease) :=
    ⟨_, Execution.of_performAll (AllPermitted.of_forall fun _ _ _ => trivial)⟩
  have renewed : Reachable Sample.checksum (fun _ _ => True)
      (Sample.digested Sample.renewedLease) :=
    ⟨_, Execution.of_performAll (AllPermitted.of_forall fun _ _ _ => trivial)⟩
  have injective : Set.InjOn Sample.checksum
      ((Sample.digested Sample.lease).hashedBytes ∪
        (Sample.digested Sample.renewedLease).hashedBytes) :=
    injOn_hashedBytes (by decide +kernel)
  have pair : ∃ row ∈ (Sample.digested Sample.lease).runs.rows,
      ∃ run ∈ (Sample.digested Sample.renewedLease).runs.rows,
        row.leaseExpiresAt ≠ run.leaseExpiresAt ∧
        (Sample.digested Sample.lease).eventsOf row.id ≠ [] ∧
        (Sample.digested Sample.renewedLease).eventsOf run.id ≠ [] ∧
        row.lastEventHash = run.lastEventHash := by
    decide +kernel
  obtain ⟨row, member, run, runMember, expiries, nonempty, runNonempty,
    same⟩ := pair
  exact ⟨row, member, run, runMember, expiries,
    (eventChains_intact_and_binding leased renewed).2 injective row member run
      runMember nonempty runNonempty same⟩

end EffectLatch
