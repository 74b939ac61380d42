import EffectLatch.EventHeads
import EffectLatch.RunStateRefinement

/-!
# The event log of a run

What one call does to the log of every run: it leaves run and log alone, starts
a log with the admission, or appends the events of one rewrite.  The journal
and the hash chain are both read off this.
-/

namespace EffectLatch

/-- What an event says besides its place in the chain. -/
def RunEventRow.entry (event : RunEventRow) : String × List UInt8 :=
  (event.kind, event.payload)

namespace RunRow

theorem chainEvents_entries (sha256 : Sha256) (tenant run : Uuid) (seq : Int)
    (previous : Digest) (entries : List (String × List UInt8)) :
    (chainEvents sha256 tenant run seq previous entries).1.map
      RunEventRow.entry = entries := by
  induction entries generalizing seq previous with
  | nil => rfl
  | cons entry rest induction =>
      simp only [chainEvents, List.map_cons, induction]
      rfl

theorem emitted_entries (sha256 : Sha256) (row : RunRow)
    (entries : List (String × List UInt8)) :
    (row.emitted sha256 entries).map RunEventRow.entry = entries :=
  chainEvents_entries _ _ _ _ _ _

end RunRow

namespace Database

variable {sha256 : Sha256} {db next : Database} {clock : Clock}
  {command : Command} {response : Response} {row : RunRow}

/-- How a call got to a run and its log. -/
inductive LogMove (sha256 : Sha256) (db next : Database) (clock : Clock)
    (command : Command) (row : RunRow) : Prop
  | kept (member : row ∈ db.runs.rows)
      (events : next.eventsOf row.id = db.eventsOf row.id)
  | admitted {fresh : RunRow}
      (admission : RunAdmission sha256 db clock command fresh)
      (absent : ∀ old ∈ db.runs.rows, old.id ≠ row.id)
      (same : row = fresh.advance sha256
        [("run.admitted", statePayload .queued)])
      (events : next.eventsOf row.id =
        fresh.emitted sha256 [("run.admitted", statePayload .queued)])
  | rewritten {old new : RunRow} {entries : List (String × List UInt8)}
      (member : old ∈ db.runs.rows) (sameId : old.id = row.id)
      (step : db.RunStep clock command old new entries)
      (same : row = new.advance sha256 entries)
      (events : next.eventsOf row.id =
        db.eventsOf row.id ++ new.emitted sha256 entries)

/-- Events recorded for a run go to the end of its own log. -/
theorem eventsOf_append {entries : List (String × List UInt8)}
    (logged : next.runEvents.rows = db.runEvents.rows ++
      row.emitted sha256 entries) :
    next.eventsOf row.id =
      db.eventsOf row.id ++ row.emitted sha256 entries := by
  rw [eventsOf, logged, List.filter_append]
  have all : (row.emitted sha256 entries).filter
      (fun event => decide (event.runId = row.id)) =
        row.emitted sha256 entries := by
    rw [List.filter_eq_self]
    intro event member
    simp [(RunRow.mem_emitted member).2.1]
  rw [all]
  rfl

/-- A run that is not stored has no events. -/
theorem EventHeads.eventsOf_eq_nil {run : Uuid} (heads : db.EventHeads)
    (absent : ∀ old ∈ db.runs.rows, old.id ≠ run) : db.eventsOf run = [] := by
  rw [eventsOf, List.filter_eq_nil_iff]
  intro event member chosen
  obtain ⟨owner, stored, _, sameRun, _⟩ := heads.events event member
  exact absent owner stored (sameRun.trans (of_decide_eq_true chosen))

theorem Transition.logMove
    (moved : Transition sha256 db clock command response next)
    (heads : db.EventHeads) (member : row ∈ next.runs.rows) :
    LogMove sha256 db next clock command row := by
  rcases moved.runs_cases with ⟨runs, events⟩ |
    ⟨fresh, admission, inserted, logged⟩ | ⟨old, new, entries, step, recorded⟩
  · exact .kept (runs ▸ member) (by rw [eventsOf, events, eventsOf])
  · have absent : ∀ old ∈ db.runs.rows, old.id ≠ fresh.id := by
      intro old stored equal
      have apart := inserted.fresh old stored
      simp [RunRow.schema, RunRow.advance, equal] at apart
    rcases inserted.mem_iff.mp member with stored | rfl
    · exact .kept stored
        (eventsOf_eq_of_append (absent row stored).symm logged)
    · refine .admitted admission absent rfl ?_
      change next.eventsOf fresh.id = _
      rw [eventsOf_append logged, heads.eventsOf_eq_nil absent, List.nil_append]
  · have sameId : new.id = old.id := (RunRow.SameRequest.of_step step sha256).id
    rcases recorded.replaced.mem_iff.mp member with rfl | ⟨stored, apart⟩
    · refine .rewritten recorded.replaced.member sameId.symm step rfl ?_
      exact eventsOf_append recorded.logged
    · have different : new.id ≠ row.id := fun equal =>
        apart (run_eq_of_id stored recorded.replaced.member
          (equal.symm.trans sameId))
      exact .kept stored (eventsOf_eq_of_append different recorded.logged)

end Database

end EffectLatch
