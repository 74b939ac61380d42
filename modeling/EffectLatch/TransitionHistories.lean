import Mathlib.Data.List.Induction

/-!
# Histories of a deterministic labelled system

A system performs calls one at a time.  An execution records every call with
the state before it, its outcome and the state after it, so that a claim about
the past of a state is a claim about a list.
-/

universe u v w

/-- One performed call. -/
structure Performed (State : Type u) (Call : Type v) (Outcome : Type w) where
  before : State
  call : Call
  outcome : Outcome
  after : State

/-- The calls performed from `origin`, oldest first, and the state reached.
Every call is one that `allowed` permits in the state it is made in. -/
inductive Execution {State : Type u} {Call : Type v} {Outcome : Type w}
    (perform : State → Call → Outcome × State)
    (allowed : State → Call → Prop) (origin : State) :
    List (Performed State Call Outcome) → State → Prop
  | start : Execution perform allowed origin [] origin
  | next {history : List (Performed State Call Outcome)} {state : State}
      (call : Call) :
      Execution perform allowed origin history state →
      allowed state call →
      Execution perform allowed origin
        (history ++
          [⟨state, call, (perform state call).1, (perform state call).2⟩])
        (perform state call).2

/-- The entry of a log behind the last of its records: no later entry left a
record. -/
theorem List.exists_of_getLast?_filterMap {Entry : Type u} {Record : Type v}
    {record : Entry → Option Record} {entries : List Entry} {last : Record}
    (found : (entries.filterMap record).getLast? = some last) :
    ∃ before entry after, entries = before ++ entry :: after ∧
      record entry = some last ∧ ∀ other ∈ after, record other = none := by
  induction entries using List.reverseRecOn with
  | nil => simp at found
  | append_singleton front final ih =>
      cases kept : record final with
      | some value =>
          simp only [List.filterMap_append, List.filterMap_cons, kept,
            List.filterMap_nil, List.getLast?_append, List.getLast?_singleton,
            Option.some_or, Option.some.injEq] at found
          exact ⟨front, final, [], rfl, by rw [kept, found], by simp⟩
      | none =>
          simp only [List.filterMap_append, List.filterMap_cons, kept,
            List.filterMap_nil, List.append_nil] at found
          obtain ⟨before, entry, after, rfl, recorded, quiet⟩ := ih found
          refine ⟨before, entry, after ++ [final], by simp, recorded, ?_⟩
          intro other member
          rcases List.mem_append.mp member with earlier | later
          · exact quiet other earlier
          · rw [List.mem_singleton.mp later]
            exact kept

/-- Perform calls in order, keeping the record of each. -/
def performAll {State : Type u} {Call : Type v} {Outcome : Type w}
    (perform : State → Call → Outcome × State) :
    State → List Call → List (Performed State Call Outcome) × State
  | state, [] => ([], state)
  | state, call :: rest =>
      let done := perform state call
      let later := performAll perform done.2 rest
      (⟨state, call, done.1, done.2⟩ :: later.1, later.2)

/-- The record of one more call ends the history. -/
theorem performAll_append_singleton {State : Type u} {Call : Type v}
    {Outcome : Type w} (perform : State → Call → Outcome × State)
    (origin : State) (calls : List Call) (call : Call) :
    performAll perform origin (calls ++ [call]) =
      let reached := (performAll perform origin calls).2
      ((performAll perform origin calls).1 ++
          [⟨reached, call, (perform reached call).1, (perform reached call).2⟩],
        (perform reached call).2) := by
  induction calls generalizing origin with
  | nil => rfl
  | cons first rest ih =>
      rw [List.cons_append, performAll, ih]
      rfl

/-- What is recorded was asked for. -/
theorem call_mem_of_performAll {State : Type u} {Call : Type v}
    {Outcome : Type w} {perform : State → Call → Outcome × State}
    {performed : Performed State Call Outcome} {calls : List Call} :
    ∀ {origin : State}, performed ∈ (performAll perform origin calls).1 →
      performed.call ∈ calls := by
  induction calls with
  | nil => simp [performAll]
  | cons call rest ih =>
      intro origin member
      rcases List.mem_cons.mp member with rfl | later
      · exact List.mem_cons_self
      · exact List.mem_cons_of_mem _ (ih later)

/-- Every call is permitted in the state it would be made in. -/
def AllPermitted {State : Type u} {Call : Type v} {Outcome : Type w}
    (perform : State → Call → Outcome × State)
    (allowed : State → Call → Prop) : State → List Call → Prop
  | _, [] => True
  | state, call :: rest =>
      allowed state call ∧
        AllPermitted perform allowed (perform state call).2 rest

instance AllPermitted.decidable {State : Type u} {Call : Type v}
    {Outcome : Type w} {perform : State → Call → Outcome × State}
    {allowed : State → Call → Prop}
    [∀ state call, Decidable (allowed state call)] :
    ∀ state calls, Decidable (AllPermitted perform allowed state calls)
  | _, [] => isTrue trivial
  | state, call :: rest =>
      @instDecidableAnd _ _ inferInstance
        (AllPermitted.decidable (perform state call).2 rest)

theorem AllPermitted.of_forall {State : Type u} {Call : Type v}
    {Outcome : Type w} {perform : State → Call → Outcome × State}
    {allowed : State → Call → Prop} {origin : State} {calls : List Call}
    (permitted : ∀ state, ∀ call ∈ calls, allowed state call) :
    AllPermitted perform allowed origin calls := by
  induction calls generalizing origin with
  | nil => trivial
  | cons call rest ih =>
      exact ⟨permitted origin call List.mem_cons_self,
        ih fun state later member =>
          permitted state later (List.mem_cons_of_mem call member)⟩

namespace Execution

variable {State : Type u} {Call : Type v} {Outcome : Type w}
  {perform : State → Call → Outcome × State}
  {allowed : State → Call → Prop} {origin state : State}
  {history : List (Performed State Call Outcome)}

/-- What holds at the origin and is kept by every permitted call holds in every
state reached. -/
theorem invariant (Holds : State → Prop) (initially : Holds origin)
    (kept : ∀ state call, Holds state → allowed state call →
      Holds (perform state call).2)
    (execution : Execution perform allowed origin history state) :
    Holds state := by
  induction execution with
  | start => exact initially
  | next call _ permitted ih => exact kept _ call ih permitted

/-- The invariant rule for a property of the history and the state together. -/
theorem historyInvariant
    (Holds : List (Performed State Call Outcome) → State → Prop)
    (initially : Holds [] origin)
    (kept : ∀ history state call,
      Execution perform allowed origin history state →
      Holds history state → allowed state call →
      Holds (history ++
          [⟨state, call, (perform state call).1, (perform state call).2⟩])
        (perform state call).2)
    (execution : Execution perform allowed origin history state) :
    Holds history state := by
  induction execution with
  | start => exact initially
  | next call earlier permitted ih => exact kept _ _ call earlier ih permitted

/-- An execution continued from the state it reached is an execution. -/
theorem append {later : List (Performed State Call Outcome)} {last : State}
    (execution : Execution perform allowed origin history state)
    (continued : Execution perform allowed state later last) :
    Execution perform allowed origin (history ++ later) last := by
  induction continued with
  | start => simpa using execution
  | next call _ permitted ih =>
      rw [← List.append_assoc]
      exact ih.next call permitted

/-- A recorded call splits the execution at the state it was made in. -/
theorem split {earlier later : List (Performed State Call Outcome)}
    {performed : Performed State Call Outcome}
    (execution : Execution perform allowed origin history state)
    (position : history = earlier ++ performed :: later) :
    Execution perform allowed origin earlier performed.before ∧
      allowed performed.before performed.call ∧
      perform performed.before performed.call =
        (performed.outcome, performed.after) ∧
      Execution perform allowed performed.after later state := by
  induction execution generalizing later with
  | start => simp at position
  | @next history state call before permitted ih =>
      rcases List.eq_nil_or_concat later with rfl | ⟨front, last, rfl⟩
      · have parts := List.append_inj' position rfl
        obtain ⟨rfl, single⟩ := parts
        have same := (List.cons.inj single).1
        subst same
        exact ⟨before, permitted, rfl, start⟩
      · have regroup : earlier ++ performed :: (front.concat last) =
            (earlier ++ performed :: front) ++ [last] := by
          simp
        rw [regroup] at position
        obtain ⟨rfl, single⟩ := List.append_inj' position rfl
        obtain ⟨reached, allowedThere, outcome, rest⟩ := ih rfl
        have same := (List.cons.inj single).1
        subst same
        refine ⟨reached, allowedThere, outcome, ?_⟩
        simpa [List.concat_eq_append] using rest.next call permitted

theorem split_mem {performed : Performed State Call Outcome}
    (execution : Execution perform allowed origin history state)
    (member : performed ∈ history) :
    ∃ earlier later, Execution perform allowed origin earlier performed.before ∧
      allowed performed.before performed.call ∧
      perform performed.before performed.call =
        (performed.outcome, performed.after) ∧
      Execution perform allowed performed.after later state := by
  obtain ⟨earlier, later, position⟩ := List.append_of_mem member
  exact ⟨earlier, later, execution.split position⟩

/-- A relation between a performed call and one made in a continuation of it
relates the calls of an execution pairwise. -/
theorem pairwise
    (Related : Performed State Call Outcome →
      Performed State Call Outcome → Prop)
    (related : ∀ earlier between upTo first second,
      Execution perform allowed origin earlier first.before →
      perform first.before first.call = (first.outcome, first.after) →
      Execution perform allowed first.after between second.before →
      Execution perform allowed origin upTo second.before →
      perform second.before second.call = (second.outcome, second.after) →
      Related first second)
    (execution : Execution perform allowed origin history state) :
    history.Pairwise Related := by
  induction execution with
  | start => exact List.Pairwise.nil
  | @next upTo state call before _ ih =>
      refine List.pairwise_append.mpr
        ⟨ih, List.pairwise_singleton Related _, ?_⟩
      intro first member second last
      obtain rfl := List.mem_singleton.mp last
      obtain ⟨earlier, between, reached, _, done, continued⟩ :=
        before.split_mem member
      exact related earlier between upTo first _ reached done continued before
        rfl

/-- A rank that no call raises while something waits, and that every call of a
kind lowers, pays for the calls of that kind. -/
theorem rank_pays (Waits : State → Prop) (rank : State → Nat)
    (turn : Performed State Call Outcome → Bool) (waits : Waits origin)
    (paid : ∀ performed ∈ history,
      perform performed.before performed.call =
        (performed.outcome, performed.after) →
      Waits performed.before → Waits performed.after ∧
        rank performed.after + (if turn performed then 1 else 0) ≤
          rank performed.before)
    (execution : Execution perform allowed origin history state) :
    Waits state ∧ rank state + history.countP turn ≤ rank origin := by
  induction execution with
  | start => exact ⟨waits, Nat.le_refl _⟩
  | @next history state call _ _ ih =>
      obtain ⟨waiting, spent⟩ := ih fun performed member =>
        paid performed (List.mem_append_left _ member)
      have last := paid _ (List.mem_append_right _ List.mem_cons_self) rfl
        waiting
      refine ⟨last.1, ?_⟩
      rw [List.countP_append, List.countP_singleton]
      have lowered := last.2
      dsimp only at lowered
      omega

/-- What one policy permits a wider one permits. -/
theorem weaken {wider : State → Call → Prop}
    (includes : ∀ state call, allowed state call → wider state call)
    (execution : Execution perform allowed origin history state) :
    Execution perform wider origin history state := by
  induction execution with
  | start => exact start
  | next call _ permitted ih => exact ih.next call (includes _ call permitted)

/-- An execution keeps to every policy that its recorded calls satisfy. -/
theorem narrow {narrower : State → Call → Prop}
    (each : ∀ performed ∈ history, narrower performed.before performed.call)
    (execution : Execution perform allowed origin history state) :
    Execution perform narrower origin history state := by
  induction execution with
  | start => exact start
  | next call _ _ ih =>
      have earlier := ih fun performed member =>
        each performed (List.mem_append_left _ member)
      exact earlier.next call
        (each _ (List.mem_append_right _ List.mem_cons_self))

/-- Performing permitted calls in order is an execution. -/
theorem of_performAll {calls : List Call}
    (permitted : AllPermitted perform allowed origin calls) :
    Execution perform allowed origin (performAll perform origin calls).1
      (performAll perform origin calls).2 := by
  induction calls generalizing origin with
  | nil => exact start
  | cons call rest ih =>
      exact (start.next call permitted.1).append (ih permitted.2)

end Execution

section Projection

variable {State : Type u} {Call : Type v} {Outcome : Type w}
  {Inner : Type*} {Answer : Type*}

/-- Every step of the outer system makes at most one call of the inner one and
changes the state by that call only. -/
structure Projects (perform : State → Call → Outcome × State)
    (inner : State → Inner → Answer × State) (call : Call → Option Inner) :
    Prop where
  quiet : ∀ state step, call step = none → (perform state step).2 = state
  calls : ∀ state step made, call step = some made →
    (perform state step).2 = (inner state made).2

/-- The record of the inner call a step made. -/
def Performed.project (inner : State → Inner → Answer × State)
    (call : Call → Option Inner) (performed : Performed State Call Outcome) :
    Option (Performed State Inner Answer) :=
  (call performed.call).map fun made =>
    ⟨performed.before, made, (inner performed.before made).1,
      (inner performed.before made).2⟩

/-- The inner calls of an execution are an execution of the inner system that
goes through the same states. -/
theorem Execution.project {perform : State → Call → Outcome × State}
    {inner : State → Inner → Answer × State} {call : Call → Option Inner}
    {allowed : State → Call → Prop} {origin state : State}
    {history : List (Performed State Call Outcome)}
    (projects : Projects perform inner call)
    (execution : Execution perform allowed origin history state) :
    Execution inner
      (fun state made => ∃ step, allowed state step ∧ call step = some made)
      origin (history.filterMap (Performed.project inner call)) state := by
  induction execution with
  | start => exact .start
  | @next history state step earlier permitted ih =>
      rw [List.filterMap_append]
      cases made : call step with
      | none =>
          simpa [Performed.project, made, projects.quiet state step made]
            using ih
      | some inside =>
          rw [projects.calls state step inside made]
          simpa [Performed.project, made] using
            ih.next inside ⟨step, permitted, made⟩

end Projection
