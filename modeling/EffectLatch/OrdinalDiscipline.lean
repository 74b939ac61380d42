import EffectLatch.CountingOrders
import EffectLatch.ViolationFinality

/-!
# Ordinals are asked in order

A run identifies an effect by its ordinal.  The dispatcher first sees the
ordinals in counting order, each only after the replies to all before it stand
in the guest's memory, and sees nothing after a dispatch without a reply.
-/

namespace EffectLatch

namespace Abi

variable {readers : Readers} {dispatcher : Dispatcher} {state : State}
  {history : List Event} {event : Event} {effects : UInt64}

/-- The request a call handed to the dispatcher. -/
def Event.asked (event : Event) : Option EffectRequest :=
  (event.after.dispatched.drop event.before.dispatched.length).head?.map
    Prod.fst

/-- The request whose reply a call handed to the guest. -/
def Event.delivered (event : Event) : Option EffectRequest :=
  match event.outcome.result with
  | .ok count => if 0 ≤ count then event.asked else none
  | .error _ => none

def ordinals (requests : List EffectRequest) : List Nat :=
  requests.map fun request => request.ordinal.toNat

def askedOrdinals (history : List Event) : List Nat :=
  ordinals (history.filterMap Event.asked)

def deliveredOrdinals (history : List Event) : List Nat :=
  ordinals (history.filterMap Event.delivered)

/-- A valid reply to the request stands in the guest's memory. -/
structure ReplyWritten (readers : Readers) (event : Event)
    (request : EffectRequest) : Prop where
  stored : ∃ reqPtr reqLen respPtr respCap before after response,
    event.call = ⟨some before, .effectCall reqPtr reqLen respPtr respCap⟩ ∧
      event.after.dispatched =
        event.before.dispatched ++ [(request, .ok response)] ∧
      validReply readers request response = true ∧
      event.outcome.memory = some after ∧
      Written before after respPtr.toUInt32.toNat response

/-- What a call does about ordinals. -/
inductive Ordinals (readers : Readers) (event : Event) : Prop
  | quiet (asked : event.asked = none) (delivered : event.delivered = none)
      (same : event.after.nextOrdinal = event.before.nextOrdinal)
      (kept : event.after.sticky = none → event.before.sticky = none)
  | lost (request : EffectRequest) (asked : event.asked = some request)
      (delivered : event.delivered = none)
      (same : event.after.nextOrdinal = event.before.nextOrdinal)
      (clear : event.before.sticky = none)
      (stuck : event.after.sticky.isSome = true)
      (near : request.ordinal.toNat ≤ event.before.nextOrdinal.toNat)
      (bounded : request.ordinal.toNat <
        min event.before.maxEffects.toNat maxEffects.toNat)
  | replied (request : EffectRequest) (asked : event.asked = some request)
      (delivered : event.delivered = some request)
      (next : event.after.nextOrdinal =
        if request.ordinal = event.before.nextOrdinal then
          event.before.nextOrdinal + 1
        else event.before.nextOrdinal)
      (clear : event.before.sticky = none)
      (near : request.ordinal.toNat ≤ event.before.nextOrdinal.toNat)
      (bounded : request.ordinal.toNat <
        min event.before.maxEffects.toNat maxEffects.toNat)
      (written : ReplyWritten readers event request)

theorem asked_eq_none
    (same : event.after.dispatched = event.before.dispatched) :
    event.asked = none := by
  simp [Event.asked, same]

theorem asked_eq_some {request : EffectRequest} {answer : DispatchResult}
    (grown : event.after.dispatched =
      event.before.dispatched ++ [(request, answer)]) :
    event.asked = some request := by
  simp [Event.asked, grown]

theorem delivered_eq_none (unasked : event.asked = none) :
    event.delivered = none := by
  unfold Event.delivered
  split
  · rw [unasked, ite_self]
  · rfl

theorem delivered_eq_asked {count : Int32}
    (answered : event.outcome.result = .ok count) (signed : 0 ≤ count) :
    event.delivered = event.asked := by
  unfold Event.delivered
  rw [answered]
  exact if_pos signed

/-- A request that passed the checks is in order. -/
theorem Requested.ordinal {made : GuestCall} {request : EffectRequest}
    {respPtr respCap : Int32}
    (requested : Requested readers state made request respPtr respCap) :
    request.ordinal.toNat ≤ state.nextOrdinal.toNat ∧
      request.ordinal.toNat < min state.maxEffects.toNat maxEffects.toNat := by
  obtain ⟨reqPtr, reqLen, _, accepted⟩ := requested
  simp only [effectRequest, Except.bind_eq_ok_iff, Except.require_eq_ok_iff,
    Except.mapError_eq_ok_iff, Except.pure_eq_ok_iff] at accepted
  obtain ⟨_, _, _, _, _, _, _, parsed, _, ordered, rfl⟩ := accepted
  have valid := (EffectRequest.parse_eq_ok_iff.mp parsed).2.2
  simp only [EffectRequest.validate, Except.bind_eq_ok_iff,
    Except.require_eq_ok_iff] at valid
  obtain ⟨_, low, _⟩ := valid
  rw [not_or, UInt64.not_lt, UInt64.not_le] at ordered
  exact ⟨UInt64.le_iff_toNat_le.mp ordered.1,
    lt_min (UInt64.lt_iff_toNat_lt.mp ordered.2)
      (UInt64.lt_iff_toNat_lt.mp low)⟩

theorem memoryWrite_eq_some {memory written : Memory} {start : Nat}
    {content : List UInt8}
    (stored : memoryWrite memory start content = some written) :
    ∃ before after, memory = some before ∧ written = some after ∧
      Written before after start content := by
  cases memory with
  | none => simp [memoryWrite] at stored
  | some before =>
      have fits : start + content.length ≤ before.length := by
        by_contra outside
        simp [memoryWrite, outside] at stored
      obtain ⟨after, done, changed⟩ := written_of_memoryWrite fits
      exact ⟨before, after, rfl, Option.some.inj (stored.symm.trans done),
        changed⟩

theorem HostStep.ordinals
    (stepped : HostStep readers dispatcher event.before event.call
      event.outcome event.after) : Ordinals readers event := by
  obtain ⟨before, ⟨memory, call⟩, outcome, after⟩ := event
  dsimp only at stepped
  cases stepped with
  | stuck sticky =>
      exact .quiet (asked_eq_none rfl) (delivered_eq_none (asked_eq_none rfl))
        rfl id
  | refused sticky =>
      exact .quiet (asked_eq_none rfl) (delivered_eq_none (asked_eq_none rfl))
        rfl fun _ => sticky
  | informed clear _ | wrote clear _ _ _ | logged clear _ _ _ _ _ =>
      exact .quiet (asked_eq_none rfl) (delivered_eq_none (asked_eq_none rfl))
        rfl fun _ => clear.sticky
  | @lost request respPtr respCap code result clear requested ended =>
      have ordinal := requested.ordinal
      refine .lost request (asked_eq_some rfl) ?_ rfl clear.sticky rfl
        ordinal.1 ordinal.2
      rcases ended with rfl | rfl
      · rfl
      · dsimp only [Event.delivered]
        rw [if_neg (Int32.not_le.mpr (AbiCode.toInt32_neg code))]
  | @delivered request respPtr respCap response written clear requested
      answered short valid stored =>
      have ordinal := requested.ordinal
      obtain ⟨⟨reqPtr, reqLen, called, _⟩⟩ := requested
      obtain ⟨bytes, after, rfl, rfl, changed⟩ := memoryWrite_eq_some stored
      rw [State.replied_eq]
      have signed : 0 ≤ Int32.ofNat response.length := by
        unfold payloadBytes at short
        rw [Int32.le_iff_toInt_le, Int32.toInt_ofNat_of_lt (by omega)]
        exact Int.natCast_nonneg _
      refine .replied request (asked_eq_some rfl)
        ((delivered_eq_asked rfl signed).trans (asked_eq_some rfl)) rfl
        clear.sticky ordinal.1 ordinal.2 ⟨reqPtr, reqLen, respPtr, respCap,
          bytes, after, response, ?_, rfl, valid, rfl, changed⟩
      dsimp only at called ⊢
      rw [called]

/-- The ordinals so far: those asked and those replied to are in counting
order, and the next one is known. -/
structure Ordered (readers : Readers) (history : List Event) (state : State) :
    Prop where
  small : state.nextOrdinal.toNat ≤ maxEffects.toNat
  delivered : CountsTo (deliveredOrdinals history) state.nextOrdinal.toNat
  asked : ∃ bound, CountsTo (askedOrdinals history) bound ∧
    (state.sticky = none → bound = state.nextOrdinal.toNat)
  written : ∀ event ∈ history, ∀ request, event.delivered = some request →
    ReplyWritten readers event request

theorem askedOrdinals_concat (history : List Event) (event : Event) :
    askedOrdinals (history ++ [event]) = askedOrdinals history ++
      ordinals event.asked.toList := by
  rw [askedOrdinals, List.filterMap_append, ordinals, List.map_append]
  cases asked : event.asked <;> simp [asked, askedOrdinals, ordinals]

theorem deliveredOrdinals_concat (history : List Event) (event : Event) :
    deliveredOrdinals (history ++ [event]) = deliveredOrdinals history ++
      ordinals event.delivered.toList := by
  rw [deliveredOrdinals, List.filterMap_append, ordinals, List.map_append]
  cases delivered : event.delivered <;>
    simp [delivered, deliveredOrdinals, ordinals]

theorem ordered_initial (readers : Readers) (input : List UInt8)
    (effects : UInt64) (caps : AbiCaps) :
    Ordered readers [] (initial input effects caps) := by
  refine ⟨Nat.zero_le _, .nil, ⟨0, .nil, fun _ => rfl⟩, ?_⟩
  exact List.forall_mem_nil _

theorem Ordered.written_concat (ordered : Ordered readers history event.before)
    (written : ∀ request, event.delivered = some request →
      ReplyWritten readers event request) :
    ∀ other ∈ history ++ [event], ∀ request, other.delivered = some request →
      ReplyWritten readers other request := by
  rw [List.forall_mem_append, List.forall_mem_singleton]
  exact ⟨ordered.written, written⟩

/-- Few ordinals: the next one does not overflow. -/
theorem toNat_next {ordinal next : UInt64}
    (low : ordinal.toNat < maxEffects.toNat) :
    (if ordinal = next then next + 1 else next).toNat =
      if ordinal.toNat = next.toNat then next.toNat + 1 else next.toNat := by
  have eight : maxEffects.toNat = 8 := rfl
  by_cases same : ordinal = next
  · subst same
    rw [if_pos rfl, if_pos rfl, UInt64.toNat_add]
    apply Nat.mod_eq_of_lt
    change ordinal.toNat + 1 < 2 ^ 64
    omega
  · rw [if_neg same, if_neg (mt UInt64.toNat_inj.mp same)]

/-- One more call keeps the order. -/
theorem Ordered.append (ordered : Ordered readers history event.before)
    (step : Ordinals readers event) :
    Ordered readers (history ++ [event]) event.after := by
  obtain ⟨bound, counts, current⟩ := ordered.asked
  cases step with
  | quiet asked delivered same kept =>
      constructor
      · rw [same]
        exact ordered.small
      · rw [deliveredOrdinals_concat, delivered, same]
        simpa [ordinals] using ordered.delivered
      · refine ⟨bound, ?_, fun clear => same ▸ current (kept clear)⟩
        rw [askedOrdinals_concat, asked]
        simpa [ordinals] using counts
      · exact ordered.written_concat (by simp [delivered])
  | lost request asked delivered same clear stuck near bounded =>
      rw [current clear] at counts
      constructor
      · rw [same]
        exact ordered.small
      · rw [deliveredOrdinals_concat, delivered, same]
        simpa [ordinals] using ordered.delivered
      · rw [askedOrdinals_concat, asked]
        exact ⟨_, counts.append near, fun none => by simp [none] at stuck⟩
      · exact ordered.written_concat (by simp [delivered])
  | replied request asked delivered next clear near bounded written =>
      rw [current clear] at counts
      have low := (lt_min_iff.mp bounded).2
      have grown : event.after.nextOrdinal.toNat =
          if request.ordinal.toNat = event.before.nextOrdinal.toNat then
            event.before.nextOrdinal.toNat + 1
          else event.before.nextOrdinal.toNat := by
        rw [next]
        exact toNat_next low
      have small := ordered.small
      constructor
      · rw [grown]
        split <;> omega
      · rw [deliveredOrdinals_concat, delivered, grown]
        exact ordered.delivered.append near
      · rw [askedOrdinals_concat, asked, grown]
        exact ⟨_, counts.append near, fun _ => rfl⟩
      · refine ordered.written_concat fun other same => ?_
        obtain rfl := Option.some.inj (delivered.symm.trans same)
        exact written

theorem HostStep.maxEffects
    (stepped : HostStep readers dispatcher event.before event.call
      event.outcome event.after) :
    event.after.maxEffects = event.before.maxEffects := by
  obtain ⟨before, made, outcome, after⟩ := event
  dsimp only at stepped ⊢
  cases stepped with
  | stuck _ | refused _ | informed _ _ | wrote _ _ _ _ | logged _ _ _ _ _ _
  | lost _ _ _ => rfl
  | delivered _ _ _ _ _ _ => rw [State.replied_eq]; rfl

theorem interact_ordered (readers : Readers) (dispatcher : Dispatcher)
    (input : List UInt8) (effects : UInt64) (caps : AbiCaps)
    (calls : List GuestCall) {history : List Event} {final : State}
    (ran : interact readers dispatcher (initial input effects caps) calls =
      (history, final)) :
    Ordered readers history final ∧ final.maxEffects = effects := by
  have together := interact_induction readers dispatcher
    (fun history state => Ordered readers history state ∧
      state.maxEffects = effects)
    (fun holds stepped =>
      ⟨holds.1.append stepped.ordinals, stepped.maxEffects.trans holds.2⟩)
    calls ⟨ordered_initial readers input effects caps, rfl⟩
  rw [ran] at together
  simpa using together

/-- The ordinals of an execution. -/
structure Disciplined (readers : Readers) (effects : UInt64)
    (events : List Event) : Prop where
  bounded : ∀ event ∈ events, ∀ request, event.asked = some request →
    request.ordinal.toNat < min effects.toNat maxEffects.toNat
  counting : ∃ bound, CountsTo (askedOrdinals events) bound
  replied : ∀ earlier event later request,
    events = earlier ++ event :: later → event.asked = some request →
    ∀ ordinal < request.ordinal.toNat, ∃ other ∈ earlier, ∃ previous,
      other.delivered = some previous ∧ previous.ordinal.toNat = ordinal ∧
        ReplyWritten readers other previous
  next : ∀ earlier event later, events = earlier ++ event :: later →
    event.before.nextOrdinal.toNat =
        (deliveredOrdinals earlier).eraseDups.length ∧
      event.after.nextOrdinal.toNat =
        (deliveredOrdinals (earlier ++ [event])).eraseDups.length
  lost : ∀ earlier event later, events = earlier ++ event :: later →
    event.asked.isSome = true → event.delivered = none →
    ∀ other ∈ later, other.asked = none

theorem mem_deliveredOrdinals {ordinal : Nat} :
    ordinal ∈ deliveredOrdinals history ↔ ∃ event ∈ history, ∃ request,
      event.delivered = some request ∧ request.ordinal.toNat = ordinal := by
  simp only [deliveredOrdinals, ordinals, List.mem_map, List.mem_filterMap]
  constructor
  · rintro ⟨request, ⟨event, member, delivered⟩, same⟩
    exact ⟨event, member, request, delivered, same⟩
  · rintro ⟨event, member, request, delivered, same⟩
    exact ⟨request, ⟨event, member, delivered⟩, same⟩

/-- At a call that asks, every ordinal before its own was replied to. -/
theorem Ordered.replied (ordered : Ordered readers history event.before)
    {request : EffectRequest}
    (near : request.ordinal.toNat ≤ event.before.nextOrdinal.toNat)
    {ordinal : Nat} (lower : ordinal < request.ordinal.toNat) :
    ∃ other ∈ history, ∃ previous, other.delivered = some previous ∧
      previous.ordinal.toNat = ordinal ∧
        ReplyWritten readers other previous := by
  have member := ordered.delivered.mem_iff.mpr (lower.trans_le near)
  obtain ⟨other, earlier, previous, delivered, same⟩ :=
    mem_deliveredOrdinals.mp member
  exact ⟨other, earlier, previous, delivered, same,
    ordered.written other earlier previous delivered⟩

theorem Ordinals.asked {request : EffectRequest}
    (step : Ordinals readers event) (asked : event.asked = some request) :
    request.ordinal.toNat ≤ event.before.nextOrdinal.toNat ∧
      request.ordinal.toNat <
        min event.before.maxEffects.toNat maxEffects.toNat := by
  cases step with
  | quiet unasked _ _ _ => simp [unasked] at asked
  | lost other same _ _ _ _ near bounded
  | replied other same _ _ _ near bounded _ =>
      obtain rfl := Option.some.inj (same.symm.trans asked)
      exact ⟨near, bounded⟩

/-- A dispatch without a reply leaves a code that sticks. -/
theorem Ordinals.lost_sticky (step : Ordinals readers event)
    (asked : event.asked.isSome = true) (undelivered : event.delivered = none) :
    ∃ code, event.after.sticky = some code := by
  cases step with
  | quiet unasked _ _ _ => simp [unasked] at asked
  | lost _ _ _ _ _ stuck _ _ => exact Option.isSome_iff_exists.mp stuck
  | replied _ _ delivered _ _ _ _ _ => simp [delivered] at undelivered

theorem interact_disciplined (readers : Readers) (dispatcher : Dispatcher)
    (input : List UInt8) (effects : UInt64) (caps : AbiCaps)
    (calls : List GuestCall) :
    Disciplined readers effects
      (interact readers dispatcher (initial input effects caps) calls).1 := by
  have standing {earlier later : List Event} {event : Event}
      (position : (interact readers dispatcher (initial input effects caps)
        calls).1 = earlier ++ event :: later) :
      Ordered readers earlier event.before ∧
        event.before.maxEffects = effects ∧ Ordinals readers event := by
    obtain ⟨first, ran⟩ := interact_before position
    obtain ⟨ordered, limit⟩ := interact_ordered readers dispatcher input
      effects caps first ran
    exact ⟨ordered, limit, (interact_split position).1.ordinals⟩
  constructor
  · intro event member request asked
    obtain ⟨earlier, later, position⟩ := List.append_of_mem member
    obtain ⟨_, limit, step⟩ := standing position
    exact limit ▸ (step.asked asked).2
  · obtain ⟨bound, counts, _⟩ :=
      (interact_ordered readers dispatcher input effects caps calls rfl).1.asked
    exact ⟨bound, counts⟩
  · intro earlier event later request position asked ordinal lower
    obtain ⟨ordered, _, step⟩ := standing position
    exact ordered.replied (step.asked asked).1 lower
  · intro earlier event later position
    obtain ⟨ordered, _, step⟩ := standing position
    exact ⟨ordered.delivered.length.symm,
      (ordered.append step).delivered.length.symm⟩
  · intro earlier event later position asked undelivered other member
    obtain ⟨_, _, step⟩ := standing position
    obtain ⟨code, stuck⟩ := step.lost_sticky asked undelivered
    obtain ⟨_, rest, continued⟩ := interact_split position
    obtain ⟨answered, _⟩ := interact_answered stuck rest
    rw [continued] at answered
    exact asked_eq_none (answered other member).dispatched

theorem disciplined_nil (readers : Readers) (effects : UInt64) :
    Disciplined readers effects [] := by
  have nowhere {earlier later : List Event} {event : Event} :
      [] ≠ earlier ++ event :: later := by
    simp
  exact ⟨List.forall_mem_nil _, ⟨0, .nil⟩,
    fun _ _ _ _ position => absurd position nowhere,
    fun _ _ _ position => absurd position nowhere,
    fun _ _ _ position => absurd position nowhere⟩

/-- In every execution the ordinals are disciplined. -/
theorem ordinals_disciplined (readers : Readers) (dispatcher : Dispatcher)
    (input : List UInt8) (effects : UInt64) (caps : AbiCaps) (guest : Guest) :
    Disciplined readers effects
      (executeAbi readers dispatcher input effects caps guest).1 := by
  unfold executeAbi
  split
  · exact disciplined_nil readers effects
  · split
    · exact disciplined_nil readers effects
    next accepted _ =>
      have disciplined := interact_disciplined readers dispatcher input effects
        accepted guest.calls
      dsimp only
      split <;> exact disciplined

end Abi

end EffectLatch
