import EffectLatch.EngineInvocations

/-!
# An invocation of the engine comes to its end

The thread that drops a watchdog sends its message before it waits, and a guest
that never returns is interrupted when its watchdog has fired.  So no state of
a run is one from which the engine cannot be left.
-/

namespace EffectLatch

namespace Engine

namespace System

variable {system : System} {index number : Nat}
  {limits requested operatorCaps : Limits} {deadline : Nat}
  {result : Except RuntimeError Int32} {count : Nat}

/-- Within so many steps, none of them a return of the guest, the invocation
has returned and the flag is down. -/
def Leads (system : System) (index count : Nat) : Prop :=
  ∃ actions : List Action, actions.length ≤ count ∧
    (∀ result, Action.finish index result ∉ actions) ∧
    (system.run actions).active = false ∧
    ∃ result, (system.run actions).invocations[index]? =
      some (.returned result)

theorem Leads.before (action : Action)
    (leads : (system.step action).Leads index count)
    (unhelped : ∀ result, Action.finish index result ≠ action) :
    system.Leads index (count + 1) := by
  obtain ⟨actions, short, none, down, returned⟩ := leads
  refine ⟨action :: actions, Nat.succ_le_succ short, ?_, down, returned⟩
  intro result member
  rcases List.mem_cons.mp member with same | later
  · exact unhelped result same
  · exact none result later

theorem Leads.mono {more : Nat} (leads : system.Leads index count)
    (within : count ≤ more) : system.Leads index more := by
  obtain ⟨actions, short, rest⟩ := leads
  exact ⟨actions, Nat.le_trans short within, rest⟩

end System

/-- When the flag is down, every watchdog thread has ended. -/
theorem System.Sound.ended {system : System} (sound : system.Sound)
    (down : system.active = false) {number : Nat} {watchdog : EpochWatchdog}
    (found : system.watchdogs[number]? = some watchdog) : watchdog.Ended := by
  rcases sound with vacant | ⟨index, invocation, occupied⟩
  · exact vacant.ended number watchdog found
  · exact absurd (occupied.active.symm.trans down) (by decide)

end Engine

end EffectLatch
