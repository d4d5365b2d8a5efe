import RadioWindows.Proofs.Bookkeeping
import RadioWindows.Proofs.Scripted.Recording

/-! The flags of windows on a scripted host. The record tells of every index setting whether its
wait found the index settled; a window is flagged as long as the latest setting of its index did
not, unless a buffer has been allocated into it since. -/

namespace RadioWindows

variable {α β : Type}

namespace Call

def LooksAt (w : Window) : Call → Prop
  | read16 register _ => register = w.registers.status
  | _ => False

end Call

/-- The calls of an index setting: the index is written and waited for, and whatever follows does
not look at it. `settled` tells whether a round of the wait found the index settled, or the wait was
given up after its timeout. -/
def Seeks (timing : Timing) (w : Window) (index : UInt16) (settled : Bool) (calls : List Call) :
    Prop :=
  ∃ start rounds rest,
    calls = .write16 w.registers.index index :: .now start :: (rounds ++ rest) ∧
    (Driver.indexSettled w).Waits timing.indexTimeout timing.pollInterval start rounds settled ∧
    ∀ call ∈ rest, ¬call.LooksAt w

namespace Seeks

variable {timing : Timing} {w : Window} {index : UInt16} {settled : Bool} {calls more : List Call}

theorem append (seeks : Seeks timing w index settled calls)
    (elsewhere : ∀ call ∈ more, ¬call.LooksAt w) :
    Seeks timing w index settled (calls ++ more) := by
  obtain ⟨start, rounds, rest, rfl, waits, after⟩ := seeks
  exact ⟨start, rounds, rest ++ more, by simp, waits, List.forall_mem_append.mpr ⟨after, elsewhere⟩⟩

end Seeks

namespace Driver

variable {rounds : Nat} {session : Session ScriptedHost} {w : Window} {index : UInt16}

end Driver

namespace Performed

/-- What the operation added to the record. -/
def calls (one : Performed ScriptedHost) : List Call :=
  one.taken.session.host.calls.toList.drop one.before.host.calls.size

/-- The operation set an index of the window, and the wait for it was given up after its timeout. -/
def TimesOut (w : Window) (one : Performed ScriptedHost) : Prop :=
  ∃ index, one.operation.setting? = some (w, index) ∧
    Seeks one.before.status.timing w index false one.calls

variable {one : Performed ScriptedHost} {w : Window}

theorem TimesOut.sets (timesOut : one.TimesOut w) : one.sets w = true := by
  obtain ⟨index, set, _⟩ := timesOut
  exact sets_iff.mpr ⟨index, set⟩

theorem calls_eq {calls : List Call} (adds : one.before.host.Adds one.taken.session.host calls) :
    one.calls = calls := by
  rw [Performed.calls, adds.calls_eq]
  exact List.drop_left' (Array.length_toList ..)

end Performed

namespace ScriptedHost

open Session

variable {rounds : Nat} {session : Session ScriptedHost} {steps : List (Step Setting)}
  {taken : List (Taken ScriptedHost)}

end ScriptedHost

end RadioWindows
