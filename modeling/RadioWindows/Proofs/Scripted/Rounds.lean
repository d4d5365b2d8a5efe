import RadioWindows.Proofs.Scripted.Recording

/-! The rounds of a wait for a completion bit. They read the interrupt registers and pass the time,
and the wait ends early exactly when a round has seen the bit. -/

namespace RadioWindows

namespace Call

def ReadsInterrupt : Call → Prop
  | read8 register _ => register = Register.interrupt
  | read16 register _ => register = Register.interrupt2
  | _ => False

def WritesInterrupt : Call → Prop
  | write8 register _ => register = Register.interrupt
  | write16 register _ => register = Register.interrupt2
  | _ => False

end Call

/-- The interrupt registers are read only while the interrupt is on. -/
def Listening : Bool → List Call → Prop
  | _, [] => True
  | enabled, call :: rest =>
    (call.ReadsInterrupt → enabled = true) ∧ Listening (call.interruptAfter enabled) rest

section Listening

variable {enabled : Bool}

@[simp] theorem listening_append (first rest : List Call) :
    Listening enabled (first ++ rest) ↔
      Listening enabled first ∧ Listening (interruptAfter enabled first) rest := by
  induction first generalizing enabled with
  | nil => simp [Listening]
  | cons call first ih =>
    simp only [List.cons_append, Listening, ih, interruptAfter_cons, and_assoc]

theorem listening_of_forall {calls : List Call} (quiet : ∀ call ∈ calls, ¬call.ReadsInterrupt) :
    Listening enabled calls := by
  induction calls generalizing enabled with
  | nil => trivial
  | cons call rest ih =>
    have now : ¬call.ReadsInterrupt := quiet call List.mem_cons_self
    exact ⟨fun reads => absurd reads now,
      ih fun later member => quiet later (List.mem_cons_of_mem call member)⟩

theorem interruptAfter_of_forall {calls : List Call}
    (keeps : ∀ call ∈ calls, ∀ enabled, call.interruptAfter enabled = enabled) :
    interruptAfter enabled calls = enabled := by
  induction calls with
  | nil => rfl
  | cons call rest ih =>
    rw [interruptAfter_cons, keeps call List.mem_cons_self]
    exact ih fun later member => keeps later (List.mem_cons_of_mem call member)

end Listening

namespace Completion

/-- Some round saw the window's own bit. A bit of the second register counts only in a round in
which the first register has announced it. -/
def Sees : Completion → List Call → Prop
  | first mask, calls => ∃ bits, .read8 Register.interrupt bits ∈ calls ∧ bits &&& mask ≠ 0
  | second mask, calls => ∃ bits bits2,
      [.read8 Register.interrupt bits, .read16 Register.interrupt2 bits2] <:+: calls ∧
        bits &&& Register.secondPending ≠ 0 ∧ bits2 &&& mask ≠ 0

/-- The rounds of a wait from the time `start` on, and whether the last of them saw the bit. -/
abbrev Waits (timing : Timing) (completion : Completion) (start : UInt64) :
    List Call → Bool → Prop :=
  completion.observed.Waits timing.moveTimeout timing.pollInterval start

end Completion

def Call.IsPolling : Call → Prop
  | read8 register _ => register = Register.interrupt
  | read16 register _ => register = Register.interrupt2
  | now _ | delay _ => True
  | _ => False

namespace Call.IsPolling

variable {call : Call}

theorem keeps (polling : call.IsPolling) (enabled : Bool) :
    call.interruptAfter enabled = enabled := by
  cases call with
  | read8 _ _ | read16 _ _ | now _ | delay _ => rfl
  | _ => exact polling.elim

theorem not_writesInterrupt (polling : call.IsPolling) : ¬call.WritesInterrupt := by
  cases call with
  | read8 _ _ | read16 _ _ | now _ | delay _ => exact id
  | _ => exact polling.elim

end Call.IsPolling

theorem listening_of_polling {calls : List Call} (polling : ∀ call ∈ calls, call.IsPolling) :
    Listening true calls := by
  induction calls with
  | nil => trivial
  | cons call rest ih =>
    have rounds := ih fun later member => polling later (List.mem_cons_of_mem call member)
    refine ⟨fun _ => rfl, ?_⟩
    rw [(polling call List.mem_cons_self).keeps]
    exact rounds

namespace Completion

variable {mask : UInt8} {mask2 : UInt16} {calls rest : List Call} {held : Bool}

theorem looks_first (looks : (first mask).observed.Looks calls held) :
    ∃ bits, calls = [.read8 Register.interrupt bits] ∧ held = (bits &&& mask != 0) := by
  obtain ⟨bits, after, rfl, rfl, rfl⟩ := looks
  exact ⟨bits, rfl, rfl⟩

theorem looks_second (looks : (second mask2).observed.Looks calls held) :
    (∃ bits, bits &&& Register.secondPending = 0 ∧
      calls = [.read8 Register.interrupt bits] ∧ held = false) ∨
    ∃ bits bits2, bits &&& Register.secondPending ≠ 0 ∧
      calls = [.read8 Register.interrupt bits, .read16 Register.interrupt2 bits2] ∧
      held = (bits2 &&& mask2 != 0) := by
  obtain ⟨bits, after, rfl, looks⟩ := looks
  dsimp only at looks
  by_cases pending : bits &&& Register.secondPending = 0
  · rw [if_neg (by simp [pending])] at looks
    obtain ⟨rfl, rfl⟩ := looks
    exact .inl ⟨bits, pending, rfl, rfl⟩
  · rw [if_pos (by simp [pending])] at looks
    obtain ⟨bits2, _, rfl, rfl, rfl⟩ := looks
    exact .inr ⟨bits, bits2, pending, rfl, rfl⟩

theorem looks_polling {completion : Completion} (looks : completion.observed.Looks calls held) :
    ∀ call ∈ calls, call.IsPolling := by
  cases completion with
  | first mask =>
    obtain ⟨bits, rfl, _⟩ := looks_first looks
    simp [Call.IsPolling]
  | second mask =>
    rcases looks_second looks with ⟨bits, _, rfl, _⟩ | ⟨bits, bits2, _, rfl, _⟩ <;>
      simp [Call.IsPolling]

theorem sees_iff_of_looks {completion : Completion}
    (looks : completion.observed.Looks calls held) : completion.Sees calls ↔ held = true := by
  cases completion with
  | first mask =>
    obtain ⟨bits, rfl, rfl⟩ := looks_first looks
    simp [Sees]
  | second mask =>
    rcases looks_second looks with ⟨bits, _, rfl, rfl⟩ | ⟨bits, bits2, pending, rfl, rfl⟩
    · simp [Sees, List.infix_cons_iff]
    · simp [Sees, List.infix_cons_iff, and_assoc, pending]

theorem pair_infix_append_now {bits : UInt8} {bits2 : UInt16} {time : UInt64} :
    [.read8 Register.interrupt bits, .read16 Register.interrupt2 bits2] <:+:
        calls ++ .now time :: rest ↔
      [.read8 Register.interrupt bits, .read16 Register.interrupt2 bits2] <:+: calls ∨
        [.read8 Register.interrupt bits, .read16 Register.interrupt2 bits2] <:+: rest := by
  induction calls with
  | nil => simp [List.infix_cons_iff]
  | cons call calls ih =>
    rw [List.cons_append, List.infix_cons_iff, ih, List.infix_cons_iff, or_assoc]
    refine or_congr_left ?_
    cases calls <;> simp [List.cons_prefix_cons]

theorem sees_append_now {completion : Completion} {time : UInt64} :
    completion.Sees (calls ++ .now time :: rest) ↔
      completion.Sees calls ∨ completion.Sees rest := by
  cases completion with
  | first mask => simp [Sees, or_and_right, exists_or]
  | second mask => simp only [Sees, pair_infix_append_now, or_and_right, exists_or]

theorem not_sees_nil {completion : Completion} : ¬completion.Sees [] := by
  cases completion <;> simp [Sees]

theorem sees_delay {completion : Completion} {interval : UInt32} :
    completion.Sees (.delay interval :: rest) ↔ completion.Sees rest := by
  cases completion <;> simp [Sees, List.infix_cons_iff]

theorem sees_now {completion : Completion} {time : UInt64} :
    completion.Sees (.now time :: rest) ↔ completion.Sees rest := by
  cases completion <;> simp [Sees, List.infix_cons_iff]

theorem sees_enable {completion : Completion} {wasEnabled : Bool} :
    completion.Sees (.enable wasEnabled :: rest) ↔ completion.Sees rest := by
  cases completion <;> simp [Sees, List.infix_cons_iff]

theorem sees_iff_of_waits {timing : Timing} {completion : Completion} {start : UInt64}
    (waits : completion.Waits timing start calls held) :
    completion.Sees calls ↔ held = true := by
  induction waits with
  | held looked => exact sees_iff_of_looks looked
  | late looked _ =>
    rw [sees_append_now, sees_iff_of_looks looked]
    simp [not_sees_nil]
  | again looked _ _ ih =>
    rw [sees_append_now, sees_delay, sees_iff_of_looks looked, ih]
    simp

theorem waits_polling {timing : Timing} {completion : Completion} {start : UInt64}
    (waits : completion.Waits timing start calls held) : ∀ call ∈ calls, call.IsPolling :=
  waits.forall_mem (fun _ _ looks => looks_polling looks) (fun _ => trivial) fun _ => trivial

end Completion

end RadioWindows
