import RadioWindows.Proofs.Chip.Waiting

/-! Completion signals on the chip. A look at an interrupt register latches what is on its way and
nothing more, so the first look settles what a wait sees: the window's own bit, whatever bits other
windows have left behind. -/

namespace RadioWindows.Chip

def shows (chip : Chip) (w : Window) : Bool :=
  match w.registers.completion with
  | .first mask => chip.interrupt &&& mask != 0
  | .second mask => chip.interrupt2 &&& mask != 0

def cleared (chip : Chip) (w : Window) : Chip :=
  match w.registers.completion with
  | .first mask => { chip with interrupt := chip.interrupt &&& ~~~mask }
  | .second mask => { chip with interrupt2 := chip.interrupt2 &&& ~~~mask }

def acknowledged (chip : Chip) (w : Window) : Chip :=
  match w.registers.completion with
  | .first mask => { chip with interrupt := chip.interrupt &&& ~~~mask }
  | .second _ => { chip with
      interrupt := chip.interrupt &&& ~~~Register.secondPending
      interrupt2 := chip.interrupt2 &&& ~~~Register.secondMoved }

theorem signal_eq (chip : Chip) (w : Window) :
    chip.signal w = { chip with
      interrupt := (chip.signal w).interrupt
      interrupt2 := (chip.signal w).interrupt2 } := by cases w <;> rfl

theorem foldl_signal_eq (windows : List Window) (chip : Chip) :
    windows.foldl signal chip = { chip with
      interrupt := (windows.foldl signal chip).interrupt
      interrupt2 := (windows.foldl signal chip).interrupt2 } := by
  induction windows generalizing chip with
  | nil => rfl
  | cons w rest ih =>
    rw [List.foldl_cons, ih, signal_eq chip w]

theorem latch_eq (chip : Chip) :
    chip.latch = { chip with
      interrupt := chip.latch.interrupt
      interrupt2 := chip.latch.interrupt2
      unlatched := chip.latch.unlatched } := by
  rw [latch]
  split
  · rw [foldl_signal_eq]
  · rfl

@[simp] theorem faults_latch (chip : Chip) : chip.latch.faults = chip.faults := by rw [latch_eq]

@[simp] theorem clock_latch (chip : Chip) : chip.latch.clock = chip.clock := by rw [latch_eq]

@[simp] theorem faults_acknowledged (chip : Chip) (w : Window) :
    (chip.acknowledged w).faults = chip.faults := by cases w <;> rfl

@[simp] theorem clock_acknowledged (chip : Chip) (w : Window) :
    (chip.acknowledged w).clock = chip.clock := by cases w <;> rfl

@[simp] theorem unlatched_acknowledged (chip : Chip) (w : Window) :
    (chip.acknowledged w).unlatched = chip.unlatched := by cases w <;> rfl

theorem latch_latch (chip : Chip) : chip.latch.latch = chip.latch := by
  by_cases enabled : chip.interruptEnabled = true
  · have still : chip.latch.interruptEnabled = true := by rw [latch_eq, enabled]
    have none : chip.latch.unlatched = [] := by rw [latch, if_pos enabled]
    rw [latch, if_pos still, none, List.foldl_nil, ← none]
  · have same : chip.latch = chip := by rw [latch, if_neg enabled]
    rw [same, same]

theorem latch_comm (change : Chip → Chip)
    (signals : ∀ chip w, (change chip).signal w = change (chip.signal w))
    (unseen : ∀ chip, (change chip).interruptEnabled = chip.interruptEnabled ∧
      (change chip).unlatched = chip.unlatched)
    (forgets : ∀ chip, { change chip with unlatched := [] } = change { chip with unlatched := [] })
    (chip : Chip) : (change chip).latch = change chip.latch := by
  have folds (windows : List Window) (chip : Chip) :
      windows.foldl signal (change chip) = change (windows.foldl signal chip) := by
    induction windows generalizing chip with
    | nil => rfl
    | cons w rest ih => rw [List.foldl_cons, List.foldl_cons, signals, ih]
  rw [latch, latch, (unseen chip).1, (unseen chip).2]
  split
  · rw [folds, forgets]
  · rfl

theorem latch_clock (chip : Chip) (clock : UInt64) :
    latch { chip with clock } = { chip.latch with clock } :=
  latch_comm (fun chip => { chip with clock }) (fun _ w => by cases w <;> rfl)
    (fun _ => ⟨rfl, rfl⟩) (fun _ => rfl) chip

theorem latch_moves (chip : Chip) (moves : List (Window × ControlWord)) :
    latch { chip with moves } = { chip.latch with moves } :=
  latch_comm (fun chip => { chip with moves }) (fun _ w => by cases w <;> rfl)
    (fun _ => ⟨rfl, rfl⟩) (fun _ => rfl) chip

section Look

theorem interruptReading_and (chip : Chip) {mask : UInt8}
    (apart : Register.secondPending &&& mask = 0) :
    chip.interruptReading &&& mask = chip.interrupt &&& mask := by
  rw [interruptReading]
  split
  · exact Masks.or_and_of_disjoint8 _ apart
  · rfl

theorem check_second (chip : Chip) (mask : UInt16) :
    (Completion.second mask).observed.check chip =
      .ok (chip.latch.interrupt2 &&& mask != 0, chip.latch) := by
  change (if chip.latch.interruptReading &&& Register.secondPending != 0 then
      Condition.read16 Register.interrupt2 fun bits => .settled (bits &&& mask != 0)
    else .settled false).check chip.latch = _
  by_cases pending : chip.latch.interruptReading &&& Register.secondPending = 0
  · have quiet : chip.latch.interrupt2 = 0 := Decidable.byContradiction fun some_bit => by
      rw [interruptReading, if_pos some_bit, Masks.or_and_self8] at pending
      exact absurd pending (by decide)
    simp [pending, quiet, Condition.check]
  · have look : (Condition.read16 Register.interrupt2 fun bits =>
        .settled (bits &&& mask != 0)).check chip.latch =
        .ok (chip.latch.latch.interrupt2 &&& mask != 0, chip.latch.latch) := rfl
    rw [if_pos (by simpa using pending), look, latch_latch]

theorem check_first (chip : Chip) {mask : UInt8} (apart : Register.secondPending &&& mask = 0) :
    (Completion.first mask).observed.check chip =
      .ok (chip.latch.interrupt &&& mask != 0, chip.latch) := by
  rw [← interruptReading_and chip.latch apart]
  rfl

theorem check_observed (chip : Chip) (w : Window) :
    w.registers.completion.observed.check chip = .ok (chip.latch.shows w, chip.latch) := by
  cases w
  case dataRx => exact check_first chip rfl
  case dataTx => exact check_first chip rfl
  all_goals exact check_second chip _

end Look

section Registers

variable {allowed : Halt → Prop} {rounds : Nat}

theorem ensures_clear {chip : Chip} {w : Window} {post : Unit → Chip → Prop} :
    w.registers.completion.clear.Ensures allowed rounds chip post ↔ post () (chip.cleared w) := by
  cases w <;> rfl

theorem ensures_acknowledge {chip : Chip} {w : Window} {post : Unit → Chip → Prop} :
    w.registers.completion.acknowledge.Ensures allowed rounds chip post ↔
      post () (chip.acknowledged w) := by
  cases w <;> rfl

end Registers

section Shows

theorem shows_signal (chip : Chip) (v w : Window) :
    (chip.signal v).shows w = (decide (w = v) || chip.shows w) := by
  cases v <;> cases w <;> first
    | rfl
    | exact Masks.or_and_ne_zero8 _ _ _
    | exact Masks.or_and_ne_zero16 _ _ _

theorem shows_foldl_signal (windows : List Window) (chip : Chip) (w : Window) :
    (windows.foldl signal chip).shows w = (decide (w ∈ windows) || chip.shows w) := by
  induction windows generalizing chip with
  | nil => simp
  | cons v rest ih =>
    rw [List.foldl_cons, ih, shows_signal]
    grind

variable {chip : Chip}

theorem shows_latch (enabled : chip.interruptEnabled) (w : Window) :
    chip.latch.shows w = (decide (w ∈ chip.unlatched) || chip.shows w) := by
  rw [latch, if_pos enabled]
  exact shows_foldl_signal chip.unlatched chip w

theorem unlatched_latch (enabled : chip.interruptEnabled) : chip.latch.unlatched = [] := by
  rw [latch, if_pos enabled]

theorem shows_cleared (chip : Chip) (w : Window) : (chip.cleared w).shows w = false := by
  cases w
  case dataRx | dataTx => exact bne_eq_false_iff_eq.mpr (Masks.and_not_and_self8 _ _)
  all_goals exact bne_eq_false_iff_eq.mpr (Masks.and_not_and_self16 _ _)

end Shows

section Await

variable {allowed : Halt → Prop} {timing : Timing} {rounds : Nat} {chip : Chip} {w : Window}
  {post : Bool → Chip → Prop}

/-- A wait for the completion of a window. Only a wait in vain takes time, and only one for which
the clock has no room comes to its end. -/
theorem await_timely
    (late : chip.latch.shows w = false →
      ¬chip.latch.HasTime timing.moveTimeout timing.pollInterval → allowed .clockOverflow)
    (short : timing.pollInterval = 0 ∨
      rounds < timing.moveTimeout.toNat / timing.pollInterval.toNat + 2 → allowed .outOfRounds)
    (seen : chip.latch.shows w = true → post true (chip.latch.acknowledged w))
    (missed : chip.latch.shows w = false →
      chip.latch.HasTime timing.moveTimeout timing.pollInterval →
      post false (chip.latch.delayed timing.moveTimeout timing.pollInterval)) :
    (w.registers.completion.await timing).Ensures allowed rounds chip post := by
  have waits : EndsIn allowed (poll rounds timing.moveTimeout timing.pollInterval
      w.registers.completion.observed chip) _ := poll_timely late short (check_observed chip w)
    (clock_latch chip)
    (fun clock => by rw [check_observed, latch_clock, latch_latch]; rfl)
  simp only [Completion.await, Program.waitFor, Program.ensures_bind, Program.ensures_await,
    Program.ensures_done]
  refine EndsIn.mono waits ?_
  rintro held ⟨ended, inTime⟩
  rw [ended]
  cases shown : chip.latch.shows w with
  | true =>
    simp only [if_true, Program.ensures_bind, ensures_acknowledge, Program.ensures_pure]
    exact seen shown
  | false =>
    simp only [Bool.false_eq_true, if_false, Program.ensures_pure]
    exact missed shown (inTime shown)

end Await

end RadioWindows.Chip
