import RadioWindows.Chip.Host
import RadioWindows.Proofs.Logic

/-! Waiting on the chip. Nothing but the clock changes while the driver waits, so the first look
decides: a condition holds at once, or it is looked at until the first delay that ends past the
timeout. -/

namespace RadioWindows

/-- The time that a wait in vain takes: whole intervals, the first number of them that is more than
the timeout. -/
def overdue (timeout : UInt64) (interval : UInt32) : Nat :=
  (timeout.toNat / interval.toNat + 1) * interval.toNat

def Timing.enoughRounds (timing : Timing) : Nat :=
  max (timing.moveTimeout.toNat / timing.pollInterval.toNat)
    (timing.indexTimeout.toNat / timing.pollInterval.toNat) + 2

/-- What may cut a run on the chip short: the end of the clock, or a lack of rounds if they are too
few or take no time. -/
def Timing.Allows (timing : Timing) (rounds : Nat) : Halt → Prop
  | .clockOverflow => True
  | .outOfRounds => timing.pollInterval = 0 ∨ rounds < timing.enoughRounds
  | _ => False

theorem Timing.Allows.eq_clockOverflow {timing : Timing} {rounds : Nat} {halt : Halt}
    (allows : timing.Allows rounds halt) (moving : timing.pollInterval ≠ 0)
    (enough : timing.enoughRounds ≤ rounds) : halt = .clockOverflow := by
  cases halt with
  | clockOverflow => rfl
  | outOfRounds => exact absurd allows (not_or.mpr ⟨moving, Nat.not_lt.mpr enough⟩)
  | _ => exact allows.elim

theorem Timing.finishes {α : Type} {timing : Timing} {rounds : Nat} {result : Except Halt α}
    {post : α → Prop} (ends : EndsIn (timing.Allows rounds) result post)
    (moving : timing.pollInterval ≠ 0) (enough : timing.enoughRounds ≤ rounds)
    (clock : result ≠ .error .clockOverflow) : ∃ value, result = .ok value ∧ post value :=
  ends.exists_ok fun _ halted allows => clock (allows.eq_clockOverflow moving enough ▸ halted)

/-- The halts are allowed that a wait may come to: the end of the clock if it is in vain, and a lack
of rounds if they are too few or take no time. -/
structure Patient (allowed : Halt → Prop) (rounds : Nat) (timeout : UInt64) (interval : UInt32)
    (holds : Bool) : Prop where
  late : holds = false → allowed .clockOverflow
  short : interval = 0 ∨ rounds < timeout.toNat / interval.toNat + 2 → allowed .outOfRounds

theorem Patient.allow {allowed wider : Halt → Prop} {rounds : Nat} {timeout : UInt64}
    {interval : UInt32} {holds : Bool} (patient : Patient allowed rounds timeout interval holds)
    (le : ∀ halt, allowed halt → wider halt) : Patient wider rounds timeout interval holds where
  late missed := le _ (patient.late missed)
  short few := le _ (patient.short few)

theorem Timing.patient_of_le {timing : Timing} {rounds : Nat} {timeout : UInt64} {holds : Bool}
    (le : timeout.toNat / timing.pollInterval.toNat + 2 ≤ timing.enoughRounds) :
    Patient (timing.Allows rounds) rounds timeout timing.pollInterval holds where
  late _ := trivial
  short := Or.imp_right fun few => Nat.lt_of_lt_of_le few le

theorem Timing.patient_move {timing : Timing} {rounds : Nat} {holds : Bool} :
    Patient (timing.Allows rounds) rounds timing.moveTimeout timing.pollInterval holds :=
  patient_of_le (Nat.add_le_add_right (Nat.le_max_left _ _) 2)

theorem Timing.patient_index {timing : Timing} {rounds : Nat} {holds : Bool} :
    Patient (timing.Allows rounds) rounds timing.indexTimeout timing.pollInterval holds :=
  patient_of_le (Nat.add_le_add_right (Nat.le_max_right _ _) 2)

theorem Timing.patient_of_enough {timing : Timing} {allowed : Halt → Prop} {rounds : Nat}
    {holds : Bool} (moving : timing.pollInterval ≠ 0) (enough : timing.enoughRounds ≤ rounds)
    (late : holds = false → allowed .clockOverflow) :
    Patient allowed rounds timing.moveTimeout timing.pollInterval holds := by
  have short : Patient (timing.Allows rounds) rounds _ _ holds := timing.patient_move
  refine ⟨late, fun few => ?_⟩
  exact absurd (short.short few) (not_or.mpr ⟨moving, Nat.not_lt.mpr enough⟩)

namespace Chip

variable {allowed : Halt → Prop} {rounds : Nat}

@[simp] theorem answer_now (chip : Chip) : Host.answer .now chip = .ok (chip.clock, chip) := rfl

theorem answer_delay (chip : Chip) (interval : UInt32)
    (ends : UInt64.size ≤ chip.clock.toNat + interval.toNat → allowed .clockOverflow) :
    EndsIn allowed (Host.answer (.delay interval) chip) fun answered =>
      answered.2.clock.toNat = chip.clock.toNat + interval.toNat ∧
        answered.2 = { chip with clock := answered.2.clock } := by
  change EndsIn _ (((), ·) <$> chip.delay interval) _
  rw [endsIn_map, delay]
  dsimp only
  split
  · next fits => exact ⟨UInt64.toNat_ofNat_of_lt' fits, rfl⟩
  · next lacks => exact ends (Nat.le_of_not_lt lacks)

/-- After `past` intervals, with the condition false whatever the time. -/
theorem pollFrom_never {start timeout : UInt64} {interval : UInt32} {condition : Condition}
    {chip : Chip} {past : Nat}
    (ends : UInt64.size ≤ start.toNat + overdue timeout interval → allowed .clockOverflow)
    (never : ∀ clock, condition.check { chip with clock } = .ok (false, { chip with clock }))
    (now : chip.clock.toNat = start.toNat + past * interval.toNat)
    (early : interval ≠ 0 → past ≤ timeout.toNat / interval.toNat + 1)
    (short : interval = 0 ∨ rounds + past < timeout.toNat / interval.toNat + 2 →
      allowed .outOfRounds) :
    EndsIn allowed (pollFrom start timeout interval condition rounds chip) fun held =>
      held = (false, { chip with clock := .ofNat (start.toNat + overdue timeout interval) }) ∧
        start.toNat + overdue timeout interval < UInt64.size := by
  induction rounds generalizing chip past with
  | zero =>
    refine short ?_
    by_cases still : interval = 0
    · exact .inl still
    · have := early still
      exact .inr (by omega)
  | succ rounds ih =>
    have looked : condition.check chip = .ok (false, chip) := never chip.clock
    simp only [pollFrom, looked, answer_now, endsIn_bind, endsIn_ok, Bool.false_eq_true, if_false]
    have time := elapsed_toNat now
    by_cases late : elapsed start chip.clock > timeout
    · have passed : timeout.toNat < past * interval.toNat := by
        rw [← time]
        exact UInt64.lt_iff_toNat_lt.mp late
      have moving : 0 < interval.toNat := Nat.pos_of_ne_zero fun still => by simp [still] at passed
      have some_time : interval ≠ 0 := fun still => by simp [still] at moving
      -- The reading before was still in time, so this is the first one after the timeout.
      have last : past = timeout.toNat / interval.toNat + 1 := by
        have := (Nat.div_lt_iff_lt_mul moving).mpr passed
        have := early some_time
        omega
      have clock : chip.clock.toNat = start.toNat + overdue timeout interval := by
        rw [overdue, ← last, ← now]
      rw [if_pos late, endsIn_pure, ← clock, UInt64.ofNat_toNat]
      exact ⟨rfl, chip.clock.toNat_lt⟩
    · rw [if_neg late, endsIn_bind]
      have passed : past * interval.toNat ≤ timeout.toNat := by
        rw [← time]
        exact Nat.le_of_not_lt fun lt => late (UInt64.lt_iff_toNat_lt.mpr lt)
      have again : interval ≠ 0 → past + 1 ≤ timeout.toNat / interval.toNat + 1 := by
        intro some_time
        have moving : 0 < interval.toNat := Nat.pos_of_ne_zero fun still =>
          some_time (UInt32.toNat_inj.mp still)
        have := (Nat.le_div_iff_mul_le moving).mpr passed
        omega
      have next :
          chip.clock.toNat + interval.toNat = start.toNat + (past + 1) * interval.toNat := by
        rw [now, Nat.add_mul]
        omega
      have within : (past + 1) * interval.toNat ≤ overdue timeout interval := by
        by_cases still : interval = 0
        · simp [still]
        · exact Nat.mul_le_mul_right _ (again still)
      refine EndsIn.mono (answer_delay chip interval fun lacks => ends (by omega))
        fun waited delayed => ?_
      rw [delayed.2]
      exact ih never (delayed.1.trans next) again fun lack =>
        short (lack.imp_right fun few => by omega)

def delayed (chip : Chip) (timeout : UInt64) (interval : UInt32) : Chip :=
  { chip with clock := .ofNat (chip.clock.toNat + overdue timeout interval) }

def HasTime (chip : Chip) (timeout : UInt64) (interval : UInt32) : Prop :=
  chip.clock.toNat + overdue timeout interval < UInt64.size

theorem clock_delayed {chip : Chip} {timeout : UInt64} {interval : UInt32}
    (time : chip.HasTime timeout interval) :
    (chip.delayed timeout interval).clock.toNat =
      chip.clock.toNat + overdue timeout interval := UInt64.toNat_ofNat_of_lt' time

/-- A wait on the chip, where the first look leaves a chip that every later look finds as it is. It
comes to the end of the clock only if the clock has no room for a wait in vain. -/
theorem poll_timely {timeout : UInt64} {interval : UInt32} {condition : Condition}
    {chip seen : Chip} {holds : Bool}
    (late : holds = false → ¬seen.HasTime timeout interval → allowed .clockOverflow)
    (short : interval = 0 ∨ rounds < timeout.toNat / interval.toNat + 2 → allowed .outOfRounds)
    (looked : condition.check chip = .ok (holds, seen)) (now : seen.clock = chip.clock)
    (again : ∀ clock, condition.check { seen with clock } = .ok (holds, { seen with clock })) :
    EndsIn allowed (poll rounds timeout interval condition chip) fun held =>
      held = (holds, if holds then seen else seen.delayed timeout interval) ∧
        (holds = false → seen.HasTime timeout interval) := by
  simp only [poll, answer_now, endsIn_bind, endsIn_ok]
  cases holds with
  | true =>
    cases rounds with
    | zero => exact short (.inr (Nat.succ_pos _))
    | succ rounds =>
      simp only [pollFrom, looked, endsIn_bind, endsIn_ok, if_true, endsIn_pure]
      refine ⟨trivial, fun missed => ?_⟩
      cases missed
  | false =>
    cases rounds with
    | zero => exact short (.inr (Nat.succ_pos _))
    | succ rounds =>
      -- The first look may change the chip, the others find it as that look has left it.
      have lacks (full : UInt64.size ≤ chip.clock.toNat + overdue timeout interval) :
          allowed .clockOverflow := late rfl (by rw [HasTime, now]; omega)
      have none_past : seen.clock.toNat = chip.clock.toNat + 0 * interval.toNat := by
        rw [now]
        omega
      have later : EndsIn allowed
          (pollFrom chip.clock timeout interval condition (rounds + 1) seen) _ :=
        pollFrom_never lacks again none_past (fun _ => Nat.zero_le _) (by simpa using short)
      have first : condition.check seen = .ok (false, seen) := again seen.clock
      simp only [pollFrom, looked, first, endsIn_bind, endsIn_ok, answer_now] at later ⊢
      simpa only [now, Bool.false_eq_true, if_false, delayed, HasTime, forall_const] using later

end Chip

end RadioWindows
