import RadioWindows.Proofs.Chip.Making
import RadioWindows.Proofs.Stalling

/-! Where the time goes. On the chip only a wait in vain takes time, always the same for the same
kind of wait, and each is reported. So the clock can be read off the reports: of a part of the
driver, of an operation, and of a whole run. -/

namespace RadioWindows

variable {α β : Type}

def Fault.isMoveTimeout : Fault → Bool
  | moveTimeout _ => true
  | _ => false

/-- The time that the waits take of which these faults tell. -/
def Timing.waitedFor (timing : Timing) (faults : List Fault) : Nat :=
  faults.countP Fault.isMoveTimeout * overdue timing.moveTimeout timing.pollInterval +
    timing.spentOn faults

theorem Timing.waitedFor_append (timing : Timing) (faults more : List Fault) :
    timing.waitedFor (faults ++ more) = timing.waitedFor faults + timing.waitedFor more := by
  rw [waitedFor, List.countP_append, Nat.add_mul, spentOn_append, waitedFor, waitedFor]
  omega

theorem Timing.waitedFor_moveTimeout (timing : Timing) (w : Window) :
    timing.waitedFor [.moveTimeout w] = overdue timing.moveTimeout timing.pollInterval := by
  simp [waitedFor, spentOn, Fault.isMoveTimeout, Fault.isIndexOutOfBounds]

theorem Timing.waitedFor_indexOutOfBounds (timing : Timing) (w : Window) (index : UInt16) :
    timing.waitedFor [.indexOutOfBounds w index] =
      overdue timing.indexTimeout timing.pollInterval := by
  simp [waitedFor, spentOn, Fault.isMoveTimeout, Fault.isIndexOutOfBounds]

theorem Timing.waitedFor_of_not_isTimeout (timing : Timing) {fault : Fault}
    (other : fault.isTimeout = false) : timing.waitedFor [fault] = 0 := by
  cases fault with
  | moveTimeout _ | indexOutOfBounds _ _ => cases other
  | _ => simp [waitedFor, spentOn, Fault.isMoveTimeout, Fault.isIndexOutOfBounds]

theorem overdue_bounds (timeout : UInt64) {interval : UInt32} (moving : interval ≠ 0) :
    timeout.toNat < overdue timeout interval ∧
      overdue timeout interval ≤ timeout.toNat + interval.toNat := by
  have positive : 0 < interval.toNat := Nat.pos_of_ne_zero fun still =>
    moving (UInt32.toNat_inj.mp still)
  have whole := Nat.div_mul_le_self timeout.toNat interval.toNat
  have beyond := Nat.lt_div_mul_add (a := timeout.toNat) positive
  rw [overdue, Nat.succ_mul]
  omega

namespace Chip

variable {timing : Timing} {rounds : Nat} {chip middle after : Chip} {session : Session Chip}

/-- The time that has passed is that of the waits in vain that have been reported since. -/
def Spends (timing : Timing) (before after : Chip) : Prop :=
  ∃ reports, after.faults = before.faults ++ reports ∧
    after.clock.toNat = before.clock.toNat + timing.waitedFor reports

section Spends

theorem Spends.of_same (faults : after.faults = chip.faults) (clock : after.clock = chip.clock) :
    Spends timing chip after :=
  ⟨[], by rw [faults, List.append_nil], by simp [clock, Timing.waitedFor, Timing.spentOn]⟩

theorem Spends.refl (chip : Chip) : Spends timing chip chip := .of_same rfl rfl

theorem Spends.trans (first : Spends timing chip middle)
    (second : Spends timing middle after) : Spends timing chip after := by
  obtain ⟨reports, faults, clock⟩ := first
  obtain ⟨more, others, later⟩ := second
  refine ⟨reports ++ more, by rw [others, faults, List.append_assoc], ?_⟩
  rw [later, clock, Timing.waitedFor_append, Nat.add_assoc]

theorem spends_reported (chip : Chip) {fault : Fault} (other : fault.isTimeout = false) :
    Spends timing chip (chip.reported fault) :=
  ⟨[fault], rfl, by rw [timing.waitedFor_of_not_isTimeout other]; rfl⟩

theorem spends_checked (session : Session Chip) (w : Window) :
    Spends timing session.host (checked session w).host := by
  rw [checked]
  split
  · exact spends_reported session.host rfl
  · exact .refl _

theorem spends_settled (move : Move) (out : Nat × Chip) (inTime : chip.HasTimeFor timing move) :
    Spends timing chip (chip.settled timing move out) := by
  cases heeds : chip.heeds move.target with
  | true =>
    obtain ⟨faults, clock⟩ := chip.settled_of_heeds timing move out heeds
    exact .of_same faults clock
  | false =>
    obtain ⟨faults, clock⟩ := chip.settled_of_not_heeds timing move out heeds
    refine ⟨[.moveTimeout move.target], faults, ?_⟩
    rw [clock (inTime heeds), Timing.waitedFor_moveTimeout]

theorem spends_indexed (w : Window) (index : UInt16)
    (inTime : (session.host.visible w).length < index.toNat →
      session.host.HasTime session.status.timing.indexTimeout session.status.timing.pollInterval) :
    Spends session.status.timing session.host (indexed session w index).host := by
  rw [indexed, sought]
  by_cases within : index.toNat ≤ (session.host.visible w).length
  · rw [if_pos within, if_pos within]
    exact .of_same rfl rfl
  · rw [if_neg within, if_neg within]
    refine ⟨[.indexOutOfBounds w index], rfl, ?_⟩
    have time : (session.host.setIndex w index).HasTime session.status.timing.indexTimeout
        session.status.timing.pollInterval := inTime (Nat.lt_of_not_le within)
    rw [Timing.waitedFor_indexOutOfBounds]
    exact clock_delayed time

end Spends

/-- If neither a lack of rounds or time nor a full free count cuts this part of the driver short,
its reports account for the time that it takes. -/
def Accountable (timing : Timing) (rounds : Nat) (driver : Driver α) : Prop :=
  ∀ session : Session Chip, session.status.timing = timing →
    driver.Ensures (Suffers timing rounds) rounds session fun _ after =>
      after.status.timing = timing ∧ Spends timing session.host after.host

section Accountable

theorem accountable_pure (value : α) : Accountable timing rounds (pure value) :=
  fun session same => ⟨same, .refl session.host⟩

theorem accountable_bind {driver : Driver α} {next : α → Driver β}
    (first : Accountable timing rounds driver)
    (rest : ∀ value, Accountable timing rounds (next value)) :
    Accountable timing rounds (driver >>= next) := by
  intro session same
  rw [Driver.ensures_bind]
  refine Driver.Ensures.mono (first session same) ?_
  rintro value middle ⟨still, spends⟩
  refine Driver.Ensures.mono (rest value middle still) ?_
  rintro out after ⟨last, more⟩
  exact ⟨last, spends.trans more⟩

theorem accountable_lift {program : Program α}
    (spends : ∀ chip : Chip, program.Ensures (Suffers timing rounds) rounds chip fun _ after =>
      Spends timing chip after) : Accountable timing rounds (liftM program : Driver α) := by
  intro session same
  rw [Driver.ensures_lift]
  exact Program.Ensures.mono (spends session.host) fun _ _ established => ⟨same, established⟩

theorem accountable_modify {change : Status → Status}
    (sameTiming : ∀ status, (change status).timing = status.timing) :
    Accountable timing rounds (modify change : Driver Unit) :=
  fun session same => ⟨(sameTiming session.status).trans same, .refl session.host⟩

theorem accountable_issue (move : Move) : Accountable timing rounds (Driver.issue move) := by
  intro session same
  rw [Driver.issue, Driver.ensures_bind, Driver.ensures_get, Driver.ensures_lift, same]
  refine ensures_issue ((carryOut_suffers timing rounds session.host move).mono fun out _ => ?_)
  exact ⟨Timing.patient_move.allow fun _ => .inl,
    fun inTime => ⟨same, spends_settled move out inTime⟩⟩

theorem accountable_setIndex (w : Window) (index : UInt16) :
    Accountable timing rounds (Driver.setIndex w index) := by
  rintro session rfl
  refine (setIndex_timely index (fun _ _ => .inl trivial) .inl).mono ?_
  rintro _ after ⟨rfl, inTime⟩
  exact ⟨timing_indexed session w index, spends_indexed w index inTime⟩

theorem accountable_read (w : Window) (count : Nat) :
    Accountable timing rounds (Driver.read w count) := by
  intro session same
  refine (ensures_read count).mono ?_
  rintro _ after ⟨-, rfl⟩
  exact ⟨same, (spends_checked session w).trans (.of_same rfl rfl)⟩

theorem accountable_write (w : Window) (bytes : Bytes) :
    Accountable timing rounds (Driver.write w bytes) := by
  intro session same
  refine (ensures_write bytes).mono ?_
  rintro _ after rfl
  have kept := circumstances_overwrite (checked session w).host w
    (Memory.write (session.host.visible w) (session.host.window w).cursor bytes)
  exact ⟨same, (spends_checked session w).trans (.of_same (congrArg Circumstances.faults kept)
    (congrArg Circumstances.clock kept))⟩

theorem accountable_perform (operation : Operation) :
    Accountable timing rounds operation.perform := by
  have parts : operation.Parts fun _ => Accountable timing rounds := {
    pure := accountable_pure
    bind := accountable_bind
    query asks := by
      cases operation with
      | scratchLength | isOutOfBounds _ | dataState _ | timing =>
        exact fun session same => ⟨same, .refl session.host⟩
      | _ => exact asks.elim
    issue move _ := accountable_issue move
    setIndex w _ := accountable_setIndex w
    read w _ := accountable_read w
    write w _ := accountable_write w
    readFree traffic := accountable_lift fun chip => by
      rw [Program.read16, Program.ensures_ask, answer_free]
      exact .refl chip
    raise fault other := accountable_lift fun chip => by
      rw [Program.ensures_raise, answer_report]
      exact spends_reported chip other
    settingUp := accountable_lift fun chip => .refl chip
    scratchSized _ := accountable_lift fun chip => .refl chip
    unflag _ := accountable_modify fun _ => rfl
    mark _ _ _ := accountable_modify fun _ => rfl
    recordSetUp _ _ := accountable_modify fun _ => rfl }
  exact parts.perform

end Accountable

/-- Unless a free count has no room, a run ends, and its reports and those of each of its steps
account for the time. -/
theorem run_spends {steps : List (Step Change)} (sameTiming : session.status.timing = timing)
    (unset : ∀ time, .adjust (.setClock time) ∉ steps) :
    EndsIn (Suffers timing rounds) (session.run rounds steps) fun taken =>
      Spends timing session.host (session.after taken).host ∧
        Session.Along (fun before _ taken => Spends timing before.host taken.session.host)
          session steps taken := by
  let kept (now : Session Chip) : Prop :=
    now.status.timing = timing ∧ Spends timing session.host now.host
  have along : EndsIn (Suffers timing rounds) (session.run rounds steps) fun taken =>
      kept (session.after taken) ∧
        Session.Along (fun before _ taken => Spends timing before.host taken.session.host)
          session steps taken := by
    refine Session.run_endsIn (fun step member before now => ?_) ⟨sameTiming, .refl session.host⟩
    obtain ⟨still, spent⟩ := now
    cases step with
    | perform operation =>
      have performed : operation.perform.Ensures (Suffers timing rounds) rounds before _ :=
        accountable_perform operation before still
      refine Session.perform_endsIn (performed.mono fun answer after ended log => ?_)
      exact ⟨⟨ended.1, spent.trans ended.2⟩, ended.2⟩
    | adjust change =>
      have costless : Spends timing before.host (adjust change before.host) := by
        cases change with
        | setClock time => exact absurd member (unset time)
        | setFree traffic free => cases traffic <;> exact .of_same rfl rfl
        | _ => exact .of_same rfl rfl
      exact ⟨⟨still, spent.trans costless⟩, costless⟩
  exact EndsIn.mono along fun taken ended => ⟨ended.1.2, ended.2⟩

theorem run_ne_freeCountOverflow {steps : List (Step Change)} (room : session.host.Roomy)
    (untouched : ∀ pool free, .adjust (.setFree pool free) ∉ steps) (traffic : Traffic) :
    session.run rounds steps ≠ .error (.freeCountOverflow traffic) := by
  intro halted
  let anything : Session Chip → Step Change → Taken Chip → Prop := fun _ _ _ => True
  have ends : EndsIn (session.status.timing.Allows rounds) (session.run rounds steps)
      (Session.Along anything session steps) :=
    room.run_along untouched
      (fun operation _ roomy => (perform_frame operation rounds roomy).mono fun _ _ => trivial)
      fun _ _ => trivial
  exact ends.of_error halted

/-- With rounds enough, a run of operations ends, unless the clock or a free count has no room; and
a free count has, if the run starts with room and nobody sets one. The clock then shows the time at
the start and the time for each wait in vain that was reported, over the run and over each of its
steps; nothing else takes time. Each such wait takes longer than its timeout, and at most an
interval longer. -/
theorem reports_tell_time {steps : List (Step Change)}
    (moving : session.status.timing.pollInterval ≠ 0)
    (enough : session.status.timing.enoughRounds ≤ rounds)
    (unset : ∀ time, .adjust (.setClock time) ∉ steps)
    (clock : session.run rounds steps ≠ .error .clockOverflow) :
    ((∃ taken, session.run rounds steps = .ok taken ∧
        Spends session.status.timing session.host (session.after taken).host ∧
        Session.Along (fun before _ taken =>
          Spends session.status.timing before.host taken.session.host) session steps taken) ∨
      ∃ traffic, session.run rounds steps = .error (.freeCountOverflow traffic) ∧
        ¬(session.host.Roomy ∧ ∀ pool free, .adjust (.setFree pool free) ∉ steps)) ∧
    ∀ timeout ∈ [session.status.timing.moveTimeout, session.status.timing.indexTimeout],
      timeout.toNat < overdue timeout session.status.timing.pollInterval ∧
        overdue timeout session.status.timing.pollInterval ≤
          timeout.toNat + session.status.timing.pollInterval.toNat := by
  refine ⟨?_, fun timeout _ => overdue_bounds timeout moving⟩
  have ends : EndsIn (Suffers session.status.timing rounds) (session.run rounds steps) _ :=
    run_spends rfl unset
  cases ran : session.run rounds steps with
  | ok taken => exact .inl ⟨taken, rfl, ends.of_ok ran⟩
  | error halt =>
    obtain allows | ⟨traffic, rfl⟩ : Suffers session.status.timing rounds halt :=
      ends.of_error ran
    · rw [allows.eq_clockOverflow moving enough] at ran
      exact absurd ran clock
    · exact .inr ⟨traffic, rfl, fun untouched =>
        run_ne_freeCountOverflow untouched.1 untouched.2 traffic ran⟩

def uneven : Timing := { moveTimeout := 25, indexTimeout := 4, pollInterval := 10 }

/-- An allocation that fails while completions are held back, so that both of its moves are late,
and an index past the end. -/
def vainSteps : List (Step Change) :=
  [.perform .setUp, .adjust (.setFailing true), .adjust (.setStalled true),
    .perform (.allocate .data 5), .adjust (.setStalled false), .perform (.setIndex .dataTx 9),
    .perform (.read .dataTx 2)]

theorem reports_tell_time_vainSteps :
    ∃ taken, (Session.start atReset uneven).run 4 vainSteps = .ok taken ∧
      taken.map (·.session.host.clock) = [0, 0, 0, 60, 60, 70, 70] ∧
      Spends uneven atReset ((Session.start atReset uneven).after taken).host := by
  obtain ⟨taken, finished, clocks⟩ : ∃ taken,
      (Session.start atReset uneven).run 4 vainSteps = .ok taken ∧
        taken.map (·.session.host.clock) = [0, 0, 0, 60, 60, 70, 70] :=
    exists_ok_of_endsIn (by decide +kernel)
  have runs (halt : Halt) : (Session.start atReset uneven).run 4 vainSteps ≠ .error halt := by
    rw [finished]
    exact nofun
  have moving : (Session.start atReset uneven).status.timing.pollInterval ≠ 0 := by decide
  obtain ⟨⟨_, finished', spent, -⟩ | ⟨traffic, halted, -⟩, -⟩ :=
    reports_tell_time moving (by decide) (by simp [vainSteps]) (runs _)
  · cases finished.symm.trans finished'
    exact ⟨taken, finished, clocks, spent⟩
  · exact absurd halted (runs _)

end Chip

end RadioWindows
