import RadioWindows.Proofs.Chip.Operating

/-! Completions that never come. Whatever bits are left over, a move on a chip that holds its
completions back comes to the same as one on a chip that does not; it only takes longer and ends in
a report. Between operations no completion is on its way, so none can be mistaken for one to
come. -/

namespace RadioWindows.Chip

section Move

variable {allowed : Halt → Prop} {rounds : Nat} {chip : Chip} {status : Status} {move : Move}

def performMove (chip : Chip) (stalled : Bool) (status : Status) (rounds : Nat) (move : Move) :
    Except Halt (Taken Chip) :=
  (Session.mk (adjust (.setStalled stalled) chip) status).perform rounds (.move move)

theorem carryOut_stalled (chip : Chip) (move : Move) (stalled : Bool) :
    ((adjust (.setStalled stalled) chip).placed move).carryOut move.target move.word =
      Prod.map id (·.under { chip.circumstances with stalled }) <$>
        (chip.placed move).carryOut move.target move.word := by
  have stalls : adjust (.setStalled stalled) chip =
      chip.under { chip.circumstances with stalled } := rfl
  rw [stalls, placed_under, carryOut_under]

theorem performMove_endsIn {stalled : Bool} {post : Taken Chip → Prop}
    (issued : (move.issue status.timing).Ensures allowed rounds (adjust (.setStalled stalled) chip)
      fun count after => ∀ log, post ⟨.count count, log, ⟨after, status⟩⟩) :
    EndsIn allowed (chip.performMove stalled status rounds move) post := by
  refine Session.perform_endsIn ?_
  simp only [Operation.perform, Driver.issue, Driver.ensures_map, Driver.ensures_bind,
    Driver.ensures_get, Driver.ensures_lift]
  exact issued

theorem performMove_error {halt : Halt}
    (halted : (chip.placed move).carryOut move.target move.word = .error halt) (stalled : Bool) :
    chip.performMove stalled status rounds move = .error halt := by
  have issued : (move.issue status.timing).run rounds (adjust (.setStalled stalled) chip) =
      .error halt := by
    refine issue_of_error ?_
    rw [carryOut_stalled, halted]
    rfl
  refine endsIn_eq_error.mp (performMove_endsIn ?_)
  exact EndsIn.mono (endsIn_eq_error.mpr issued) fun _ never => never.elim

theorem performMove_ok {out : Nat × Chip}
    (carried : (chip.placed move).carryOut move.target move.word = .ok out) {stalled : Bool}
    (patient : Patient allowed rounds status.timing.moveTimeout status.timing.pollInterval
      ((adjust (.setStalled stalled) chip).heeds move.target)) :
    EndsIn allowed (chip.performMove stalled status rounds move) fun taken =>
      taken.answer = .count (.ofNat out.1) ∧ taken.session =
          ⟨(adjust (.setStalled stalled) chip).settled status.timing move out, status⟩ ∧
        (adjust (.setStalled stalled) chip).HasTimeFor status.timing move := by
  have stalled_carried := carryOut_stalled chip move stalled
  rw [carried] at stalled_carried
  refine performMove_endsIn ((issue_of_ok stalled_carried patient).mono ?_)
  rintro _ _ ⟨rfl, rfl, inTime⟩ log
  rw [settled_under]
  exact ⟨rfl, rfl, inTime⟩

/-- The move has come to the same, but one run has missed the completion and taken its time. -/
structure OnlyLater (chip : Chip) (timing : Timing) (w : Window) (prompt late : Taken Chip) :
    Prop where
  answer : late.answer = prompt.answer
  status : late.session.status = prompt.session.status
  alike : late.session.host.Alike prompt.session.host
  promptFaults : prompt.session.host.faults = chip.faults
  promptClock : prompt.session.host.clock = chip.clock
  lateFaults : late.session.host.faults = chip.faults ++ [.moveTimeout w]
  lateClock : late.session.host.clock.toNat =
    chip.clock.toNat + overdue timing.moveTimeout timing.pollInterval

theorem performMove_onlyLater {out : Nat × Chip}
    (carried : (chip.placed move).carryOut move.target move.word = .ok out)
    (moving : status.timing.pollInterval ≠ 0) (enough : status.timing.enoughRounds ≤ rounds)
    (settled : move.target ∉ chip.unlatched)
    (clock : chip.performMove true status rounds move ≠ .error .clockOverflow) :
    ∃ prompt late, chip.performMove false status rounds move = .ok prompt ∧
      chip.performMove true status rounds move = .ok late ∧
      OnlyLater chip status.timing move.target prompt late := by
  have hears : (adjust (.setStalled false) chip).heeds move.target = true := Bool.or_true _
  have deaf : (adjust (.setStalled true) chip).heeds move.target = false := by
    rw [heeds, Bool.or_eq_false_iff]
    exact ⟨decide_eq_false settled, rfl⟩
  -- Seen at the first look, the completion leaves no time for the clock to run out.
  have soon : EndsIn (fun _ => False) (chip.performMove false status rounds move) _ :=
    performMove_ok carried (Timing.patient_of_enough moving enough fun missed =>
      absurd (hears.symm.trans missed) (by decide))
  have waited : EndsIn (· = .clockOverflow) (chip.performMove true status rounds move) _ :=
    performMove_ok carried (Timing.patient_of_enough moving enough fun _ => rfl)
  obtain ⟨⟨_, promptLog, _⟩, promptEnds, rfl, rfl, -⟩ := exists_ok_of_endsIn soon
  obtain ⟨⟨_, lateLog, _⟩, lateEnds, rfl, rfl, inTime⟩ :=
    waited.exists_ok fun halt halted overflow => clock (overflow ▸ halted)
  have promptly := settled_of_heeds _ status.timing move out hears
  have lately := settled_of_not_heeds _ status.timing move out deaf
  exact ⟨_, _, promptEnds, lateEnds, rfl, rfl,
    (alike_settled _ _ _ _).trans (alike_settled _ _ _ _).symm, promptly.1, promptly.2, lately.1,
    lately.2 (inTime deaf)⟩

end Move

section Runs

variable {timing : Timing} {rounds : Nat} {steps : List (Step Change)}

def Suffers (timing : Timing) (rounds : Nat) (halt : Halt) : Prop :=
  timing.Allows rounds halt ∨ ∃ traffic, halt = .freeCountOverflow traffic

theorem carryOut_suffers (timing : Timing) (rounds : Nat) (chip : Chip) (move : Move) :
    EndsIn (Suffers timing rounds) ((chip.placed move).carryOut move.target move.word)
      fun _ => chip.spills? move = none := by
  refine (carryOut_spills chip move).allow ?_
  rintro _ ⟨traffic, -, rfl⟩
  exact .inr ⟨traffic, rfl⟩

theorem spares_unlatched (operation : Operation) :
    operation.Spares (Suffers timing rounds) rounds timing
      fun (chip : Chip) _ => chip.unlatched = [] where
  issue move _ chip _ _ := by
    refine ensures_issue ((carryOut_suffers timing rounds chip move).mono fun out _ => ?_)
    exact ⟨Timing.patient_move.allow fun _ => .inl,
      fun _ => unlatched_settled chip timing move out⟩
  seek w _ index chip _ before := by
    refine ensures_seek (Timing.patient_index.allow fun _ => .inl) ?_
    rw [sought]
    split
    · exact before
    · exact before
  readData w _ count chip _ before := by
    rw [answer_readData]
    exact before
  writeData w _ bytes chip _ before := by
    rw [answer_writeData]
    have kept := congrArg Circumstances.unlatched (circumstances_overwrite chip w
      (Memory.write (chip.visible w) (chip.window w).cursor bytes))
    exact kept.trans before
  readFree traffic chip _ before := by
    rw [answer_free]
    exact before
  report _ _ _ before := before
  mark _ _ _ _ _ before := before

theorem run_unlatched {session : Session Chip} (sameTiming : session.status.timing = timing)
    (before : session.host.unlatched = []) :
    EndsIn (Suffers timing rounds) (session.run rounds steps) fun taken =>
      ∀ one ∈ taken, one.session.host.unlatched = [] := by
  have adjusts (change : Change) (_ : .adjust change ∈ steps) (chip : Chip)
      (before : chip.unlatched = []) : (adjust change chip).unlatched = [] := by
    cases change with
    | setFree traffic free => cases traffic <;> exact before
    | _ => exact before
  exact Session.run_spares spares_unlatched adjusts sameTiming before

end Runs

/-- Bits left over and bits of other windows never decide a move: unless a completion of its window
is still on its way, it comes to the same whether the chip signals its completion or not. A
completion that is signalled takes no time; one that is not takes a whole wait and is reported once.
Either way the move halts if it gives back more than a free count has room for. In a run from a
reset no completion is on its way between operations. -/
theorem stall_only_costs_time :
    (∀ (rounds : Nat) (chip : Chip) (status : Status) (move : Move),
      status.timing.pollInterval ≠ 0 → status.timing.enoughRounds ≤ rounds →
      move.target ∉ chip.unlatched →
      chip.performMove true status rounds move ≠ .error .clockOverflow →
      match chip.spills? move with
      | some traffic => ∀ stalled, chip.performMove stalled status rounds move =
          .error (.freeCountOverflow traffic)
      | none => ∃ prompt late, chip.performMove false status rounds move = .ok prompt ∧
          chip.performMove true status rounds move = .ok late ∧
          OnlyLater chip status.timing move.target prompt late) ∧
    ∀ (timing : Timing) (rounds : Nat) (steps : List (Step Change)) (taken : List (Taken Chip)),
      (Session.start atReset timing).run rounds steps = .ok taken →
      ∀ one ∈ taken, one.session.host.unlatched = [] := by
  refine ⟨fun rounds chip status move moving enough settled clock => ?_,
    fun timing rounds steps taken finished => ?_⟩
  · have spills := carryOut_spills chip move
    cases carried : (chip.placed move).carryOut move.target move.word with
    | error halt =>
      obtain ⟨traffic, spilled, rfl⟩ := spills.of_error carried
      rw [spilled]
      exact performMove_error carried
    | ok out =>
      rw [spills.of_ok carried]
      exact performMove_onlyLater carried moving enough settled clock
  · have sameTiming : (Session.start atReset timing).status.timing = timing := rfl
    exact (run_unlatched sameTiming rfl).of_ok finished

/-- Every bit is set and a move of another window has not been latched yet. -/
def litUp : Chip :=
  { atReset with
    interrupt := 0xff
    interrupt2 := 0xffff
    unlatched := [.spare]
    interruptEnabled := true }

def brief : Timing := { moveTimeout := 25, indexTimeout := 0 }

theorem stall_only_costs_time_litUp :
    (∃ prompt late,
      litUp.performMove false { timing := brief } 4 ⟨.dataTx, .dataPool, true, 5⟩ = .ok prompt ∧
      litUp.performMove true { timing := brief } 4 ⟨.dataTx, .dataPool, true, 5⟩ = .ok late ∧
      OnlyLater litUp brief .dataTx prompt late) ∧
    ∃ taken : List (Taken Chip),
      (Session.start atReset brief).run 4 [.perform .setUp, .perform (.allocate .data 5)] =
        .ok taken ∧
      ∀ one ∈ taken, one.session.host.unlatched = [] := by
  obtain ⟨moves, runs⟩ := stall_only_costs_time
  have clock : litUp.performMove true { timing := brief } 4 ⟨.dataTx, .dataPool, true, 5⟩ ≠
      .error .clockOverflow := fun halted =>
    absurd (congrArg Except.isOk halted) (by decide +kernel)
  obtain ⟨taken, finished, -⟩ : ∃ taken : List (Taken Chip), (Session.start atReset brief).run 4
      [.perform .setUp, .perform (.allocate .data 5)] = .ok taken ∧ taken.length = 2 :=
    exists_ok_of_endsIn (by decide +kernel)
  exact ⟨moves 4 litUp { timing := brief } ⟨.dataTx, .dataPool, true, 5⟩ (by decide) (by decide)
    (by decide) clock, taken, finished, runs brief 4 _ taken finished⟩

end RadioWindows.Chip
