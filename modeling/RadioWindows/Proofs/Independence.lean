import RadioWindows.Proofs.SideBySide
import RadioWindows.Proofs.Stalling

/-! Two drivers at different paces. Each waits as its own timing says, on a chip whose interrupt may
be on or off and whose clock may show any time. No answer and nothing else about the chips tells the
two apart, and each leaves the interrupt as it was found. -/

namespace RadioWindows.Chip

def retimed (chip : Chip) (enabled : Bool) (time : UInt64) : Chip :=
  { chip with interruptEnabled := enabled, clock := time }

section Retimed

variable (chip : Chip) (enabled : Bool) (time : UInt64)

theorem retimed_eq_under :
    chip.retimed enabled time =
      chip.under { chip.circumstances with interruptEnabled := enabled, clock := time } := rfl

theorem carryOut_retimed (move : Move) :
    ∃ found, ((chip.retimed enabled time).placed move).carryOut move.target move.word =
      Prod.map id (·.under found) <$> (chip.placed move).carryOut move.target move.word := by
  refine ⟨{ chip.circumstances with interruptEnabled := enabled, clock := time }, ?_⟩
  rw [retimed_eq_under, placed_under, carryOut_under]

theorem overwrite_retimed (w : Window) (bytes : Bytes) :
    (chip.retimed enabled time).overwrite w bytes =
      (chip.overwrite w bytes).retimed enabled time := by
  rw [retimed_eq_under, overwrite_under, retimed_eq_under, circumstances_overwrite]

theorem free_retimed (traffic : Traffic) :
    (chip.retimed enabled time).free traffic = chip.free traffic := by cases traffic <;> rfl

theorem awaited_retimed (timing timing' : Timing) (w : Window) :
    ∃ later, Chip.awaited { chip with clock := time } timing' w =
      { chip.awaited timing w with clock := later } := by
  have shown : Chip.shows { chip.latch with clock := time } w = chip.latch.shows w := rfl
  rw [awaited, latch_clock, shown, awaited]
  split
  · exact ⟨time, by cases w <;> rfl⟩
  · exact ⟨_, rfl⟩

theorem listening_retimed (move : Move) :
    (chip.retimed enabled time).listening move = { chip.listening move with clock := time } := by
  rw [listening, listening, quiet, quiet]
  cases move.target <;> rfl

theorem settled_retimed (timing timing' : Timing) (move : Move) (out : Nat × Chip) :
    ∃ later, (chip.retimed enabled time).settled timing' move out =
      (chip.settled timing move out).retimed enabled later := by
  obtain ⟨later, same⟩ := awaited_retimed (chip.waiting move out) time timing timing' move.target
  refine ⟨later, ?_⟩
  rw [settled, waiting, listening_retimed]
  exact congrArg (switched · enabled) same

theorem sought_retimed (timing timing' : Timing) (w : Window) (index : UInt16) :
    ∃ later, (chip.retimed enabled time).sought timing' w index =
      (chip.sought timing w index).retimed enabled later := by
  have visible : (chip.retimed enabled time).visible w = chip.visible w := rfl
  rw [sought, sought, visible]
  split
  · exact ⟨time, rfl⟩
  · exact ⟨_, rfl⟩

theorem interruptEnabled_sought (timing : Timing) (w : Window) (index : UInt16) :
    (chip.sought timing w index).interruptEnabled = chip.interruptEnabled := by
  rw [sought]
  split <;> rfl

end Retimed

/-- How a driver waits, and whether it finds the interrupt on. -/
structure Pace where
  timing : Timing
  rounds : Nat
  enabled : Bool

/-- Two drivers that remember the same, on chips that are the same at different times. -/
def pacing (pace pace' : Pace) : Comparison Chip Chip where
  rounds := pace.rounds
  rounds' := pace'.rounds
  allowed := pace.timing.Allows pace.rounds
  allowed' := pace'.timing.Allows pace'.rounds
  related session peer :=
    session.status.timing = pace.timing ∧ session.host.interruptEnabled = pace.enabled ∧
      ∃ time, peer = ⟨session.host.retimed pace'.enabled time,
        { session.status with timing := pace'.timing }⟩

section Pacing

variable {pace pace' : Pace}

theorem paced_issue (move : Move) : (pacing pace pace').Same (Driver.issue move) := by
  rintro session _ ⟨timing, enabled, time, rfl⟩
  refine Comparison.beside_get (Comparison.beside_lift ?_)
  obtain ⟨found, carries⟩ := carryOut_retimed session.host pace'.enabled time move
  dsimp only
  rw [timing]
  cases carried : (session.host.placed move).carryOut move.target move.word with
  | error halt =>
    rw [carried] at carries
    rw [issue_of_error carried, issue_of_error carries]
    exact together_error halt
  | ok out =>
    rw [carried] at carries
    refine together_of_endsIn (issue_of_ok carried Timing.patient_move)
      (issue_of_ok carries Timing.patient_move) ?_
    rintro one other ⟨counted, left, -⟩ ⟨counted', left', -⟩
    obtain ⟨later, same⟩ := settled_retimed session.host pace'.enabled time pace.timing
      pace'.timing move out
    refine ⟨counted.trans counted'.symm, timing, ?_, later, ?_⟩
    · rw [left]
      exact enabled
    · rw [left, left', settled_under, ← same]

theorem paced_modify (change : Status → Status) (untimed : Untimed change) :
    (pacing pace pace').Same (modify change : Driver Unit) := by
  rintro session _ ⟨timing, enabled, time, rfl⟩
  refine ⟨rfl, (untimed.timing_eq _).trans timing, enabled, time, ?_⟩
  exact congrArg (Session.mk _) (untimed session.status pace'.timing)

theorem paced_raise (fault : Fault) :
    (pacing pace pace').Same (liftM (Program.raise fault) : Driver Unit) := by
  rintro session _ ⟨timing, enabled, time, rfl⟩
  exact Comparison.beside_lift ⟨rfl, timing, enabled, time, rfl⟩

theorem paced_setIndex (w : Window) (index : UInt16) :
    (pacing pace pace').Same (Driver.setIndex w index) := by
  rintro session _ ⟨timing, enabled, time, rfl⟩
  have sought (pace : Pace) (chip : Chip) :
      (Driver.seek pace.timing w index).Ensures (pace.timing.Allows pace.rounds) pace.rounds chip
        fun settled last => settled = decide (index.toNat ≤ (chip.visible w).length) ∧
          last = chip.sought pace.timing w index :=
    ensures_seek Timing.patient_index ⟨rfl, rfl⟩
  have seeks : (pacing pace pace').Beside (liftM (Driver.seek pace.timing w index) : Driver Bool)
      (liftM (Driver.seek pace'.timing w index) : Driver Bool) session
      ⟨session.host.retimed pace'.enabled time, { session.status with timing := pace'.timing }⟩
      fun settled settled' session peer =>
        settled = settled' ∧ (pacing pace pace').related session peer := by
    refine Comparison.beside_lift (together_of_endsIn (sought pace _) (sought pace' _) ?_)
    rintro one other ⟨settled, left⟩ ⟨settled', left'⟩
    obtain ⟨later, same⟩ := sought_retimed session.host pace'.enabled time pace.timing
      pace'.timing w index
    refine ⟨settled.trans settled'.symm, timing, ?_, later, ?_⟩
    · rw [left]
      exact (interruptEnabled_sought _ _ w index).trans enabled
    · rw [left, left', ← same]
  refine Comparison.beside_get (Comparison.Beside.bind (timing ▸ seeks) ?_)
  rintro settled _ session peer ⟨rfl, related⟩
  cases settled with
  | true => exact paced_modify _ (fun _ _ => rfl) session peer related
  | false =>
    exact Comparison.same_bind (paced_modify _ fun _ _ => rfl) (fun _ => paced_raise _) session
      peer related

theorem paced_checkAccess (w : Window) : (pacing pace pace').Same (Driver.checkAccess w) := by
  rintro session _ ⟨timing, enabled, time, rfl⟩
  refine Comparison.beside_get ?_
  have related : (pacing pace pace').related session ⟨session.host.retimed pace'.enabled time,
      { session.status with timing := pace'.timing }⟩ := ⟨timing, enabled, time, rfl⟩
  cases flagged : session.status.outOfBounds.contains w with
  | true => exact paced_raise (.outOfBoundsAccess w) session _ related
  | false => exact Comparison.same_pure () session _ related

theorem paced_readData (w : Window) (count : Nat) :
    (pacing pace pace').Same (liftM (Program.readBytes w.registers.data count) : Driver Bytes) := by
  have reads (rounds : Nat) (chip : Chip) :
      (Program.readBytes w.registers.data count).run rounds chip =
        .ok ⟨Memory.read (chip.visible w) (chip.window w).cursor count, chip.advance w count,
          []⟩ := by cases w <;> rfl
  rintro session _ ⟨timing, enabled, time, rfl⟩
  refine Comparison.beside_lift ?_
  rw [reads, reads]
  exact ⟨rfl, timing, enabled, time, rfl⟩

theorem paced_writeData (w : Window) (bytes : Bytes) :
    (pacing pace pace').Same (liftM (Program.writeBytes w.registers.data bytes) : Driver Unit) := by
  have writes (rounds : Nat) (chip : Chip) :
      (Program.writeBytes w.registers.data bytes).run rounds chip =
        .ok ⟨(), (chip.overwrite w (Memory.write (chip.visible w) (chip.window w).cursor
          bytes)).advance w bytes.length, []⟩ := by cases w <;> rfl
  rintro session _ ⟨timing, enabled, time, rfl⟩
  refine Comparison.beside_lift ?_
  have kept := congrArg Circumstances.interruptEnabled (circumstances_overwrite session.host w
    (Memory.write (session.host.visible w) (session.host.window w).cursor bytes))
  rw [writes, writes, overwrite_retimed]
  exact ⟨rfl, timing, kept.trans enabled, time, rfl⟩

theorem paced_readFree (traffic : Traffic) :
    (pacing pace pace').Same (liftM (Program.read16 traffic.freeRegister) : Driver UInt16) := by
  have reads (rounds : Nat) (chip : Chip) : (Program.read16 traffic.freeRegister).run rounds chip =
      .ok ⟨freeCountNoise ||| chip.free traffic, chip, []⟩ := by cases traffic <;> rfl
  rintro session _ ⟨timing, enabled, time, rfl⟩
  refine Comparison.beside_lift ?_
  rw [reads, reads, free_retimed]
  exact ⟨rfl, timing, enabled, time, rfl⟩

theorem pacing_keeps (pace pace' : Pace) : (pacing pace pace').Keeps where
  issue := paced_issue
  setIndex := paced_setIndex
  checkAccess := paced_checkAccess
  readData := paced_readData
  writeData := paced_writeData
  readFree := paced_readFree
  raise := paced_raise
  modify := paced_modify

/-- Whether a step neither asks for the timing nor sets what the two chips may differ in. -/
def impartial : Step Change → Bool
  | .perform .timing | .adjust (.setInterruptEnabled _) | .adjust (.setClock _) => false
  | _ => true

theorem adjust_retimed {change : Change} (fair : impartial (.adjust change)) (chip : Chip)
    (enabled : Bool) (time : UInt64) :
    adjust change (chip.retimed enabled time) = (adjust change chip).retimed enabled time ∧
      (adjust change chip).interruptEnabled = chip.interruptEnabled := by
  cases change with
  | setFree traffic free => cases traffic <;> exact ⟨rfl, rfl⟩
  | setInterruptEnabled _ | setClock _ => exact (Bool.false_ne_true fair).elim
  | _ => exact ⟨rfl, rfl⟩

/-- Nothing but the timing, the time and the interrupt tells two steps apart, and the interrupt is
as the run has found it. -/
structure InStep (pace pace' : Pace) (one other : Taken Chip) : Prop where
  answer : other.answer = one.answer
  status : other.session.status = { one.session.status with timing := pace'.timing }
  host : other.session.host =
    one.session.host.retimed other.session.host.interruptEnabled other.session.host.clock
  enabled : one.session.host.interruptEnabled = pace.enabled
  enabled' : other.session.host.interruptEnabled = pace'.enabled

theorem inStep_of_related {one other : Taken Chip} (same : one.answer = other.answer)
    (related : (pacing pace pace').related one.session other.session) :
    InStep pace pace' one other := by
  obtain ⟨timing, enabled, time, peer⟩ := related
  refine ⟨same.symm, ?_, ?_, enabled, ?_⟩
  · rw [peer]
  · rw [peer]
    rfl
  · rw [peer]
    rfl

theorem step_paced {step : Step Change} (fair : impartial step) (session peer : Session Chip)
    (related : (pacing pace pace').related session peer) :
    Together (pace.timing.Allows pace.rounds) (pace'.timing.Allows pace'.rounds)
      (session.take pace.rounds step) (peer.take pace'.rounds step) fun one other =>
        (pacing pace pace').related one.session other.session ∧ InStep pace pace' one other := by
  cases step with
  | adjust change =>
    obtain ⟨timing, enabled, time, rfl⟩ := related
    obtain ⟨retimed, kept⟩ := adjust_retimed fair session.host pace'.enabled time
    have after : (pacing pace pace').related ⟨adjust change session.host, session.status⟩
        ⟨adjust change (session.host.retimed pace'.enabled time),
          { session.status with timing := pace'.timing }⟩ :=
      ⟨timing, kept.trans enabled, time, by rw [retimed]⟩
    exact ⟨after, inStep_of_related rfl after⟩
  | perform operation =>
    refine Session.perform_together (pacing pace pace') ?_
    by_cases query : operation.IsQuery
    · refine Comparison.beside_query query fun log log' => ?_
      have recalled : operation.recalled session.status = operation.recalled peer.status := by
        obtain ⟨timing, enabled, time, rfl⟩ := related
        cases operation with
        | timing => exact (Bool.false_ne_true fair).elim
        | _ => rfl
      exact ⟨related, inStep_of_related recalled related⟩
    · refine Together.mono ((pacing_keeps pace pace').perform query session peer related) ?_
      rintro out out' ⟨same, after⟩ log log'
      exact ⟨after, inStep_of_related same after⟩

end Pacing

structure Pace.Steady (pace : Pace) : Prop where
  moving : pace.timing.pollInterval ≠ 0
  enough : pace.timing.enoughRounds ≤ pace.rounds

def runAt (pace : Pace) (time : UInt64) (steps : List (Step Change)) :
    Except Halt (List (Taken Chip)) :=
  (Session.start (atReset.retimed pace.enabled time) pace.timing).run pace.rounds steps

theorem stock_retimed (chip : Chip) (enabled : Bool) (time : UInt64) (traffic : Traffic) :
    (chip.retimed enabled time).stock traffic = chip.stock traffic :=
  stock_congr rfl (fun pool => free_retimed chip enabled time pool) traffic

variable {pace : Pace} {time : UInt64} {steps : List (Step Change)} {halt : Halt}

theorem runAt_not_allows (steady : pace.Steady)
    (clock : runAt pace time steps ≠ .error .clockOverflow)
    (halted : runAt pace time steps = .error halt) : ¬pace.timing.Allows pace.rounds halt := by
  intro allows
  rw [allows.eq_clockOverflow steady.moving steady.enough] at halted
  exact clock halted

theorem runAt_halts (steady : pace.Steady)
    (clock : runAt pace time steps ≠ .error .clockOverflow)
    (halted : runAt pace time steps = .error halt) :
    ∃ traffic, halt = .freeCountOverflow traffic ∧
      ∃ owner free, .adjust (.setFree owner free) ∈ steps := by
  have sameTiming : (Session.start (atReset.retimed pace.enabled time) pace.timing).status.timing =
      pace.timing := rfl
  have suffers : Suffers pace.timing pace.rounds halt :=
    (run_unlatched sameTiming rfl).of_error halted
  obtain allows | ⟨traffic, rfl⟩ := suffers
  · exact absurd allows (runAt_not_allows steady clock halted)
  · refine ⟨traffic, rfl, Classical.byContradiction fun untouched => ?_⟩
    have within : ∀ traffic, (atReset.retimed pace.enabled time).stock traffic ≤
        traffic.capacity := fun traffic =>
      Nat.le_of_eq ((stock_retimed atReset pace.enabled time traffic).trans (stock_atReset traffic))
    have counts : KeepsCounts (.freeCountOverflow traffic) :=
      (stock_le_capacity (fun owner free member => untouched ⟨owner, free, member⟩)
        within).of_error halted
    exact counts

/-- Two runs from a reset that differ in the pace of the driver, in the time and in the interrupt
go through the same. Each step gives the same answer and leaves the same behind, except for the
time, and each run keeps the interrupt as it was. If one halts, because a free count has been set
from outside to more than there is room for, the other halts alike. -/
theorem pace_immaterial (pace pace' : Pace) (time time' : UInt64) (steps : List (Step Change))
    (steady : pace.Steady) (steady' : pace'.Steady) (fair : ∀ step ∈ steps, impartial step)
    (clock : runAt pace time steps ≠ .error .clockOverflow)
    (clock' : runAt pace' time' steps ≠ .error .clockOverflow) :
    (∃ taken others, runAt pace time steps = .ok taken ∧ runAt pace' time' steps = .ok others ∧
      Session.Matching (fun _ => InStep pace pace') steps taken others) ∨
    ∃ traffic, runAt pace time steps = .error (.freeCountOverflow traffic) ∧
      runAt pace' time' steps = .error (.freeCountOverflow traffic) ∧
      ∃ owner free, .adjust (.setFree owner free) ∈ steps := by
  have related : (pacing pace pace').related
      (Session.start (atReset.retimed pace.enabled time) pace.timing)
      (Session.start (atReset.retimed pace'.enabled time') pace'.timing) := ⟨rfl, rfl, time', rfl⟩
  have together : Together (pace.timing.Allows pace.rounds) (pace'.timing.Allows pace'.rounds)
      (runAt pace time steps) (runAt pace' time' steps)
      (Session.Matching (fun _ => InStep pace pace') steps) :=
    Session.run_together (fun step member session peer related =>
      step_paced (fair step member) session peer related) related
  obtain ended | ⟨halt, halted, halted'⟩ := together.ok_or_error
    (fun _ => runAt_not_allows steady clock) (fun _ => runAt_not_allows steady' clock')
  · exact .inl ended
  · obtain ⟨traffic, rfl, touched⟩ := runAt_halts steady clock halted
    exact .inr ⟨traffic, halted, halted', touched⟩

/-- An allocation whose completion is held back, an index past the end, an allocation for which
there is no room any more and a received frame. -/
def restlessSteps : List (Step Change) :=
  [.perform .setUp, .adjust (.setStalled true), .perform (.allocate .data 5),
    .perform (.setIndex .dataTx 9), .adjust (.setStalled false), .adjust (.setFree .data 7),
    .perform (.allocate .data 8), .adjust (.receive [1, 2]), .perform (.mountRx .dataRx),
    .perform (.isOutOfBounds .dataTx), .perform (.send .data 5)]

def hurried : Pace := ⟨{ moveTimeout := 7, indexTimeout := 0, pollInterval := 3 }, 4, true⟩

def leisurely : Pace := ⟨{ moveTimeout := 90, indexTimeout := 20, pollInterval := 9 }, 12, false⟩

theorem pace_immaterial_restlessSteps :
    ∃ taken others, runAt hurried 5 restlessSteps = .ok taken ∧
      runAt leisurely 1000 restlessSteps = .ok others ∧
      Session.Matching (fun _ => InStep hurried leisurely) restlessSteps taken others := by
  have ends : (runAt hurried 5 restlessSteps).isOk = true := by decide +kernel
  have ends' : (runAt leisurely 1000 restlessSteps).isOk = true := by decide +kernel
  obtain ended | ⟨traffic, halted, -⟩ := pace_immaterial hurried leisurely 5 1000 restlessSteps
    ⟨by decide, by decide⟩ ⟨by decide, by decide⟩ (by decide)
    (fun halted => by rw [halted] at ends; cases ends)
    (fun halted => by rw [halted] at ends'; cases ends')
  · exact ended
  · rw [halted] at ends
    cases ends

end RadioWindows.Chip
