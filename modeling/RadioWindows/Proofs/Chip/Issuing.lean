import RadioWindows.Proofs.Chip.Circumstances
import RadioWindows.Proofs.Chip.Signals
import RadioWindows.Proofs.ControlWord

/-! A move on the chip from beginning to end. Around the moment the control word is written the
driver only touches circumstances, and for a copy the count register that holds its operands; so
what a move does is what the firmware does with its word. Leftover bits are cleared before the word
is written and other windows have bits of their own, so a wait ends at the first look unless the
chip holds its completions back. -/

namespace RadioWindows.Chip

section Registers

theorem answer_control (chip : Chip) (w : Window) (value : UInt16) :
    Host.answer (.write16 w.registers.control value) chip = ((), ·) <$> chip.move w ⟨value⟩ := by
  cases w <;> rfl

theorem answer_writeCount (chip : Chip) (w : Window) (value : UInt16) :
    Host.answer (.write16 w.registers.count value) chip =
      .ok ((), chip.modifyWindow w fun window => { window with count := value }) := by
  cases w <;> rfl

theorem answer_readCount (chip : Chip) (w : Window) :
    Host.answer (.read16 w.registers.count) chip = .ok ((chip.window w).count, chip) := by
  cases w <;> rfl

theorem answer_index (chip : Chip) (w : Window) (index : UInt16) :
    Host.answer (.write16 w.registers.index index) chip = .ok ((), chip.setIndex w index) := by
  cases w <;> rfl

theorem answer_status (chip : Chip) (w : Window) :
    Host.answer (.read16 w.registers.status) chip =
      .ok (if (chip.window w).indexBusy then Register.indexBusy else 0, chip) := by
  cases w <;> rfl

theorem answer_readData (chip : Chip) (w : Window) (count : Nat) :
    Host.answer (.readBytes w.registers.data count) chip =
      .ok (Memory.read (chip.visible w) (chip.window w).cursor count, chip.advance w count) := by
  cases w <;> rfl

theorem answer_writeData (chip : Chip) (w : Window) (bytes : Bytes) :
    Host.answer (.writeBytes w.registers.data bytes) chip =
      .ok ((), (chip.overwrite w
        (Memory.write (chip.visible w) (chip.window w).cursor bytes)).advance w bytes.length) := by
  cases w <;> rfl

theorem answer_free (chip : Chip) (traffic : Traffic) :
    Host.answer (.read16 traffic.freeRegister) chip =
      .ok (freeCountNoise ||| chip.free traffic, chip) := by
  cases traffic <;> rfl

def switched (chip : Chip) (enabled : Bool) : Chip := { chip with interruptEnabled := enabled }

theorem answer_disable (chip : Chip) :
    Host.answer .disableInterrupt chip = .ok (chip.interruptEnabled, chip.switched false) := rfl

theorem answer_enable (chip : Chip) :
    Host.answer .enableInterrupt chip = .ok (chip.interruptEnabled, chip.switched true) := rfl

def reported (chip : Chip) (fault : Fault) : Chip :=
  { chip with faults := chip.faults ++ [fault] }

theorem answer_report (chip : Chip) (fault : Fault) :
    Host.answer (.report fault) chip = .ok ((), chip.reported fault) := rfl

end Registers

/-- Chips that differ at most in their circumstances. -/
structure Alike (chip other : Chip) : Prop where
  windows : chip.windows = other.windows
  scratch : chip.scratch = other.scratch
  mgmtFree : chip.mgmtFree = other.mgmtFree
  dataFree : chip.dataFree = other.dataFree
  received : chip.received = other.received
  sent : chip.sent = other.sent
  failing : chip.failing = other.failing

namespace Alike

variable {chip other third : Chip}

theorem refl (chip : Chip) : chip.Alike chip := ⟨rfl, rfl, rfl, rfl, rfl, rfl, rfl⟩

theorem symm (alike : chip.Alike other) : other.Alike chip where
  windows := alike.windows.symm
  scratch := alike.scratch.symm
  mgmtFree := alike.mgmtFree.symm
  dataFree := alike.dataFree.symm
  received := alike.received.symm
  sent := alike.sent.symm
  failing := alike.failing.symm

theorem trans (first : chip.Alike other) (second : other.Alike third) : chip.Alike third where
  windows := first.windows.trans second.windows
  scratch := first.scratch.trans second.scratch
  mgmtFree := first.mgmtFree.trans second.mgmtFree
  dataFree := first.dataFree.trans second.dataFree
  received := first.received.trans second.received
  sent := first.sent.trans second.sent
  failing := first.failing.trans second.failing

theorem window (alike : chip.Alike other) (w : Window) : chip.window w = other.window w := by
  rw [Chip.window, alike.windows, Chip.window]

theorem free (alike : chip.Alike other) (traffic : Traffic) :
    chip.free traffic = other.free traffic := by
  cases traffic
  · exact alike.mgmtFree
  · exact alike.dataFree

end Alike

theorem alike_under (chip : Chip) (found : Circumstances) : (chip.under found).Alike chip :=
  ⟨rfl, rfl, rfl, rfl, rfl, rfl, rfl⟩

theorem alike_latch (chip : Chip) : chip.latch.Alike chip := by
  rw [latch_eq]
  exact ⟨rfl, rfl, rfl, rfl, rfl, rfl, rfl⟩

theorem alike_reported (chip : Chip) (fault : Fault) : (chip.reported fault).Alike chip :=
  ⟨rfl, rfl, rfl, rfl, rfl, rfl, rfl⟩

theorem alike_delayed (chip : Chip) (timeout : UInt64) (interval : UInt32) :
    (chip.delayed timeout interval).Alike chip := ⟨rfl, rfl, rfl, rfl, rfl, rfl, rfl⟩

theorem alike_switched (chip : Chip) (enabled : Bool) : (chip.switched enabled).Alike chip :=
  ⟨rfl, rfl, rfl, rfl, rfl, rfl, rfl⟩

theorem alike_acknowledged (chip : Chip) (w : Window) : (chip.acknowledged w).Alike chip := by
  cases w <;> exact ⟨rfl, rfl, rfl, rfl, rfl, rfl, rfl⟩

def placed (chip : Chip) (move : Move) : Chip :=
  match move.pool with
  | .copy src dst =>
    chip.modifyWindow move.target fun window => { window with count := Move.operands src dst }
  | _ => chip

theorem placed_under (chip : Chip) (found : Circumstances) (move : Move) :
    (chip.under found).placed move = (chip.placed move).under found := by
  rw [placed, placed]
  cases move.pool <;> rfl

section Wait

variable (chip : Chip) (timing : Timing) (w : Window)

/-- The chip once the driver has waited for a completion and reported it if it did not come. -/
def awaited : Chip :=
  if chip.latch.shows w then chip.latch.acknowledged w
  else (chip.latch.delayed timing.moveTimeout timing.pollInterval).reported (.moveTimeout w)

theorem alike_awaited : (chip.awaited timing w).Alike chip := by
  rw [awaited]
  split
  · exact (alike_acknowledged _ w).trans (alike_latch chip)
  · exact ((alike_reported _ _).trans (alike_delayed _ _ _)).trans (alike_latch chip)

end Wait

section Settled

variable (chip : Chip) (timing : Timing) (move : Move) (out : Nat × Chip)

/-- The circumstances under which the driver writes the word of a move. -/
def quiet : Circumstances :=
  { chip.circumstances with
    interrupt := (chip.cleared move.target).interrupt
    interrupt2 := (chip.cleared move.target).interrupt2
    interruptEnabled := false }

/-- The circumstances under which it waits for the completion. -/
def listening : Circumstances :=
  { (chip.quiet move).concluding move.target move.word with interruptEnabled := true }

theorem cleared_quiet :
    (chip.switched false).cleared move.target = chip.under (chip.quiet move) := by
  rw [quiet]
  cases move.target <;> rfl

def waiting : Chip := (out.2.restart move.target out.1).under (chip.listening move)

def settled : Chip :=
  ((chip.waiting move out).awaited timing move.target).switched chip.interruptEnabled

/-- Whether the completion of a move is seen: it is signalled, or one of the same window is still on
its way. -/
def heeds (w : Window) : Bool := decide (w ∈ chip.unlatched) || !chip.stalled

theorem shows_waiting :
    (chip.waiting move out).latch.shows move.target = chip.heeds move.target := by
  have cleared : (chip.waiting move out).shows move.target =
      (chip.cleared move.target).shows move.target := rfl
  have onTheirWay : (chip.waiting move out).unlatched =
      if chip.stalled then chip.unlatched else chip.unlatched ++ [move.target] := rfl
  rw [shows_latch rfl, cleared, shows_cleared, onTheirWay, heeds]
  cases chip.stalled <;> simp

theorem clock_waiting : (chip.waiting move out).latch.clock = chip.clock := clock_latch _

theorem alike_settled :
    (chip.settled timing move out).Alike (out.2.restart move.target out.1) :=
  ((alike_switched _ _).trans (alike_awaited _ timing move.target)).trans (alike_under _ _)

theorem settled_under (found : Circumstances) :
    chip.settled timing move (out.map id (·.under found)) = chip.settled timing move out := rfl

theorem settled_of_heeds (heeds : chip.heeds move.target = true) :
    (chip.settled timing move out).faults = chip.faults ∧
      (chip.settled timing move out).clock = chip.clock := by
  rw [settled, awaited, if_pos ((chip.shows_waiting move out).trans heeds), switched]
  simp only [faults_acknowledged, clock_acknowledged, faults_latch, clock_latch]
  exact ⟨rfl, rfl⟩

theorem settled_of_not_heeds (deaf : chip.heeds move.target = false) :
    (chip.settled timing move out).faults = chip.faults ++ [.moveTimeout move.target] ∧
      (chip.HasTime timing.moveTimeout timing.pollInterval →
        (chip.settled timing move out).clock.toNat =
          chip.clock.toNat + overdue timing.moveTimeout timing.pollInterval) := by
  rw [settled, awaited, if_neg (by simp [shows_waiting, deaf]), switched, reported]
  refine ⟨congrArg (· ++ _) (faults_latch _), fun time => ?_⟩
  rw [HasTime, ← chip.clock_waiting move out] at time
  rw [← chip.clock_waiting move out]
  exact clock_delayed time

theorem unlatched_settled : (chip.settled timing move out).unlatched = [] := by
  have none : (chip.waiting move out).latch.unlatched = [] := unlatched_latch rfl
  rw [settled, awaited, switched]
  split
  · exact (unlatched_acknowledged _ _).trans none
  · exact none

end Settled

variable {allowed : Halt → Prop} {timing : Timing} {rounds : Nat} {move : Move} {chip : Chip}

theorem ensures_placeOperands {post : Unit → Chip → Prop} :
    move.placeOperands.Ensures allowed rounds chip post ↔ post () (chip.placed move) := by
  obtain ⟨w, pool, destination, size⟩ := move
  cases pool with
  | copy src dst =>
    simp only [Move.placeOperands, Program.write16, Program.ensures_tell, answer_writeCount,
      endsIn_ok]
    rfl
  | _ => rfl

theorem ensures_restoreInterrupt {wasEnabled : Bool} {post : Unit → Chip → Prop} :
    (Program.restoreInterrupt wasEnabled).Ensures allowed rounds chip post ↔
      post () (chip.switched wasEnabled) := by
  rw [Program.restoreInterrupt, Program.ensures_tell]
  cases wasEnabled <;> rfl

def HasTimeFor (chip : Chip) (timing : Timing) (move : Move) : Prop :=
  chip.heeds move.target = false → chip.HasTime timing.moveTimeout timing.pollInterval

/-- A move gives the count that carrying out its word gives and leaves the chip settled. It halts
where the word does, and otherwise only for lack of rounds or of time. -/
theorem issue_timely {post : UInt16 → Chip → Prop}
    (carried : EndsIn allowed ((chip.placed move).carryOut move.target move.word) fun out =>
      (¬chip.HasTimeFor timing move → allowed .clockOverflow) ∧
        (timing.pollInterval = 0 ∨
          rounds < timing.moveTimeout.toNat / timing.pollInterval.toNat + 2 →
            allowed .outOfRounds) ∧
        (chip.HasTimeFor timing move → post (.ofNat out.1) (chip.settled timing move out))) :
    (move.issue timing).Ensures allowed rounds chip post := by
  rw [Move.issue]
  simp only [Program.holdingInterrupt, Program.write16, Program.read16, Program.ensures_bind,
    Program.ensures_log, Program.ensures_ask, Program.ensures_tell, Program.ensures_done,
    Program.ensures_pure, answer_disable, answer_enable, answer_control, answer_readCount,
    endsIn_ok, endsIn_map, ensures_clear, ensures_placeOperands, ensures_restoreInterrupt,
    cleared_quiet, placed_under, move_under]
  refine EndsIn.mono carried ?_
  rintro out ⟨late, short, established⟩
  have enabled : ((out.2.restart move.target out.1).under
      ((chip.quiet move).concluding move.target move.word)).switched true =
        chip.waiting move out := rfl
  have shown := chip.shows_waiting move out
  have counted : ((chip.settled timing move out).window move.target).count = .ofNat out.1 := by
    rw [(chip.alike_settled timing move out).window, restart, window_modifyWindow_self]
  have time : (chip.waiting move out).latch.HasTime timing.moveTimeout timing.pollInterval ↔
      chip.HasTime timing.moveTimeout timing.pollInterval := by
    rw [HasTime, clock_waiting, HasTime]
  rw [← counted] at established
  rw [enabled]
  refine await_timely (fun missed full => late fun inTime => ?_) short ?_ ?_
  · exact full (time.mpr (inTime (shown.symm.trans missed)))
  · intro seen
    rw [settled, awaited, if_pos seen] at established
    rw [Program.ensures_raiseIf, if_neg (by simp)]
    exact established fun deaf => absurd (shown.symm.trans seen) (by simp [deaf])
  · intro missed inTime
    rw [settled, awaited, if_neg (by simp [missed])] at established
    rw [Program.ensures_raiseIf, if_pos (by simp), answer_report, endsIn_ok]
    exact established fun _ => time.mp inTime

theorem ensures_issue {post : UInt16 → Chip → Prop}
    (carried : EndsIn allowed ((chip.placed move).carryOut move.target move.word) fun out =>
      Patient allowed rounds timing.moveTimeout timing.pollInterval (chip.heeds move.target) ∧
        (chip.HasTimeFor timing move → post (.ofNat out.1) (chip.settled timing move out))) :
    (move.issue timing).Ensures allowed rounds chip post := by
  refine issue_timely (EndsIn.mono carried ?_)
  rintro out ⟨patient, established⟩
  exact ⟨fun full => patient.late (Classical.not_imp.mp full).1, patient.short, established⟩

theorem issue_of_error {halt : Halt}
    (halted : (chip.placed move).carryOut move.target move.word = .error halt) :
    (move.issue timing).run rounds chip = .error halt := by
  have ends : (move.issue timing).Ensures (· = halt) rounds chip fun _ _ => False := by
    refine ensures_issue ?_
    rw [halted]
    exact rfl
  exact endsIn_eq_error.mp ends

theorem issue_of_ok {out : Nat × Chip}
    (carried : (chip.placed move).carryOut move.target move.word = .ok out)
    (patient : Patient allowed rounds timing.moveTimeout timing.pollInterval
      (chip.heeds move.target)) :
    (move.issue timing).Ensures allowed rounds chip fun count after =>
      count = .ofNat out.1 ∧ after = chip.settled timing move out ∧
        chip.HasTimeFor timing move := by
  refine ensures_issue ?_
  rw [carried]
  exact ⟨patient, fun inTime => ⟨rfl, rfl, inTime⟩⟩

theorem ensures_carried {post : UInt16 → Chip → Prop}
    (carried : EndsIn (timing.Allows rounds) ((chip.placed move).carryOut move.target move.word)
      fun out => ∀ last, last.Alike (out.2.restart move.target out.1) → post (.ofNat out.1) last) :
    (move.issue timing).Ensures (timing.Allows rounds) rounds chip post :=
  ensures_issue (EndsIn.mono carried fun out established =>
    ⟨Timing.patient_move, fun _ => established _ (chip.alike_settled timing move out)⟩)

end RadioWindows.Chip
