import RadioWindows.Proofs.Asking
import RadioWindows.Proofs.Chip.Answering
import RadioWindows.Proofs.Stalling

/-! Interrupt bits that the driver leaves alone. It shares the interrupt registers with others, and
a bit is cleared by writing it; so every mask it writes is made of completion bits and of the
summary bit alone. Nothing else in the registers changes, not even between two requests of one
operation. A move clears its own completion bit and, if it has been signalled in the second
register, those signalled beside it. -/

namespace RadioWindows

/-- The bits of the first interrupt register that have nothing to do with windows. -/
def Register.foreign : UInt8 := ~~~(secondPending ||| dataRxMoved ||| dataTxMoved)

def Register.foreign2 : UInt16 := ~~~secondMoved

def Request.SparesForeign : Request → Prop
  | write8 register value => register = Register.interrupt → value &&& Register.foreign = 0
  | write16 register value => register = Register.interrupt2 → value &&& Register.foreign2 = 0
  | _ => True

section Asked

theorem asks_write16 {register : UInt8} (elsewhere : register ≠ Register.interrupt2)
    (value : UInt16) : (Program.write16 register value).Asks Request.SparesForeign :=
  Program.asks_tell fun same => absurd same elsewhere

theorem asks_clear (w : Window) :
    w.registers.completion.clear.Asks Request.SparesForeign := by
  cases w <;> exact Program.asks_tell fun _ => rfl

theorem asks_acknowledge (w : Window) :
    w.registers.completion.acknowledge.Asks Request.SparesForeign := by
  cases w
  case dataRx | dataTx => exact Program.asks_tell fun _ => rfl
  all_goals
    exact Program.asks_bind (Program.asks_tell fun _ => rfl) fun _ =>
      Program.asks_tell fun _ => rfl

theorem asks_await (timing : Timing) (w : Window) :
    (w.registers.completion.await timing).Asks Request.SparesForeign := by
  refine Program.asks_bind (fun _ => trivial) fun completed => ?_
  cases completed
  · exact trivial
  · exact Program.asks_bind (asks_acknowledge w) fun _ => trivial

theorem asks_placeOperands (move : Move) : move.placeOperands.Asks Request.SparesForeign := by
  have elsewhere : move.target.registers.count ≠ Register.interrupt2 := by
    cases move.target <;> decide
  rw [Move.placeOperands]
  split
  · exact asks_write16 elsewhere _
  · exact trivial

theorem asks_restoreInterrupt (wasEnabled : Bool) :
    (Program.restoreInterrupt wasEnabled).Asks Request.SparesForeign := by
  cases wasEnabled <;> exact Program.asks_tell trivial

theorem asks_issue (timing : Timing) (move : Move) :
    (move.issue timing).Asks Request.SparesForeign := by
  have elsewhere : move.target.registers.control ≠ Register.interrupt2 := by
    cases move.target <;> decide
  have logged (record : LogRecord) : (Program.log record).Asks Request.SparesForeign := trivial
  have counted (register : UInt8) : (Program.read16 register).Asks Request.SparesForeign :=
    ⟨trivial, fun _ => trivial⟩
  refine Program.asks_bind (logged _) fun _ => ⟨trivial, fun found => ?_⟩
  refine Program.asks_bind ?_ fun count =>
    Program.asks_bind (asks_restoreInterrupt found) fun _ => trivial
  refine Program.asks_bind (asks_clear _) fun _ => ?_
  refine Program.asks_bind (asks_placeOperands move) fun _ => ?_
  refine Program.asks_bind (asks_write16 elsewhere _) fun _ => ?_
  refine Program.asks_bind (Program.asks_tell trivial) fun _ => ?_
  refine Program.asks_bind (asks_await timing _) fun completed => ?_
  refine Program.asks_bind (counted _) fun count => ?_
  exact Program.asks_bind (Program.asks_raiseIf (fun _ => trivial) _ _) fun _ => trivial

theorem composes_sparesForeign :
    Program.Composes fun _ program => program.Asks Request.SparesForeign where
  done _ := trivial
  bind := Program.asks_bind
  settingUp := trivial
  scratchSized _ := trivial
  raise _ := ⟨trivial, fun _ => trivial⟩
  readFree _ := ⟨trivial, fun _ => trivial⟩
  readData _ _ := ⟨trivial, fun _ => trivial⟩
  writeData _ _ := ⟨trivial, fun _ => trivial⟩
  seek _ w _ := ⟨fun same => absurd same (by cases w <;> decide), fun _ _ => trivial⟩
  issue := asks_issue

end Asked

namespace Chip

/-- The interrupt bits that have nothing to do with windows. -/
def foreign (chip : Chip) : UInt8 × UInt16 :=
  (chip.interrupt &&& Register.foreign, chip.interrupt2 &&& Register.foreign2)

section Foreign

theorem foreign_signal (chip : Chip) (w : Window) : (chip.signal w).foreign = chip.foreign := by
  cases w
  case dataRx | dataTx => exact congrArg (·, _) (Masks.or_and_of_disjoint8 _ rfl)
  all_goals exact congrArg (_, ·) (Masks.or_and_of_disjoint16 _ rfl)

theorem foreign_latch (chip : Chip) : chip.latch.foreign = chip.foreign := by
  have signalled (windows : List Window) (chip : Chip) :
      (windows.foldl signal chip).foreign = chip.foreign := by
    induction windows generalizing chip with
    | nil => rfl
    | cons w rest ih => rw [List.foldl_cons, ih, foreign_signal]
  rw [latch]
  split
  · exact signalled chip.unlatched chip
  · rfl

theorem answer_foreign (request : Request) (chip : Chip) (spares : request.SparesForeign) :
    EndsIn (fun _ => True) (Host.answer request chip) fun answered =>
      answered.2.foreign = chip.foreign := by
  have kept (found : Circumstances) (stirs : chip.Stirs request found) :
      (found.interrupt &&& Register.foreign, found.interrupt2 &&& Register.foreign2) =
        chip.foreign := by
    cases stirs with
    | latched look => exact foreign_latch chip
    | cleared value => exact congrArg (·, _) (Masks.and_not_and_of_disjoint8 _ (spares rfl))
    | cleared2 value => exact congrArg (_, ·) (Masks.and_not_and_of_disjoint16 _ (spares rfl))
    | _ => rfl
  exact (chip.stirs_answer request).mono fun answered stirs => kept _ stirs

end Foreign

theorem latch_of_still {chip : Chip} (still : chip.unlatched = []) : chip.latch = chip := by
  rw [latch, still, List.foldl_nil, ← still]
  exact ite_self chip

section Settled

variable {chip : Chip} (timing : Timing) (move : Move) (out : Nat × Chip)

theorem interrupts_settled (still : chip.unlatched = []) (prompt : chip.stalled = false) :
    (chip.settled timing move out).interrupt = (chip.acknowledged move.target).interrupt ∧
      (chip.settled timing move out).interrupt2 = (chip.acknowledged move.target).interrupt2 := by
  have heeded : chip.heeds move.target = true := by simp [heeds, prompt]
  have latched : (chip.waiting move out).latch =
      { (chip.waiting move out).signal move.target with unlatched := [] } := by
    have onTheirWay : (chip.waiting move out).unlatched = [move.target] := by
      change (if chip.stalled then chip.unlatched else chip.unlatched ++ [move.target]) = _
      rw [prompt, still]
      rfl
    rw [latch, onTheirWay]
    exact if_pos rfl
  rw [settled, awaited, if_pos ((chip.shows_waiting move out).trans heeded), latched, waiting,
    listening, quiet]
  cases move.target
  case dataRx | dataTx => exact ⟨Masks.and_not_or_and_not8 _ rfl, rfl⟩
  all_goals exact ⟨rfl, Masks.and_not_or_and_not16 _ rfl⟩

theorem interrupts_settled_of_stalled (still : chip.unlatched = []) (late : chip.stalled = true) :
    (chip.settled timing move out).interrupt = (chip.cleared move.target).interrupt ∧
      (chip.settled timing move out).interrupt2 = (chip.cleared move.target).interrupt2 := by
  have deaf : ¬(chip.waiting move out).latch.shows move.target = true := by
    simp [shows_waiting, heeds, still, late]
  have latched : (chip.waiting move out).latch = chip.waiting move out := by
    have onTheirWay : (chip.waiting move out).unlatched = [] := by
      change (if chip.stalled then chip.unlatched else chip.unlatched ++ [move.target]) = _
      rw [late, still]
      rfl
    exact latch_of_still onTheirWay
  rw [settled, awaited, if_neg deaf, latched]
  exact ⟨rfl, rfl⟩

end Settled

/-- What a move on a window does to interrupt bits that stand for completions, when no completion is
on its way. -/
inductive Acknowledges (chip : Chip) (w : Window) (after : Chip) : Prop where
  /-- Signalled in the first register, in time or not, a completion leaves other windows alone. -/
  | first (completes : w.completesFirst = true) (second : after.interrupt2 = chip.interrupt2)
      (own : after.shows w = false) (others : ∀ v, v ≠ w → after.shows v = chip.shows v)
  /-- Signalled in the second register, it is acknowledged together with all others there. -/
  | second (completes : w.completesFirst = false) (prompt : chip.stalled = false)
      (inTime : after.faults = chip.faults) (none : after.interrupt2 &&& Register.secondMoved = 0)
      (data : ∀ v, v.completesFirst = true → after.shows v = chip.shows v)
  /-- Not signalled there, it leaves all bits but its own. -/
  | late (completes : w.completesFirst = false) (stalled : chip.stalled = true)
      (timedOut : after.faults = chip.faults ++ [.moveTimeout w])
      (same : after.interrupt = chip.interrupt) (own : after.shows w = false)
      (same2 : after.interrupt2 = (chip.cleared w).interrupt2)

section Move

variable {chip after : Chip} {w : Window}

theorem shows_congr {v : Window} (same : after.interrupt = chip.interrupt)
    (same2 : after.interrupt2 = chip.interrupt2) : after.shows v = chip.shows v := by
  cases v
  case dataRx | dataTx => exact congrArg (· &&& _ != 0) same
  all_goals exact congrArg (· &&& _ != 0) same2

theorem shows_cleared_of_ne {v : Window} (other : v ≠ w) :
    (chip.cleared w).shows v = chip.shows v := by
  cases w <;> cases v <;> first
    | exact absurd rfl other
    | rfl
    | exact congrArg (· != 0) (Masks.and_not_and_of_disjoint8 _ rfl)
    | exact congrArg (· != 0) (Masks.and_not_and_of_disjoint16 _ rfl)

theorem cleared_of_first (chip : Chip) (first : w.completesFirst = true) :
    (chip.cleared w).interrupt2 = chip.interrupt2 ∧ chip.acknowledged w = chip.cleared w := by
  cases w
  case dataRx | dataTx => exact ⟨rfl, rfl⟩
  all_goals cases first

theorem cleared_of_second (chip : Chip) (second : w.completesFirst = false) :
    (chip.cleared w).interrupt = chip.interrupt ∧
      (chip.acknowledged w).interrupt2 &&& Register.secondMoved = 0 ∧
      ∀ v, v.completesFirst = true → (chip.acknowledged w).shows v = chip.shows v := by
  have data (v : Window) (first : v.completesFirst = true) :
      (chip.acknowledged w).shows v = chip.shows v := by
    cases w
    case dataRx | dataTx => cases second
    all_goals
      cases v
      case dataRx | dataTx =>
        exact congrArg (· != 0) (Masks.and_not_and_of_disjoint8 _ rfl)
      all_goals cases first
  cases w
  case dataRx | dataTx => cases second
  all_goals exact ⟨rfl, Masks.and_not_and_self16 _ _, data⟩

theorem acknowledges_settled (still : chip.unlatched = []) (timing : Timing) (move : Move)
    (out : Nat × Chip) : chip.Acknowledges move.target (chip.settled timing move out) := by
  have whenLate := interrupts_settled_of_stalled timing move out still
  have whenPrompt := interrupts_settled timing move out still
  cases completes : move.target.completesFirst with
  | true =>
    obtain ⟨same2, acknowledged⟩ := cleared_of_first chip completes
    -- Signalled or not, its own bit is all that has been cleared.
    have cleared : (chip.settled timing move out).interrupt =
          (chip.cleared move.target).interrupt ∧
        (chip.settled timing move out).interrupt2 = (chip.cleared move.target).interrupt2 := by
      cases stalled : chip.stalled with
      | true => exact whenLate stalled
      | false => exact acknowledged ▸ whenPrompt stalled
    refine .first completes (cleared.2.trans same2) ?_ fun v other => ?_
    · exact (shows_congr cleared.1 cleared.2).trans (shows_cleared chip move.target)
    · exact (shows_congr cleared.1 cleared.2).trans (shows_cleared_of_ne other)
  | false =>
    obtain ⟨same, none, data⟩ := cleared_of_second chip completes
    cases stalled : chip.stalled with
    | true =>
      have deaf : chip.heeds move.target = false := by simp [heeds, still, stalled]
      obtain ⟨first, second⟩ := whenLate stalled
      exact .late completes stalled (settled_of_not_heeds chip timing move out deaf).1
        (first.trans same) ((shows_congr first second).trans (shows_cleared chip _)) second
    | false =>
      have heeded : chip.heeds move.target = true := by simp [heeds, stalled]
      obtain ⟨first, second⟩ := whenPrompt stalled
      exact .second completes stalled (settled_of_heeds chip timing move out heeded).1
        (second ▸ none) fun v firstly => (shows_congr first second).trans (data v firstly)

end Move

theorem perform_acknowledges {chip : Chip} (still : chip.unlatched = []) (status : Status)
    (rounds : Nat) (move : Move) :
    EndsIn (Suffers status.timing rounds) ((Session.mk chip status).perform rounds (.move move))
      fun taken => chip.Acknowledges move.target taken.session.host := by
  refine Session.perform_endsIn ?_
  simp only [Operation.perform, Driver.issue, Driver.ensures_map, Driver.ensures_bind,
    Driver.ensures_get, Driver.ensures_lift]
  refine ensures_issue ((carryOut_suffers status.timing rounds chip move).mono fun out _ => ?_)
  exact ⟨Timing.patient_move.allow fun _ => .inl,
    fun _ _ => acknowledges_settled still status.timing move out⟩

def Change.SetsInterrupts : Change → Prop
  | setInterrupt _ | setInterrupt2 _ => True
  | _ => False

/-- Unless they are changed from outside, the bits of the interrupt registers that have nothing to
do with windows are the same at every request that a run makes and after every step of it. With no
completion on its way, a move acknowledges its own completion and at most those signalled in the
second register beside it. -/
theorem foreign_interrupts_untouched :
    (∀ (rounds : Nat) (steps : List (Step Change)) (session : Session Chip),
      (∀ change, .adjust change ∈ steps → ¬change.SetsInterrupts) →
      (∀ made ∈ session.asked rounds steps, made.2.foreign = session.host.foreign) ∧
      ∀ taken, session.run rounds steps = .ok taken →
        ∀ one ∈ taken, one.session.host.foreign = session.host.foreign) ∧
    ∀ (rounds : Nat) (chip : Chip) (status : Status) (move : Move), chip.unlatched = [] →
      EndsIn (Suffers status.timing rounds) ((Session.mk chip status).perform rounds (.move move))
        fun taken => chip.Acknowledges move.target taken.session.host := by
  refine ⟨fun rounds steps session untouched => ?_,
    fun rounds chip status move still => perform_acknowledges still status rounds move⟩
  · let kept (chip : Chip) : Prop := chip.foreign = session.host.foreign
    have asks (request : Request) (chip : Chip) (spares : request.SparesForeign)
        (before : kept chip) :
        EndsIn (fun _ => True) (Host.answer request chip) fun answered => kept answered.2 :=
      (answer_foreign request chip spares).mono fun _ same => same.trans before
    have looks (request : Request) (chip : Chip) (look : request.IsLook) :=
      asks request chip (by cases request <;> first | exact look.elim | trivial)
    have permits (operation : Operation) :
        Driver.Meets (fun _ program => program.Asks Request.SparesForeign) operation.perform :=
      operation.perform_meets composes_sparesForeign
    have adjusts (change : Change) (member : .adjust change ∈ steps) (chip : Chip)
        (before : kept chip) : kept (adjust change chip) := by
      cases change with
      | setInterrupt _ | setInterrupt2 _ => exact absurd trivial (untouched _ member)
      | setFree traffic free => cases traffic <;> exact before
      | _ => exact before
    exact ⟨Session.asked_keeps looks asks permits adjusts rfl, fun taken finished =>
      (Session.taken_keeps looks asks permits adjusts rfl).of_ok finished⟩

def alight : Chip :=
  { atReset with
    interrupt := 0xff
    interrupt2 := 0xffff
    interruptEnabled := true }

def unsignalledSteps : List (Step Change) :=
  [.perform .setUp, .adjust (.setStalled true), .perform (.allocate .management 5),
    .perform (.copy .mgmtTx .scratch 3), .perform (.mountRx .dataRx)]

theorem foreign_interrupts_untouched_alight :
    (∃ taken, (Session.start alight ⟨20, 20, 10⟩).run 4 unsignalledSteps = .ok taken ∧
      (∀ made ∈ (Session.start alight ⟨20, 20, 10⟩).asked 4 unsignalledSteps,
        made.2.foreign = (0xf8, 0xffc3)) ∧
      ∀ one ∈ taken, one.session.host.foreign = (0xf8, 0xffc3)) ∧
    ∀ move ∈ [⟨.dataRx, .macFrame, true, 0⟩, ⟨.mgmtTx, .mgmtPool, true, 7⟩], ∀ stalled,
      ∃ taken, (alight.performMove stalled { timing := ⟨20, 20, 10⟩ } 4 move) = .ok taken ∧
        (adjust (.setStalled stalled) alight).Acknowledges move.target taken.session.host := by
  obtain ⟨runs, moves⟩ := foreign_interrupts_untouched
  have untouched (change : Change) (member : .adjust change ∈ unsignalledSteps) :
      ¬change.SetsInterrupts := by
    obtain rfl : change = .setStalled true := by simpa [unsignalledSteps] using member
    exact id
  obtain ⟨asked, after⟩ := runs 4 unsignalledSteps (Session.start alight ⟨20, 20, 10⟩) untouched
  obtain ⟨taken, finished, -⟩ : ∃ taken,
      (Session.start alight ⟨20, 20, 10⟩).run 4 unsignalledSteps = .ok taken ∧
        taken.length = 5 :=
    exists_ok_of_endsIn (by decide +kernel)
  refine ⟨⟨taken, finished, asked, after taken finished⟩, fun move member stalled => ?_⟩
  have finishes : ∀ move ∈ [(⟨.dataRx, .macFrame, true, 0⟩ : Move), ⟨.mgmtTx, .mgmtPool, true, 7⟩],
      ∀ stalled, EndsIn (fun _ => False)
        (alight.performMove stalled { timing := ⟨20, 20, 10⟩ } 4 move) fun _ => True := by
    decide +kernel
  obtain ⟨taken, finished, -⟩ := exists_ok_of_endsIn (finishes move member stalled)
  have acknowledges :=
    moves 4 (adjust (.setStalled stalled) alight) { timing := ⟨20, 20, 10⟩ } move rfl
  exact ⟨taken, finished, acknowledges.of_ok finished⟩

end Chip

end RadioWindows
