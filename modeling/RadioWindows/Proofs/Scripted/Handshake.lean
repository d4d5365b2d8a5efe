import RadioWindows.Proofs.Scripted.Nesting
import RadioWindows.Proofs.Scripted.Rounds

/-! The order of the calls by which moves are made. A move disarms the interrupt, clears its
completion bit, writes its control word, listens, acknowledges what it has seen and reads the
count, whatever the host answers and however long it takes. -/

namespace RadioWindows

namespace Call

def WritesControl (call : Call) : Prop :=
  ∃ (w : Window) (word : UInt16), call = .write16 w.registers.control word

def ReadsCount (call : Call) : Prop :=
  ∃ (w : Window) (count : UInt16), call = .read16 w.registers.count count

end Call

namespace Completion

def clearing : Completion → Call
  | first mask => .write8 Register.interrupt mask
  | second mask => .write16 Register.interrupt2 mask

def acknowledging : Completion → List Call
  | first mask => [.write8 Register.interrupt mask]
  | second _ => [.write16 Register.interrupt2 Register.secondMoved,
      .write8 Register.interrupt Register.secondPending]

end Completion

/-- The calls of one move, parted by the control word and by the count. -/
structure Handshake where
  arming : List Call
  waiting : List Call
  acknowledging : List Call
  closing : List Call

namespace Handshake

def calls (handshake : Handshake) (move : Move) (count : UInt16) : List Call :=
  handshake.arming ++ .write16 move.target.registers.control move.word.bits ::
    (handshake.waiting ++ (handshake.acknowledging ++
      .read16 move.target.registers.count count :: handshake.closing))

/-- All calls but the control word and the count. -/
def others (handshake : Handshake) : List Call :=
  handshake.arming ++ (handshake.waiting ++ (handshake.acknowledging ++ handshake.closing))

/-- The order of the calls of a move that found the interrupt in the state `enabled`. -/
structure Orderly (timing : Timing) (records enabled : Bool) (move : Move) (count : UInt16)
    (handshake : Handshake) : Prop where
  /-- No other control word is written and no other count is read. -/
  once : ∀ call ∈ handshake.others, ¬call.WritesControl ∧ ¬call.ReadsCount
  /-- The control word is written with the interrupt off. -/
  disarmed : interruptAfter enabled handshake.arming = false
  cleared : move.target.registers.completion.clearing ∈ handshake.arming
  operands : ∀ src dst, move.pool = .copy src dst →
    .write16 dst.registers.count (src.id.toUInt16 * 16 + dst.id.toUInt16) ∈ handshake.arming
  /-- The interrupt is turned on again, and rounds follow until one sees the bit or is too late. -/
  waits : ∃ start rounds completed, handshake.waiting = .enable false :: .now start :: rounds ∧
    move.target.registers.completion.Waits timing start rounds completed
  /-- No completion is lost between the control word and the last round. -/
  undisturbed : ∀ call ∈ handshake.waiting, ¬call.WritesInterrupt
  /-- All rounds lie between the control word and the count. -/
  polled : ∀ call ∈ handshake.arming ++ (handshake.acknowledging ++ handshake.closing),
    ¬call.ReadsInterrupt
  listening : Listening enabled (handshake.calls move count)
  acknowledged : move.target.registers.completion.Sees handshake.waiting →
    handshake.acknowledging = move.target.registers.completion.acknowledging
  unacknowledged : ¬move.target.registers.completion.Sees handshake.waiting →
    handshake.acknowledging = []
  closed : ∀ call ∈ handshake.closing, ¬call.WritesInterrupt
  /-- Only the window of the move is ever late, and it is late when no round saw its bit. -/
  timeout : ∀ w, .fault (.moveTimeout w) ∈ handshake.calls move count ↔
    w = move.target ∧ records = true ∧ ¬move.target.registers.completion.Sees handshake.waiting
  /-- The interrupt is put back as it was found. -/
  restored : interruptAfter enabled (handshake.calls move count) = enabled

end Handshake

theorem Call.IsPolling.once {call : Call} (polling : call.IsPolling) :
    ¬call.WritesControl ∧ ¬call.ReadsCount := by
  constructor
  · rintro ⟨w, word, rfl⟩
    exact polling
  · rintro ⟨w, count, rfl⟩
    have register : w.registers.count = Register.interrupt2 := polling
    revert register
    cases w <;> decide

/-- A call that writes some register, but no control word. -/
def Call.WritesElsewhere : Call → Prop
  | write8 _ _ => True
  | write16 register _ => ∀ w : Window, register ≠ w.registers.control
  | _ => False

namespace Call.WritesElsewhere

variable {call : Call}

theorem keeps (elsewhere : call.WritesElsewhere) (enabled : Bool) :
    call.interruptAfter enabled = enabled := by
  cases call with
  | write8 _ _ | write16 _ _ => rfl
  | _ => exact elsewhere.elim

theorem not_readsInterrupt (elsewhere : call.WritesElsewhere) : ¬call.ReadsInterrupt := by
  cases call with
  | write8 _ _ | write16 _ _ => exact id
  | _ => exact elsewhere.elim

theorem once (elsewhere : call.WritesElsewhere) : ¬call.WritesControl ∧ ¬call.ReadsCount := by
  constructor
  · rintro ⟨w, word, rfl⟩
    exact elsewhere w rfl
  · rintro ⟨w, count, rfl⟩
    exact elsewhere

theorem ne_fault (elsewhere : call.WritesElsewhere) (fault : Fault) : call ≠ .fault fault := by
  rintro rfl
  exact elsewhere

end Call.WritesElsewhere

namespace Completion

theorem interrupt2_ne_control (w : Window) : Register.interrupt2 ≠ w.registers.control := by
  cases w <;> decide

theorem clearing_writesElsewhere (completion : Completion) :
    completion.clearing.WritesElsewhere := by
  cases completion with
  | first mask => trivial
  | second mask => exact interrupt2_ne_control

theorem acknowledging_writesElsewhere (completion : Completion) :
    ∀ call ∈ completion.acknowledging, call.WritesElsewhere := by
  cases completion with
  | first mask => simp [acknowledging, Call.WritesElsewhere]
  | second mask => simp [acknowledging, Call.WritesElsewhere, interrupt2_ne_control]

end Completion

namespace Move

def placingOperands (move : Move) : List Call :=
  match move.pool with
  | .copy src dst => [.write16 move.target.registers.count (operands src dst)]
  | _ => []

/-- The calls of a move, as they depend on the host: on whether the interrupt was enabled, on the
calls that the wait took, and on whether the completion came in time. -/
def handshake (move : Move) (records enabled completed : Bool) (start : UInt64)
    (waited : List Call) : Handshake where
  arming :=
    .disable enabled :: move.target.registers.completion.clearing :: move.placingOperands
  waiting := .enable false :: .now start :: waited
  acknowledging := if completed then move.target.registers.completion.acknowledging else []
  closing :=
    (if !completed && records then [.fault (.moveTimeout move.target)] else []) ++
      [.restoring enabled true]

theorem operands_eq (src dst : Window) :
    operands src dst = src.id.toUInt16 * 16 + dst.id.toUInt16 := by
  cases src <;> cases dst <;> rfl

theorem placingOperands_writesElsewhere (move : Move) :
    ∀ call ∈ move.placingOperands, call.WritesElsewhere := by
  have apart (v w : Window) : v.registers.count ≠ w.registers.control := by
    cases v <;> cases w <;> decide
  obtain ⟨window, pool, destination, size⟩ := move
  cases pool with
  | copy src dst => simp [placingOperands, Call.WritesElsewhere, apart]
  | _ => simp [placingOperands]

def guarded (move : Move) (records completed : Bool) (start : UInt64) (waited : List Call)
    (count : UInt16) : List Call :=
  move.target.registers.completion.clearing :: (move.placingOperands ++
    .write16 move.target.registers.control move.word.bits :: .enable false :: .now start ::
      (waited ++ (if completed then move.target.registers.completion.acknowledging else []) ++
        .read16 move.target.registers.count count ::
          if !completed && records then [.fault (.moveTimeout move.target)] else []))

theorem calls_handshake (move : Move) (records enabled completed : Bool) (start : UInt64)
    (waited : List Call) (count : UInt16) :
    (move.handshake records enabled completed start waited).calls move count =
      .disable enabled :: (move.guarded records completed start waited count ++
        [.restoring enabled true]) := by
  simp only [handshake, Handshake.calls, guarded, List.cons_append, List.append_assoc]

theorem interruptAfter_arming (move : Move) :
    interruptAfter false (move.target.registers.completion.clearing :: move.placingOperands) =
      false := by
  refine interruptAfter_of_forall fun call member => ?_
  rcases List.mem_cons.mp member with rfl | placed
  · exact (Completion.clearing_writesElsewhere _).keeps
  · exact (placingOperands_writesElsewhere move call placed).keeps

section Parts

variable {move : Move} {records enabled completed : Bool} {start : UInt64} {waited : List Call}
  {call : Call}

theorem acknowledging_cases
    (member : call ∈ (move.handshake records enabled completed start waited).acknowledging) :
    call.WritesElsewhere := by
  cases completed with
  | false => exact absurd member List.not_mem_nil
  | true => exact Completion.acknowledging_writesElsewhere _ call member

theorem closing_cases
    (member : call ∈ (move.handshake records enabled completed start waited).closing) :
    call = .fault (.moveTimeout move.target) ∨ call = .enable true ∨ call = .disable true := by
  rcases List.mem_append.mp member with late | restored
  · split at late
    · exact .inl (List.mem_singleton.mp late)
    · exact absurd late List.not_mem_nil
  · refine .inr ?_
    rw [List.mem_singleton.mp restored]
    cases enabled <;> simp [Call.restoring]

end Parts

theorem polled_handshake (move : Move) (records enabled completed : Bool) (start : UInt64)
    (waited : List Call) :
    let handshake := move.handshake records enabled completed start waited
    ∀ call ∈ handshake.arming ++ (handshake.acknowledging ++ handshake.closing),
      ¬call.ReadsInterrupt := by
  intro handshake call member
  simp only [List.mem_append] at member
  rcases member with arming | acknowledged | closing
  · rcases List.mem_cons.mp arming with rfl | arming
    · exact id
    · rcases List.mem_cons.mp arming with rfl | placed
      · exact (Completion.clearing_writesElsewhere _).not_readsInterrupt
      · exact (placingOperands_writesElsewhere move call placed).not_readsInterrupt
  · exact (acknowledging_cases acknowledged).not_readsInterrupt
  · rcases closing_cases closing with rfl | rfl | rfl
    all_goals exact id

section Waited

variable {timing : Timing} {move : Move} {start : UInt64} {waited : List Call} {completed : Bool}
    (waits : move.target.registers.completion.Waits timing start waited completed)
    (records enabled : Bool) (count : UInt16)
include waits

theorem sees_handshake :
    move.target.registers.completion.Sees
      (move.handshake records enabled completed start waited).waiting ↔ completed = true := by
  have rounds := Completion.sees_iff_of_waits waits
  simp only [handshake, Completion.sees_enable, Completion.sees_now, rounds]

theorem once_handshake :
    ∀ call ∈ (move.handshake records enabled completed start waited).others,
      ¬call.WritesControl ∧ ¬call.ReadsCount := by
  intro call member
  simp only [Handshake.others, List.mem_append] at member
  rcases member with arming | waiting | acknowledged | closing
  · rcases List.mem_cons.mp arming with rfl | arming
    · simp [Call.WritesControl, Call.ReadsCount]
    · rcases List.mem_cons.mp arming with rfl | placed
      · exact (Completion.clearing_writesElsewhere _).once
      · exact (placingOperands_writesElsewhere move call placed).once
  · simp only [handshake, List.mem_cons] at waiting
    rcases waiting with rfl | rfl | polled
    · simp [Call.WritesControl, Call.ReadsCount]
    · simp [Call.WritesControl, Call.ReadsCount]
    · exact (Completion.waits_polling waits call polled).once
  · exact (acknowledging_cases acknowledged).once
  · rcases closing_cases closing with rfl | rfl | rfl
    all_goals simp [Call.WritesControl, Call.ReadsCount]

theorem listening_handshake :
    Listening enabled
      ((move.handshake records enabled completed start waited).calls move count) := by
  obtain ⟨arming, others⟩ := List.forall_mem_append.mp
    (polled_handshake move records enabled completed start waited)
  obtain ⟨acknowledging, closing⟩ := List.forall_mem_append.mp others
  have listens : Listening true waited := listening_of_polling (Completion.waits_polling waits)
  have counts : move.target.registers.count ≠ Register.interrupt2 := by
    cases move.target <;> decide
  have counting : ∀ call ∈
      (move.handshake records enabled completed start waited).acknowledging ++
        .read16 move.target.registers.count count ::
          (move.handshake records enabled completed start waited).closing,
      ¬call.ReadsInterrupt := by
    intro call member
    rcases List.mem_append.mp member with acknowledged | member
    · exact acknowledging call acknowledged
    · rcases List.mem_cons.mp member with rfl | closed
      · exact counts
      · exact closing call closed
  rw [Handshake.calls, listening_append]
  refine ⟨listening_of_forall arming, False.elim, ?_⟩
  rw [listening_append]
  exact ⟨⟨False.elim, False.elim, listens⟩, listening_of_forall counting⟩

theorem fault_mem_handshake (fault : Fault) :
    .fault fault ∈ (move.handshake records enabled completed start waited).calls move count ↔
      fault = .moveTimeout move.target ∧ records = true ∧ completed = false := by
  have notCleared : Call.fault fault ≠ move.target.registers.completion.clearing :=
    ((Completion.clearing_writesElsewhere _).ne_fault _).symm
  have notPlaced : Call.fault fault ∉ move.placingOperands := fun member =>
    placingOperands_writesElsewhere move _ member
  have notPolled : Call.fault fault ∉ waited := fun member =>
    Completion.waits_polling waits _ member
  have notAcknowledged : Call.fault fault ∉
      move.target.registers.completion.acknowledging := fun member =>
    Completion.acknowledging_writesElsewhere _ _ member
  cases completed <;> cases records <;> cases enabled <;>
    simp [handshake, Handshake.calls, Call.restoring, notCleared, notPlaced, notPolled,
      notAcknowledged]

theorem interruptAfter_guarded :
    interruptAfter false (move.guarded records completed start waited count) = true := by
  have polls : interruptAfter true waited = true :=
    interruptAfter_of_forall fun call member => (Completion.waits_polling waits call member).keeps
  have acknowledges : interruptAfter true
      (if completed then move.target.registers.completion.acknowledging else []) = true := by
    cases completed with
    | false => rfl
    | true => exact interruptAfter_of_forall fun call member =>
        (Completion.acknowledging_writesElsewhere _ call member).keeps
  have reports : interruptAfter true
      (if !completed && records then [Call.fault (.moveTimeout move.target)] else []) = true := by
    split <;> rfl
  rw [guarded, ← List.cons_append, interruptAfter_append, interruptAfter_arming]
  simp only [interruptAfter_cons, Call.interruptAfter, interruptAfter_append, polls, acknowledges,
    reports]

theorem restored_handshake :
    interruptAfter enabled
      ((move.handshake records enabled completed start waited).calls move count) = enabled := by
  rw [calls_handshake, interruptAfter_cons, interruptAfter_append]
  change interruptAfter (interruptAfter false (move.guarded ..)) _ = enabled
  rw [interruptAfter_guarded waits]
  cases enabled <;> rfl

/-- Whatever calls a wait has taken, the calls of the move come in order. -/
theorem orderly_handshake :
    (move.handshake records enabled completed start waited).Orderly timing records enabled move
      count where
  once := once_handshake waits records enabled
  disarmed := interruptAfter_arming move
  cleared := by simp [handshake]
  operands := by
    intro src dst copies
    obtain ⟨window, pool, destination, size⟩ := move
    subst copies
    rw [← operands_eq]
    simp [handshake, placingOperands, target, Pool.target]
  waits := ⟨start, waited, completed, rfl, waits⟩
  undisturbed := by
    intro call member
    simp only [handshake, List.mem_cons] at member
    rcases member with rfl | rfl | polled
    · exact id
    · exact id
    · exact (Completion.waits_polling waits call polled).not_writesInterrupt
  polled := polled_handshake move records enabled completed start waited
  listening := listening_handshake waits records enabled count
  acknowledged := by
    rw [sees_handshake waits]
    rintro rfl
    rfl
  unacknowledged := by
    rw [sees_handshake waits, Bool.not_eq_true]
    rintro rfl
    rfl
  closed := by
    intro call member
    rcases closing_cases member with rfl | rfl | rfl
    all_goals exact id
  timeout := by
    intro w
    rw [sees_handshake waits, Bool.not_eq_true, fault_mem_handshake waits, Fault.moveTimeout.injEq]
  restored := restored_handshake waits records enabled count

end Waited

end Move

section Records

variable {rounds : Nat} {host : ScriptedHost}

theorem Completion.clear_records (completion : Completion) :
    completion.clear.Records rounds host fun _ calls => calls = [completion.clearing] := by
  cases completion with
  | first mask | second mask =>
    exact Program.records_ask fun _ _ => Program.records_pure (List.append_nil _)

theorem Completion.acknowledge_records (completion : Completion) :
    completion.acknowledge.Records rounds host fun _ calls =>
      calls = completion.acknowledging := by
  cases completion with
  | first mask => exact Program.records_ask fun _ _ => Program.records_pure rfl
  | second mask =>
    refine Program.records_ask fun _ _ => ?_
    exact Program.records_ask fun _ _ => Program.records_pure rfl

theorem Completion.await_records (timing : Timing) (completion : Completion) :
    (completion.await timing).Records rounds host fun completed calls =>
      ∃ start waited, completion.Waits timing start waited completed ∧
        calls = .now start :: (waited ++
          if completed then completion.acknowledging else []) := by
  refine Program.records_bind (Program.records_waitFor _ _ _) ?_
  rintro completed _ after _ ⟨start, waited, rfl, waits⟩
  cases completed with
  | false => exact Program.records_pure ⟨start, waited, waits, by simp⟩
  | true =>
    refine Program.records_bind completion.acknowledge_records ?_
    intro _ _ _ _ told
    subst told
    exact Program.records_pure ⟨start, waited, waits, by simp⟩

theorem Move.placeOperands_records (move : Move) :
    move.placeOperands.Records rounds host fun _ calls => calls = move.placingOperands := by
  obtain ⟨window, pool, destination, size⟩ := move
  cases pool with
  | copy src dst => exact Program.records_ask fun _ _ => Program.records_pure rfl
  | _ => exact Program.records_pure rfl

theorem Program.records_holdingInterrupt {α : Type} {body : Program α}
    (middle : α → List Call → Prop)
    (inside : ∀ held, host.Adds held [.disable host.interruptEnabled] →
      body.Records rounds held middle)
    (ends : ∀ value calls, middle value calls → interruptAfter false calls = true) :
    (holdingInterrupt body).Records rounds host fun value calls =>
      ∃ guarded, middle value guarded ∧
        calls = .disable host.interruptEnabled :: (guarded ++
          [.restoring host.interruptEnabled true]) := by
  rw [Records, ensures_holdingInterrupt]
  have created := ScriptedHost.adds_answer .disableInterrupt host
  refine Ensures.mono (inside _ created) ?_
  rintro value ended ⟨guarded, adds, established⟩
  have on : ended.interruptEnabled = true := by
    rw [adds.interruptEnabled_eq]
    exact ends value guarded established
  have dropped := ended.adds_restore host.interruptEnabled
  rw [on] at dropped
  exact ⟨_, created.trans (adds.trans dropped), guarded, established, rfl⟩

theorem Move.guarded_records (timing : Timing) (move : Move) (off : host.interruptEnabled = false) :
    (do
      move.target.registers.completion.clear
      move.placeOperands
      Program.write16 move.target.registers.control move.word.bits
      Program.tell .enableInterrupt
      let completed ← move.target.registers.completion.await timing
      let count ← Program.read16 move.target.registers.count
      Program.raiseIf (!completed) (.moveTimeout move.target)
      return count : Program UInt16).Records rounds host fun count calls =>
      ∃ start waited completed,
        move.target.registers.completion.Waits timing start waited completed ∧
        calls = move.guarded host.recordsFaults completed start waited count := by
  refine Program.records_bind (Completion.clear_records _) ?_
  intro _ _ cleared adds1 told
  subst told
  refine Program.records_bind move.placeOperands_records ?_
  intro _ _ placed adds2 told
  subst told
  refine Program.records_bind (Program.records_tell _) ?_
  intro _ _ written adds3 told
  subst told
  -- Turning the interrupt on is answered by what it was, and nothing has touched it yet.
  have stillOff : written.interruptEnabled = false := by
    rw [adds3.interruptEnabled_eq, adds2.interruptEnabled_eq, adds1.interruptEnabled_eq, off]
    exact interruptAfter_arming move
  have sameRecords := ((adds1.trans adds2).trans adds3).recordsFaults_eq
  refine Program.records_bind (Program.records_tell _) ?_
  intro _ _ enabled adds4 told
  subst told
  refine Program.records_bind (Completion.await_records timing _) ?_
  rintro completed _ waitedFor adds5 ⟨start, waited, waits, rfl⟩
  refine Program.records_bind (Program.records_read16 _) ?_
  intro count _ counted adds6 told
  subst told
  refine Program.records_bind (Program.records_raiseIf _ _) ?_
  intro _ _ _ _ told
  subst told
  refine Program.records_pure ⟨start, waited, completed, waits, ?_⟩
  rw [adds6.recordsFaults_eq, adds5.recordsFaults_eq, adds4.recordsFaults_eq, sameRecords]
  simp [guarded, Request.recorded, ScriptedHost.answer, stillOff]

/-- A move makes the calls of a handshake and returns the count that it has read. -/
theorem Move.issue_records (timing : Timing) (move : Move) :
    (move.issue timing).Records rounds host fun count calls =>
      ∃ start waited completed,
        move.target.registers.completion.Waits timing start waited completed ∧
        calls = (move.handshake host.recordsFaults host.interruptEnabled completed start
          waited).calls move count := by
  have logged : (Program.log (.moving move.pool move.target move.word)).Records rounds host
      fun _ calls => calls = [] := Program.records_log rfl
  refine Program.records_bind logged ?_
  intro _ _ after quiet told
  subst told
  have sameEnabled : after.interruptEnabled = host.interruptEnabled := quiet.interruptEnabled_eq
  rw [← sameEnabled, ← quiet.recordsFaults_eq]
  refine Program.Records.mono (Program.records_holdingInterrupt (fun count calls =>
    ∃ start waited completed,
      move.target.registers.completion.Waits timing start waited completed ∧
      calls = move.guarded after.recordsFaults completed start waited count) ?inside ?ends) ?framed
  case inside =>
    intro held disabled
    rw [← disabled.recordsFaults_eq]
    exact guarded_records timing move disabled.interruptEnabled_eq
  case ends =>
    rintro count _ ⟨start, waited, completed, waits, rfl⟩
    exact interruptAfter_guarded waits _ count
  case framed =>
    rintro count _ ⟨_, ⟨start, waited, completed, waits, rfl⟩, rfl⟩
    exact ⟨start, waited, completed, waits, (calls_handshake ..).symm⟩

end Records

end RadioWindows
