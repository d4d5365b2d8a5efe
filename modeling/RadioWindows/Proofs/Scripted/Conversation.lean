import RadioWindows.Proofs.Scripted.Handshake

/-! What operations say to a scripted host. Between the handshakes of its moves an operation makes
no call that has a part in one; so the record of a session can be read move by move. -/

namespace RadioWindows

/-- The call has no part in any move. -/
structure Call.IsAside (call : Call) : Prop where
  reads : ¬call.ReadsInterrupt
  writes : ¬call.WritesInterrupt
  control : ¬call.WritesControl
  count : ¬call.ReadsCount
  timeout : ∀ w, call ≠ .fault (.moveTimeout w)
  keeps : ∀ enabled, call.interruptAfter enabled = enabled

/-- The calls are those of these moves, one move after the other, with nothing but asides between
them; each move is listed with the count that was read for it. -/
inductive Conversation (timing : Timing) (records enabled : Bool) :
    List (Move × UInt16) → List Call → Prop where
  | silence : Conversation timing records enabled [] []
  | aside {call : Call} {moves : List (Move × UInt16)} {calls : List Call}
      (aside : call.IsAside) (rest : Conversation timing records enabled moves calls) :
      Conversation timing records enabled moves (call :: calls)
  | move {move : Move} {count : UInt16} {handshake : Handshake} {moves : List (Move × UInt16)}
      {calls : List Call} (orderly : handshake.Orderly timing records enabled move count)
      (rest : Conversation timing records enabled moves calls) :
      Conversation timing records enabled ((move, count) :: moves)
        (handshake.calls move count ++ calls)

def Operation.Issued : Operation → Answer → List (Move × UInt16) → Prop
  | setUp, answer, moves => ∃ released length, answer = .count length ∧
      moves = [(⟨.dataTx, .scratchPool, false, 0⟩, released),
        (⟨.scratch, .scratchPool, true, 0⟩, length)]
  | mountScratch w, answer, moves =>
      ∃ length, answer = .count length ∧ moves = [(⟨w, .scratchPool, true, 0⟩, length)]
  | unmountScratch w, answer, moves =>
      ∃ count, answer = .nothing ∧ moves = [(⟨w, .scratchPool, false, 0⟩, count)]
  | allocate traffic size, answer, moves =>
      (∃ available, answer = .refused (.insufficientPoolMemory available size) ∧ moves = []) ∨
      (∃ count, count ≠ 0 ∧ answer = .granted ∧
        moves = [(⟨traffic.txWindow, traffic.pool, true, size⟩, count)]) ∨
      ∃ released, answer = .refused (.allocationFailed traffic.txWindow) ∧
        moves = [(⟨traffic.txWindow, traffic.pool, true, size⟩, 0),
          (⟨traffic.txWindow, traffic.pool, false, 0⟩, released)]
  | discardTx traffic, answer, moves =>
      ∃ count, answer = .nothing ∧ moves = [(⟨traffic.txWindow, traffic.pool, false, 0⟩, count)]
  | discardRx traffic, answer, moves =>
      ∃ count, answer = .nothing ∧ moves = [(⟨traffic.rxWindow, traffic.pool, false, 0⟩, count)]
  | mountRx w, answer, moves =>
      ∃ length, answer = .count length ∧ moves = [(⟨w, .macFrame, true, 0⟩, length)]
  | send traffic size, answer, moves =>
      ∃ count, answer = .nothing ∧ moves = [(⟨traffic.txWindow, .macFrame, false, size⟩, count)]
  | copy src dst size, answer, moves =>
      ∃ count, answer = .count count ∧ moves = [(⟨dst, .copy src dst, true, size⟩, count)]
  | move issued, answer, moves => ∃ count, answer = .count count ∧ moves = [(issued, count)]
  | _, _, moves => moves = []

namespace Conversation

variable {timing : Timing} {records enabled : Bool} {moves more : List (Move × UInt16)}
  {calls others : List Call}

theorem append (first : Conversation timing records enabled moves calls)
    (rest : Conversation timing records enabled more others) :
    Conversation timing records enabled (moves ++ more) (calls ++ others) := by
  induction first with
  | silence => exact rest
  | aside aside _ ih => exact .aside aside ih
  | move orderly _ ih =>
    rw [List.append_assoc]
    exact .move orderly ih

theorem of_asides (asides : ∀ call ∈ calls, call.IsAside) :
    Conversation timing records enabled [] calls := by
  induction calls with
  | nil => exact .silence
  | cons call rest ih =>
    have later := ih fun later member => asides later (List.mem_cons_of_mem call member)
    exact .aside (asides call List.mem_cons_self) later

theorem interruptAfter_eq (conversation : Conversation timing records enabled moves calls) :
    interruptAfter enabled calls = enabled := by
  induction conversation with
  | silence => rfl
  | aside aside _ ih => rw [interruptAfter_cons, aside.keeps, ih]
  | move orderly _ ih => rw [interruptAfter_append, orderly.restored, ih]

theorem listening (conversation : Conversation timing records enabled moves calls) :
    Listening enabled calls := by
  induction conversation with
  | silence => trivial
  | aside aside _ ih =>
    refine ⟨fun reads => absurd reads aside.reads, ?_⟩
    rw [aside.keeps]
    exact ih
  | move orderly _ ih =>
    rw [listening_append, orderly.restored]
    exact ⟨orderly.listening, ih⟩

end Conversation

namespace Driver

variable {α β : Type} {rounds : Nat}

/-- Where this part of the driver ends, its calls are a conversation, its value is related in this
way to the moves that were made, and the timing is as before. -/
def Converses (rounds : Nat) (driver : Driver α) (post : α → List (Move × UInt16) → Prop) : Prop :=
  ∀ session : Session ScriptedHost,
    driver.Ensures (fun _ => True) rounds session fun value after =>
      ∃ calls moves, session.host.Adds after.host calls ∧
        Conversation session.status.timing session.host.recordsFaults session.host.interruptEnabled
          moves calls ∧
        after.status.timing = session.status.timing ∧ post value moves

def Quiet (rounds : Nat) (driver : Driver α) : Prop :=
  driver.Converses rounds fun _ moves => moves = []

section Rules

variable {post : α → List (Move × UInt16) → Prop}

theorem Converses.mono {driver : Driver α} {weaker : α → List (Move × UInt16) → Prop}
    (converses : driver.Converses rounds post)
    (le : ∀ value moves, post value moves → weaker value moves) :
    driver.Converses rounds weaker := by
  intro session
  refine Ensures.mono (converses session) ?_
  rintro value after ⟨calls, moves, adds, conversation, timing, established⟩
  exact ⟨calls, moves, adds, conversation, timing, le value moves established⟩

theorem converses_pure {value : α} (none : post value []) :
    (pure value : Driver α).Converses rounds post :=
  fun session => ⟨[], [], .refl session.host, .silence, rfl, none⟩

theorem converses_bind {driver : Driver α} {next : α → Driver β}
    {middle : α → List (Move × UInt16) → Prop} {post : β → List (Move × UInt16) → Prop}
    (first : driver.Converses rounds middle)
    (rest : ∀ value moves, middle value moves →
      (next value).Converses rounds fun out more => post out (moves ++ more)) :
    (driver >>= next).Converses rounds post := by
  intro session
  rw [ensures_bind]
  refine Ensures.mono (first session) ?_
  rintro value between ⟨calls, moves, adds, conversation, timing, established⟩
  refine Ensures.mono (rest value moves established between) ?_
  rintro out after ⟨others, more, later, following, still, reached⟩
  refine ⟨calls ++ others, moves ++ more, adds.trans later, conversation.append ?_,
    still.trans timing, reached⟩
  rw [timing, adds.recordsFaults_eq, adds.interruptEnabled_eq,
    conversation.interruptAfter_eq] at following
  exact following

theorem converses_map {driver : Driver α} {change : α → β}
    {post : β → List (Move × UInt16) → Prop}
    (converses : driver.Converses rounds fun value => post (change value)) :
    (change <$> driver).Converses rounds post := by
  intro session
  rw [ensures_map]
  exact converses session

theorem converses_get {next : Status → Driver α}
    (rest : ∀ status, (next status).Converses rounds post) :
    (get >>= next).Converses rounds post := by
  intro session
  rw [ensures_bind, ensures_get]
  exact rest session.status session

theorem converses_after {driver : Driver β} {next : β → Driver α}
    (quiet : driver.Quiet rounds) (rest : ∀ value, (next value).Converses rounds post) :
    (driver >>= next).Converses rounds post := by
  refine converses_bind quiet ?_
  intro value _ issued
  subst issued
  exact rest value

end Rules

theorem converses_issue (move : Move) :
    (issue move).Converses rounds fun count moves => moves = [(move, count)] := by
  intro session
  rw [issue, ensures_bind, ensures_get, ensures_lift]
  refine Program.Ensures.mono (move.issue_records session.status.timing) ?_
  rintro count after ⟨calls, adds, start, waited, completed, waits, rfl⟩
  have orderly := Move.orderly_handshake waits session.host.recordsFaults
    session.host.interruptEnabled count
  refine ⟨_, _, adds, ?_, rfl, rfl⟩
  simpa using Conversation.move orderly .silence

theorem converses_discard_issue (move : Move) :
    (discard (issue move)).Converses rounds fun _ moves => ∃ count, moves = [(move, count)] :=
  converses_map ((converses_issue move).mono fun count _ issued => ⟨count, issued⟩)

end Driver

namespace Call

theorem isAside_read16 {register : UInt8} {value : UInt16}
    (interrupt : register ≠ Register.interrupt2)
    (count : ∀ w : Window, register ≠ w.registers.count) : IsAside (.read16 register value) where
  reads := interrupt
  writes := id
  control := by simp [WritesControl]
  count := by simp [ReadsCount, count]
  timeout := by simp
  keeps _ := rfl

theorem isAside_write16 {register : UInt8} {value : UInt16}
    (interrupt : register ≠ Register.interrupt2)
    (control : ∀ w : Window, register ≠ w.registers.control) :
    IsAside (.write16 register value) where
  reads := id
  writes := interrupt
  control := by simp [WritesControl, control]
  count := by simp [ReadsCount]
  timeout := by simp
  keeps _ := rfl

theorem isAside_fault {fault : Fault} (other : ∀ w, fault ≠ .moveTimeout w) :
    IsAside (.fault fault) where
  reads := id
  writes := id
  control := by simp [WritesControl]
  count := by simp [ReadsCount]
  timeout := by simpa using other
  keeps _ := rfl

theorem isAside_now {time : UInt64} : IsAside (.now time) :=
  ⟨id, id, by simp [WritesControl], by simp [ReadsCount], by simp, fun _ => rfl⟩

theorem isAside_delay {microseconds : UInt32} : IsAside (.delay microseconds) :=
  ⟨id, id, by simp [WritesControl], by simp [ReadsCount], by simp, fun _ => rfl⟩

theorem isAside_readBytes {register : UInt8} {count : Nat} : IsAside (.readBytes register count) :=
  ⟨id, id, by simp [WritesControl], by simp [ReadsCount], by simp, fun _ => rfl⟩

theorem isAside_writeBytes {register : UInt8} {bytes : Bytes} :
    IsAside (.writeBytes register bytes) :=
  ⟨id, id, by simp [WritesControl], by simp [ReadsCount], by simp, fun _ => rfl⟩

end Call

namespace Driver

variable {rounds : Nat}

section Quiet

theorem quiet_modify {change : Status → Status}
    (untimed : ∀ status, (change status).timing = status.timing) :
    (modify change : Driver Unit).Quiet rounds := by
  intro session
  rw [ensures_modify]
  exact ⟨[], [], .refl session.host, .silence, untimed session.status, rfl⟩

theorem quiet_lift {α : Type} {program : Program α}
    (asides : ∀ host, program.Records rounds host fun _ calls => ∀ call ∈ calls, call.IsAside) :
    (liftM program : Driver α).Quiet rounds := by
  intro session
  rw [ensures_lift]
  refine Program.Ensures.mono (asides session.host) ?_
  rintro value after ⟨calls, adds, aside⟩
  exact ⟨calls, [], adds, .of_asides aside, rfl, rfl⟩

theorem quiet_log (record : LogRecord) :
    (liftM (Program.log record) : Driver Unit).Quiet rounds :=
  quiet_lift fun _ => Program.records_log (by simp)

theorem quiet_raise {fault : Fault} (other : ∀ w, fault ≠ .moveTimeout w) :
    (liftM (Program.raise fault) : Driver Unit).Quiet rounds := by
  refine quiet_lift fun host => (Program.records_raise fault).mono ?_
  intro _ _ issued
  subst issued
  split
  · simpa using Call.isAside_fault other
  · simp

theorem quiet_raiseIf {condition : Bool} {fault : Fault} (other : ∀ w, fault ≠ .moveTimeout w) :
    (liftM (Program.raiseIf condition fault) : Driver Unit).Quiet rounds := by
  cases condition with
  | false => exact converses_pure rfl
  | true => exact quiet_raise other

theorem quiet_markData (traffic : Traffic) (window : DataWindow) (state : MountState) :
    (markData traffic window state).Quiet rounds := by
  cases traffic with
  | management => exact converses_pure rfl
  | data => exact quiet_modify fun _ => rfl

theorem quiet_readFree (traffic : Traffic) :
    (liftM (Program.read16 traffic.freeRegister) : Driver UInt16).Quiet rounds := by
  have looking (value : UInt16) : Call.IsAside (.read16 traffic.freeRegister value) :=
    Call.isAside_read16 (by cases traffic <;> decide) fun w => by
      cases traffic <;> cases w <;> decide
  refine quiet_lift fun host => (Program.records_read16 _).mono ?_
  intro value _ issued
  subst issued
  simpa using looking value

theorem quiet_seek (timing : Timing) (w : Window) (index : UInt16) :
    (liftM (seek timing w index) : Driver Bool).Quiet rounds := by
  have placing (value : UInt16) : Call.IsAside (.write16 w.registers.index value) :=
    Call.isAside_write16 (by cases w <;> decide) fun v => by cases w <;> cases v <;> decide
  have looking (value : UInt16) : Call.IsAside (.read16 w.registers.status value) :=
    Call.isAside_read16 (by cases w <;> decide) fun v => by cases w <;> cases v <;> decide
  refine quiet_lift fun host => Program.records_bind (Program.records_tell _) ?_
  intro _ _ _ _ issued
  subst issued
  refine (Program.records_waitFor _ _ _).mono ?_
  rintro _ _ ⟨start, waited, rfl, waits⟩
  have rounds : ∀ call ∈ waited, call.IsAside := by
    refine waits.forall_mem ?_ (fun _ => Call.isAside_now) fun _ => Call.isAside_delay
    rintro _ _ ⟨value, _, rfl, rfl, _⟩
    simpa using looking value
  simpa [Request.recorded, placing, Call.isAside_now] using rounds

theorem quiet_setIndex (w : Window) (index : UInt16) : (setIndex w index).Quiet rounds := by
  refine converses_get fun status => converses_after (quiet_seek _ w index) fun settled => ?_
  cases settled with
  | true => exact quiet_modify fun _ => rfl
  | false => exact converses_after (quiet_modify fun _ => rfl) fun _ => quiet_raise (by simp)

theorem quiet_checkAccess (w : Window) : (checkAccess w).Quiet rounds :=
  converses_get fun _ => quiet_raiseIf (by simp)

theorem quiet_read (w : Window) (count : Nat) : (read w count).Quiet rounds := by
  refine converses_after (quiet_checkAccess w) fun _ => quiet_lift fun host => ?_
  refine Program.records_ask fun _ _ => Program.records_pure ?_
  simpa [Request.recorded] using Call.isAside_readBytes

theorem quiet_write (w : Window) (bytes : Bytes) : (write w bytes).Quiet rounds := by
  refine converses_after (quiet_checkAccess w) fun _ => quiet_lift fun host => ?_
  refine Program.records_ask fun _ _ => Program.records_pure ?_
  simpa [Request.recorded] using Call.isAside_writeBytes

end Quiet

theorem converses_setUp :
    setUp.Converses rounds fun length => Operation.setUp.Issued (.count length) := by
  refine converses_after (quiet_log _) fun _ => ?_
  refine converses_bind (converses_discard_issue _) ?_
  rintro _ _ ⟨released, rfl⟩
  refine converses_bind (converses_issue _) ?_
  intro length _ issued
  subst issued
  refine converses_after (quiet_modify fun _ => rfl) fun _ => ?_
  refine converses_after (quiet_log _) fun _ => ?_
  exact converses_pure ⟨released, length, rfl, rfl⟩

theorem converses_allocate (traffic : Traffic) (size : UInt16) :
    (allocate traffic size).Converses rounds fun verdict =>
      (Operation.allocate traffic size).Issued (.ofVerdict verdict) := by
  refine converses_after (quiet_readFree traffic) fun free => ?_
  dsimp only
  split
  · exact converses_pure (.inl ⟨_, rfl, rfl⟩)
  · refine converses_bind (converses_issue _) ?_
    intro count _ issued
    subst issued
    split
    · next none =>
      subst none
      refine converses_after (quiet_raise (by simp)) fun _ => ?_
      refine converses_bind (converses_discard_issue _) ?_
      rintro _ _ ⟨released, rfl⟩
      exact converses_pure (.inr (.inr ⟨released, rfl, rfl⟩))
    · next some =>
      refine converses_after (quiet_modify fun _ => rfl) fun _ => ?_
      refine converses_after (quiet_markData _ _ _) fun _ => ?_
      exact converses_pure (.inr (.inl ⟨count, some, rfl, rfl⟩))

theorem converses_mountRx (w : Window) :
    (mountRx w).Converses rounds fun length => (Operation.mountRx w).Issued (.count length) := by
  refine converses_bind (converses_issue _) ?_
  intro length _ issued
  subst issued
  refine converses_after (quiet_raiseIf (by simp)) fun _ => ?_
  have established : (Operation.mountRx w).Issued (.count length)
      ([(⟨w, .macFrame, true, 0⟩, length)] ++ []) := ⟨length, rfl, rfl⟩
  split
  · exact converses_after (quiet_modify fun _ => rfl) fun _ => converses_pure established
  · exact converses_pure established

theorem converses_discardTx (traffic : Traffic) :
    (discardTx traffic).Converses rounds fun _ moves =>
      ∃ count, moves = [(⟨traffic.txWindow, traffic.pool, false, 0⟩, count)] :=
  converses_after (quiet_markData _ _ _) fun _ => converses_discard_issue _

theorem converses_discardRx (traffic : Traffic) :
    (discardRx traffic).Converses rounds fun _ moves =>
      ∃ count, moves = [(⟨traffic.rxWindow, traffic.pool, false, 0⟩, count)] :=
  converses_after (quiet_markData _ _ _) fun _ => converses_discard_issue _

theorem converses_send (traffic : Traffic) (length : UInt16) :
    (send traffic length).Converses rounds fun _ moves =>
      ∃ count, moves = [(⟨traffic.txWindow, .macFrame, false, length⟩, count)] := by
  refine converses_bind (converses_discard_issue _) ?_
  rintro _ _ ⟨count, rfl⟩
  refine (quiet_markData traffic .tx .unmounted).mono ?_
  intro _ _ issued
  subst issued
  exact ⟨count, rfl⟩

end Driver

/-- Every operation issues the moves that it is there to issue, and makes no other call that has a
part in a move. -/
theorem Operation.perform_converses (rounds : Nat) (operation : Operation) :
    operation.perform.Converses rounds operation.Issued := by
  have answered {driver : Driver Unit} {move : Move}
      (converses : driver.Converses rounds fun _ moves => ∃ count, moves = [(move, count)]) :
      (do driver; return Answer.nothing : Driver Answer).Converses rounds fun answer moves =>
        ∃ count, answer = .nothing ∧ moves = [(move, count)] := by
    refine Driver.converses_bind converses ?_
    rintro _ _ ⟨count, rfl⟩
    exact Driver.converses_pure ⟨count, rfl, rfl⟩
  cases operation with
  | setUp => exact Driver.converses_map Driver.converses_setUp
  | scratchLength | isOutOfBounds _ | dataState _ | timing =>
    exact Driver.converses_get fun _ => Driver.converses_pure rfl
  | allocate traffic size => exact Driver.converses_map (Driver.converses_allocate traffic size)
  | mountRx w => exact Driver.converses_map (Driver.converses_mountRx w)
  | mountScratch _ | copy _ _ _ | move _ =>
    exact Driver.converses_map ((Driver.converses_issue _).mono
      fun count _ issued => ⟨count, rfl, issued⟩)
  | unmountScratch w => exact answered (Driver.converses_discard_issue _)
  | discardTx traffic => exact answered (Driver.converses_discardTx traffic)
  | discardRx traffic => exact answered (Driver.converses_discardRx traffic)
  | send traffic size => exact answered (Driver.converses_send traffic size)
  | setIndex w index =>
    exact Driver.converses_after (Driver.quiet_setIndex w index) fun _ => Driver.converses_pure rfl
  | read w count => exact Driver.converses_map (Driver.quiet_read w count)
  | readAt w index count =>
    exact Driver.converses_map (Driver.converses_after (Driver.quiet_setIndex w index) fun _ =>
      Driver.quiet_read w count)
  | write w bytes =>
    exact Driver.converses_after (Driver.quiet_write w bytes) fun _ => Driver.converses_pure rfl
  | writeAt w index bytes =>
    refine Driver.converses_after ?_ fun _ => Driver.converses_pure rfl
    exact Driver.converses_after (Driver.quiet_setIndex w index) fun _ => Driver.quiet_write w bytes

namespace ScriptedHost

variable {session : Session ScriptedHost} {steps : List (Step Setting)}

def Converses (before : Session ScriptedHost) (step : Step Setting) (taken : Taken ScriptedHost) :
    Prop :=
  match step with
  | .perform operation => ∃ calls moves, before.host.Adds taken.session.host calls ∧
      Conversation before.status.timing before.host.recordsFaults before.host.interruptEnabled
        moves calls ∧
      Listening before.host.interruptEnabled calls ∧ operation.Issued taken.answer moves
  | .adjust _ => taken.session.host.calls = before.host.calls

/-- On any scripted host, from any state of the driver, every operation of a run that ends speaks
with the host in handshakes, one for each of the moves that it is there to issue. -/
theorem handshakes_in_order {rounds : Nat} {taken : List (Taken ScriptedHost)}
    (finished : session.run rounds steps = .ok taken) :
    Session.Along Converses session steps taken := by
  have along : EndsIn (fun _ => True) (session.run rounds steps) fun taken =>
      Session.Along Converses session steps taken := by
    refine Session.run_along (fun step _ before => ?_) session
    cases step with
    | adjust change => exact rfl
    | perform operation =>
      refine Session.perform_endsIn (Driver.Ensures.mono (operation.perform_converses _ before) ?_)
      rintro answer after ⟨calls, moves, adds, conversation, -, issued⟩ log
      exact ⟨calls, moves, adds, conversation, conversation.listening, issued⟩
  exact along.of_ok finished

/-- Completes a move in the second round and another in the first. -/
def promptHost : ScriptedHost :=
  ofSetting {
    tapes8 := [(Register.interrupt, [0, Register.dataTxMoved, Register.secondPending])]
    tapes16 := [(Register.interrupt2, [Register.scratchMoved]),
      (Window.scratch.registers.count, [64]), (Window.dataRx.registers.count, [3])] } true

/-- Both windows of the set-up complete, and a copy with the interrupt on is late. -/
def lateSteps : List (Step Setting) :=
  [.perform .setUp, .adjust { clockStep := some 20001, interruptEnabled := some true },
    .perform (.copy .scratch .dataRx 3)]

theorem handshakes_in_order_lateSteps :
    ∃ taken, (Session.start promptHost {}).run 2 lateSteps = .ok taken ∧
      taken.map (·.answer) = [.count 64, .nothing, .count 3] ∧
      Session.Along Converses (Session.start promptHost {}) lateSteps taken := by
  obtain ⟨taken, finished, answers⟩ : ∃ taken,
      (Session.start promptHost {}).run 2 lateSteps = .ok taken ∧
        taken.map (·.answer) = [.count 64, .nothing, .count 3] :=
    exists_ok_of_endsIn (by decide +kernel)
  exact ⟨taken, finished, answers, handshakes_in_order finished⟩

end ScriptedHost

end RadioWindows
