import RadioWindows.Proofs.Composition

/-! The order in which the driver logs and acts. Whatever it is told, a record of a fault comes
right before the report of it, and a record of a move before the control word is written, with
nothing else logged, reported or started in between. -/

namespace RadioWindows

variable {α β : Type}

inductive Event where
  | noted (record : LogRecord)
  | asked (request : Request)
deriving DecidableEq, Repr

/-- The events, in order, by which a program may come to a value, whatever it is told. -/
def Program.Path : Program α → List Event → α → Prop
  | done value, events, out => events = [] ∧ value = out
  | ask request next, events, out =>
    ∃ reply rest, events = .asked request :: rest ∧ (next reply).Path rest out
  | note record next, events, out => ∃ rest, events = .noted record :: rest ∧ next.Path rest out
  | await _ _ _ next, events, out => ∃ held, (next held).Path events out

theorem Program.path_bind {program : Program α} {next : α → Program β} {events : List Event}
    {out : β} (path : (program >>= next).Path events out) :
    ∃ first rest value, events = first ++ rest ∧ program.Path first value ∧
      (next value).Path rest out := by
  change (program.bind next).Path events out at path
  induction program generalizing events with
  | done value => exact ⟨[], events, value, rfl, ⟨rfl, rfl⟩, path⟩
  | ask request others ih =>
    obtain ⟨reply, later, rfl, path⟩ := path
    obtain ⟨first, rest, value, rfl, begins, ends⟩ := ih reply path
    exact ⟨.asked request :: first, rest, value, rfl, ⟨reply, first, rfl, begins⟩, ends⟩
  | note record others ih =>
    obtain ⟨later, rfl, path⟩ := path
    obtain ⟨first, rest, value, rfl, begins, ends⟩ := ih path
    exact ⟨.noted record :: first, rest, value, rfl, ⟨first, rfl, begins⟩, ends⟩
  | await timeout interval condition others ih =>
    obtain ⟨held, path⟩ := path
    obtain ⟨first, rest, value, rfl, begins, ends⟩ := ih held path
    exact ⟨first, rest, value, rfl, ⟨held, begins⟩, ends⟩

def Event.IsAside : Event → Prop
  | noted record => record.level = .debug
  | asked (.report _) => False
  | asked (.write16 register _) => ∀ w : Window, register ≠ w.registers.control
  | asked _ => True

/-- A sequence of events in which each fault is logged right before it is reported and each move
right before its word is written. -/
inductive Story : List Event → Prop where
  | nil : Story []
  | aside {event : Event} {rest : List Event} (aside : event.IsAside) (later : Story rest) :
      Story (event :: rest)
  | fault (fault : Fault) {rest : List Event} (later : Story rest) :
      Story (.noted (.fault fault) :: .asked (.report fault) :: rest)
  | move (move : Move) {between rest : List Event} (asides : ∀ event ∈ between, event.IsAside)
      (later : Story rest) :
      Story (.noted (.moving move.pool move.target move.word) :: between ++
        .asked (.write16 move.target.registers.control move.word.bits) :: rest)

theorem Story.append {first rest : List Event} (begins : Story first) (ends : Story rest) :
    Story (first ++ rest) := by
  induction begins with
  | nil => exact ends
  | aside aside _ ih => exact .aside aside ih
  | fault fault _ ih => exact .fault fault ih
  | move move asides _ ih =>
    rw [List.append_assoc]
    exact .move move asides ih

theorem Story.of_asides {events : List Event} (asides : ∀ event ∈ events, event.IsAside) :
    Story events := by
  induction events with
  | nil => exact .nil
  | cons event rest ih =>
    rw [List.forall_mem_cons] at asides
    exact .aside asides.1 (ih asides.2)

namespace Program

def Tells (program : Program α) : Prop :=
  ∀ events value, program.Path events value → Story events

def Idles (program : Program α) : Prop :=
  ∀ events value, program.Path events value → ∀ event ∈ events, event.IsAside

theorem Idles.tells {program : Program α} (idles : program.Idles) : program.Tells :=
  fun events value path => .of_asides (idles events value path)

theorem tells_bind {program : Program α} {next : α → Program β} (first : program.Tells)
    (rest : ∀ value, (next value).Tells) : (program >>= next).Tells := by
  intro events out path
  obtain ⟨begun, ended, value, rfl, begins, ends⟩ := path_bind path
  exact (first begun value begins).append (rest value ended out ends)

theorem idles_bind {program : Program α} {next : α → Program β} (first : program.Idles)
    (rest : ∀ value, (next value).Idles) : (program >>= next).Idles := by
  intro events out path
  obtain ⟨begun, ended, value, rfl, begins, ends⟩ := path_bind path
  exact List.forall_mem_append.mpr ⟨first begun value begins, rest value ended out ends⟩

theorem idles_done (value : α) : (done value).Idles := by
  rintro events out ⟨rfl, -⟩
  exact nofun

theorem idles_ask {request : Request} {next : request.Reply → Program α}
    (aside : (Event.asked request).IsAside) (rest : ∀ reply, (next reply).Idles) :
    (ask request next).Idles := by
  rintro events out ⟨reply, later, rfl, path⟩
  exact List.forall_mem_cons.mpr ⟨aside, rest reply later out path⟩

theorem idles_tell {request : Request} (aside : (Event.asked request).IsAside) :
    (tell request).Idles := idles_ask aside fun _ => idles_done ()

theorem idles_read16 (register : UInt8) : (read16 register).Idles :=
  idles_ask trivial fun _ => idles_done _

theorem idles_write16 {register : UInt8} (apart : ∀ w : Window, register ≠ w.registers.control)
    (value : UInt16) : (write16 register value).Idles := idles_tell apart

theorem idles_log {record : LogRecord} (quiet : record.level = .debug) : (log record).Idles := by
  rintro events out ⟨later, rfl, rfl, -⟩
  exact List.forall_mem_singleton.mpr quiet

theorem idles_waitFor (timeout : UInt64) (interval : UInt32) (condition : Condition) :
    (waitFor timeout interval condition).Idles := by
  rintro events out ⟨held, rfl, -⟩
  exact nofun

theorem tells_raise (fault : Fault) : (raise fault).Tells := by
  rintro events out ⟨later, rfl, reply, rest, rfl, rfl, -⟩
  exact .fault fault .nil

theorem tells_raiseIf (condition : Bool) (fault : Fault) : (raiseIf condition fault).Tells := by
  cases condition
  · exact (idles_done ()).tells
  · exact tells_raise fault

end Program

section Move

open Program

theorem Completion.idles_clear (w : Window) : w.registers.completion.clear.Idles := by
  have apart (v : Window) : Register.interrupt2 ≠ v.registers.control := by cases v <;> decide
  cases w
  case dataRx | dataTx => exact idles_tell trivial
  all_goals exact idles_write16 apart _

theorem Completion.idles_await (timing : Timing) (w : Window) :
    (w.registers.completion.await timing).Idles := by
  have apart (v : Window) : Register.interrupt2 ≠ v.registers.control := by cases v <;> decide
  refine idles_bind (idles_waitFor _ _ _) fun completed => ?_
  cases completed
  · exact idles_done _
  · refine idles_bind ?_ fun _ => idles_done _
    cases w
    case dataRx | dataTx => exact idles_tell trivial
    all_goals exact idles_bind (idles_write16 apart _) fun _ => idles_tell trivial

theorem Move.idles_placeOperands (move : Move) : move.placeOperands.Idles := by
  have apart (v w : Window) : v.registers.count ≠ w.registers.control := by
    cases v <;> cases w <;> decide
  rw [placeOperands]
  split
  · exact idles_write16 (apart _) _
  · exact idles_done ()

theorem idles_restoreInterrupt (wasEnabled : Bool) : (restoreInterrupt wasEnabled).Idles := by
  cases wasEnabled <;> exact idles_tell trivial

/-- Between the record of a move and its word only the interrupt is held, a leftover bit cleared
and the operands of a copy put in place. -/
theorem Move.tells_issue (timing : Timing) (move : Move) : (move.issue timing).Tells := by
  intro events out path
  obtain ⟨_, _, _, rfl, ⟨_, rfl, rfl, -⟩, wasEnabled, _, rfl, holding⟩ := path_bind path
  obtain ⟨_, restoring, count, rfl, held, restored⟩ := path_bind holding
  obtain ⟨clearing, _, _, rfl, cleared, prepared⟩ := path_bind held
  obtain ⟨placing, _, _, rfl, placed, issued⟩ := path_bind prepared
  obtain ⟨_, waiting, _, rfl, ⟨_, _, rfl, rfl, -⟩, waited⟩ := path_bind issued
  have asides : ∀ event ∈ .asked .disableInterrupt :: (clearing ++ placing), event.IsAside :=
    List.forall_mem_cons.mpr ⟨trivial, List.forall_mem_append.mpr
      ⟨Completion.idles_clear _ _ _ cleared, idles_placeOperands move _ _ placed⟩⟩
  have enables : (tell .enableInterrupt).Idles := idles_tell trivial
  have waits : Story waiting := by
    refine tells_bind enables.tells (fun _ => ?_) _ _ waited
    refine tells_bind (Completion.idles_await timing _).tells fun completed => ?_
    refine tells_bind (idles_read16 _).tells fun count => ?_
    exact tells_bind (tells_raiseIf _ _) fun _ => (idles_done count).tells
  have restores : Story restoring := by
    refine tells_bind (idles_restoreInterrupt wasEnabled).tells (fun _ => ?_) _ _ restored
    exact (idles_done count).tells
  have story := Story.move move asides (waits.append restores)
  simpa using story

end Move

theorem composes_tells : Program.Composes fun _ program => program.Tells where
  done value := (Program.idles_done value).tells
  bind := Program.tells_bind
  settingUp := (Program.idles_log rfl).tells
  scratchSized _ := (Program.idles_log rfl).tells
  raise := Program.tells_raise
  readFree _ := (Program.idles_read16 _).tells
  readData w count := by
    have idles : (Program.readBytes w.registers.data count).Idles :=
      Program.idles_ask trivial fun _ => Program.idles_done _
    exact idles.tells
  writeData w bytes := by
    have idles : (Program.writeBytes w.registers.data bytes).Idles := Program.idles_tell trivial
    exact idles.tells
  seek timing w index := by
    have apart (v : Window) : w.registers.index ≠ v.registers.control := by
      cases v <;> cases w <;> decide
    exact (Program.idles_bind (Program.idles_write16 apart index) fun _ =>
      Program.idles_waitFor _ _ _).tells
  issue := Move.tells_issue

end RadioWindows
