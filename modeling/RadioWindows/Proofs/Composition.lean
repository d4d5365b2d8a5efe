import RadioWindows.Proofs.Parts

/-! Operations as programs. They are put together from moves, settings of an index, transfers, looks
at a free count, reports, and records of the set-up; what holds of each of these, and of programs
put together from programs of which it holds, holds of every operation, whatever the driver
remembers. -/

namespace RadioWindows

variable {α β : Type}

/-- A property that the pieces of an operation have, and programs put together from them. -/
structure Program.Composes (holds : (α : Type) → Program α → Prop) : Prop where
  done : ∀ {α : Type} (value : α), holds α (done value)
  bind : ∀ {α β : Type} {program : Program α} {next : α → Program β}, holds α program →
    (∀ value, holds β (next value)) → holds β (program >>= next)
  settingUp : holds Unit (log .settingUp)
  scratchSized : ∀ length, holds Unit (log (.scratchSized length))
  raise : ∀ fault, holds Unit (raise fault)
  readFree : ∀ traffic : Traffic, holds UInt16 (read16 traffic.freeRegister)
  readData : ∀ (w : Window) (count : Nat), holds Bytes (readBytes w.registers.data count)
  writeData : ∀ (w : Window) (bytes : Bytes), holds Unit (writeBytes w.registers.data bytes)
  seek : ∀ (timing : Timing) (w : Window) (index : UInt16), holds Bool (Driver.seek timing w index)
  issue : ∀ (timing : Timing) (move : Move), holds UInt16 (move.issue timing)

namespace Driver

variable {holds : (α : Type) → Program α → Prop}

/-- The property holds of a part of the driver, whatever is remembered. -/
def Meets (holds : (α : Type) → Program α → Prop) (driver : Driver α) : Prop :=
  ∀ status, holds (α × Status) (driver.run status)

section Pieces

variable (composes : Program.Composes holds)
include composes

theorem meets_pure (value : α) : Meets holds (pure value) :=
  fun status => composes.done (value, status)

theorem meets_bind {driver : Driver α} {next : α → Driver β} (first : Meets holds driver)
    (rest : ∀ value, Meets holds (next value)) : Meets holds (driver >>= next) :=
  fun status => composes.bind (first status) fun out => rest out.1 out.2

omit composes in
theorem meets_get {next : Status → Driver α} (rest : ∀ status, Meets holds (next status)) :
    Meets holds (get >>= next) :=
  fun status => rest status status

theorem meets_modify (change : Status → Status) : Meets holds (modify change : Driver Unit) :=
  fun status => composes.done ((), change status)

theorem meets_lift {program : Program α} (piece : holds α program) :
    Meets holds (liftM program : Driver α) :=
  fun status => composes.bind piece fun value => composes.done (value, status)

theorem meets_raiseIf (condition : Bool) (fault : Fault) :
    Meets holds (liftM (Program.raiseIf condition fault) : Driver Unit) := by
  cases condition
  · exact meets_pure composes ()
  · exact meets_lift composes (composes.raise fault)

theorem meets_issue (move : Move) : Meets holds (issue move) :=
  meets_get fun status => meets_lift composes (composes.issue status.timing move)

theorem meets_setIndex (w : Window) (index : UInt16) : Meets holds (setIndex w index) := by
  refine meets_get fun status => ?_
  refine meets_bind composes (meets_lift composes (composes.seek _ w index)) fun settled => ?_
  cases settled
  · exact meets_bind composes (meets_modify composes _) fun _ =>
      meets_lift composes (composes.raise _)
  · exact meets_modify composes _

theorem meets_checkAccess (w : Window) : Meets holds (checkAccess w) :=
  meets_get fun _ => meets_raiseIf composes _ _

theorem meets_read (w : Window) (count : Nat) : Meets holds (read w count) :=
  meets_bind composes (meets_checkAccess composes w) fun _ =>
    meets_lift composes (composes.readData w count)

theorem meets_write (w : Window) (bytes : Bytes) : Meets holds (write w bytes) :=
  meets_bind composes (meets_checkAccess composes w) fun _ =>
    meets_lift composes (composes.writeData w bytes)

end Pieces

end Driver

theorem Operation.perform_meets {holds : (α : Type) → Program α → Prop}
    (composes : Program.Composes holds) (operation : Operation) :
    Driver.Meets holds operation.perform := by
  have parts : operation.Parts fun _ => Driver.Meets holds := {
    pure := Driver.meets_pure composes
    bind := Driver.meets_bind composes
    query asks := by
      cases operation with
      | scratchLength | isOutOfBounds _ | dataState _ | timing =>
        exact Driver.meets_get fun _ => Driver.meets_pure composes _
      | _ => exact asks.elim
    issue move _ := Driver.meets_issue composes move
    setIndex w _ := Driver.meets_setIndex composes w
    read w _ := Driver.meets_read composes w
    write w _ := Driver.meets_write composes w
    readFree traffic := Driver.meets_lift composes (composes.readFree traffic)
    raise fault _ := Driver.meets_lift composes (composes.raise fault)
    settingUp := Driver.meets_lift composes composes.settingUp
    scratchSized length := Driver.meets_lift composes (composes.scratchSized length)
    unflag _ := Driver.meets_modify composes _
    mark _ _ _ := Driver.meets_modify composes _
    recordSetUp _ _ := Driver.meets_modify composes _ }
  exact parts.perform

end RadioWindows
