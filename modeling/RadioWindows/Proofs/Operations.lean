import RadioWindows.Proofs.Parts
import RadioWindows.Proofs.Runs

/-! What an operation keeps. A property of the host and of the mount states that its moves, its
transfers and its marks keep, the operation keeps; the window flags and the scratch length are
beside the point. -/

namespace RadioWindows

variable {σ α β : Type} [Host σ]

/-- What a property of the host and of the mount states must survive. -/
structure Operation.Spares (operation : Operation) (allowed : Halt → Prop) (rounds : Nat)
    (timing : Timing) (kept : σ → MountStates → Prop) : Prop where
  issue : ∀ move ∈ operation.moves, ∀ host states, kept host states →
    (move.issue timing).Ensures allowed rounds host fun _ after => kept after states
  seek : ∀ w ∈ operation.accesses, ∀ index host states, kept host states →
    (Driver.seek timing w index).Ensures allowed rounds host fun _ after => kept after states
  readData : ∀ w ∈ operation.accesses, ∀ count host states, kept host states →
    EndsIn allowed (Host.answer (.readBytes w.registers.data count) host) fun answered =>
      kept answered.2 states
  writeData : ∀ w ∈ operation.accesses, ∀ bytes host states, kept host states →
    EndsIn allowed (Host.answer (.writeBytes w.registers.data bytes) host) fun answered =>
      kept answered.2 states
  readFree : ∀ traffic host states, kept host states →
    EndsIn allowed (Host.answer (.read16 (Traffic.freeRegister traffic)) host) fun answered =>
      kept answered.2 states
  report : ∀ fault host states, kept host states →
    EndsIn allowed (Host.answer (.report fault) host) fun answered => kept answered.2 states
  mark : ∀ window ∈ operation.marks, ∀ state host states, kept host states →
    kept host (states.set window state)

namespace Driver

variable {allowed : Halt → Prop} {rounds : Nat} {timing : Timing}
  {kept : σ → MountStates → Prop}

/-- A part of the driver that ends, keeps the property and does not change the timing. -/
def Keeps (allowed : Halt → Prop) (rounds : Nat) (timing : Timing) (kept : σ → MountStates → Prop)
    (driver : Driver α) : Prop :=
  ∀ session : Session σ, session.status.timing = timing →
    kept session.host session.status.dataStates →
      driver.Ensures allowed rounds session fun _ after =>
        after.status.timing = timing ∧ kept after.host after.status.dataStates

theorem keeps_pure (value : α) : Keeps allowed rounds timing kept (pure value) :=
  fun _ same before => ⟨same, before⟩

theorem keeps_bind {driver : Driver α} {next : α → Driver β}
    (first : Keeps allowed rounds timing kept driver)
    (rest : ∀ value, Keeps allowed rounds timing kept (next value)) :
    Keeps allowed rounds timing kept (driver >>= next) := by
  intro session same before
  rw [ensures_bind]
  exact Ensures.mono (first session same before) fun value middle established =>
    rest value middle established.1 established.2

theorem keeps_get {next : Status → Driver α}
    (rest : ∀ status, status.timing = timing → Keeps allowed rounds timing kept (next status)) :
    Keeps allowed rounds timing kept (get >>= next) := by
  intro session same before
  rw [ensures_bind, ensures_get]
  exact rest session.status same session same before

theorem keeps_modify {change : Status → Status}
    (sameTiming : ∀ status, (change status).timing = status.timing)
    (keeps : ∀ host status, kept host status.dataStates → kept host (change status).dataStates) :
    Keeps allowed rounds timing kept (modify change : Driver Unit) := by
  intro session same before
  rw [ensures_modify]
  exact ⟨(sameTiming session.status).trans same, keeps session.host session.status before⟩

theorem keeps_lift {program : Program α}
    (keeps : ∀ host states, kept host states →
      program.Ensures allowed rounds host fun _ after => kept after states) :
    Keeps allowed rounds timing kept (liftM program : Driver α) := by
  intro session same before
  rw [ensures_lift]
  exact Program.Ensures.mono (keeps session.host _ before) fun _ host after => ⟨same, after⟩

theorem keeps_flag (w : Window) :
    Keeps allowed rounds timing kept (modify (·.flag w) : Driver Unit) :=
  keeps_modify (fun _ => rfl) fun _ _ before => before

theorem keeps_unflag (w : Window) :
    Keeps allowed rounds timing kept (modify (·.unflag w) : Driver Unit) :=
  keeps_modify (fun _ => rfl) fun _ _ before => before

section Spared

variable {operation : Operation} (spares : operation.Spares allowed rounds timing kept)
include spares

theorem keeps_raise (fault : Fault) :
    Keeps allowed rounds timing kept (liftM (Program.raise fault) : Driver Unit) :=
  keeps_lift fun host states before => by
    rw [Program.ensures_raise]
    exact spares.report fault host states before

theorem keeps_raiseIf (condition : Bool) (fault : Fault) :
    Keeps allowed rounds timing kept (liftM (Program.raiseIf condition fault) : Driver Unit) := by
  cases condition
  · exact keeps_pure ()
  · exact keeps_raise spares fault

theorem keeps_mark {window : DataWindow} (marked : window ∈ operation.marks) (state : MountState) :
    Keeps allowed rounds timing kept (modify (·.mark window state) : Driver Unit) :=
  keeps_modify (fun _ => rfl) fun host _ before => spares.mark window marked state host _ before

theorem keeps_issue {move : Move} (issued : move ∈ operation.moves) :
    Keeps allowed rounds timing kept (issue move) := by
  refine keeps_get fun status same => keeps_lift ?_
  rw [same]
  exact spares.issue move issued

theorem keeps_setIndex {w : Window} (accessed : w ∈ operation.accesses) (index : UInt16) :
    Keeps allowed rounds timing kept (setIndex w index) := by
  refine keeps_get fun status same => keeps_bind (keeps_lift ?_) fun settled => ?_
  · rw [same]
    exact spares.seek w accessed index
  · cases settled
    · exact keeps_bind (keeps_flag w) fun _ => keeps_raise spares _
    · exact keeps_unflag w

theorem keeps_checkAccess (w : Window) : Keeps allowed rounds timing kept (checkAccess w) :=
  keeps_get fun _ _ => keeps_raiseIf spares _ _

theorem keeps_read {w : Window} (accessed : w ∈ operation.accesses) (count : Nat) :
    Keeps allowed rounds timing kept (read w count) := by
  refine keeps_bind (keeps_checkAccess spares w) fun _ => keeps_lift fun host states before => ?_
  rw [Program.readBytes, Program.ensures_ask]
  exact spares.readData w accessed count host states before

theorem keeps_write {w : Window} (accessed : w ∈ operation.accesses) (bytes : Bytes) :
    Keeps allowed rounds timing kept (write w bytes) := by
  refine keeps_bind (keeps_checkAccess spares w) fun _ => keeps_lift fun host states before => ?_
  rw [Program.writeBytes, Program.ensures_tell]
  exact spares.writeData w accessed bytes host states before

end Spared

end Driver

theorem Operation.keeps_perform {allowed : Halt → Prop} {rounds : Nat} {timing : Timing}
    {kept : σ → MountStates → Prop} {operation : Operation}
    (spares : operation.Spares allowed rounds timing kept) :
    Driver.Keeps allowed rounds timing kept operation.perform := by
  have parts : operation.Parts fun _ => Driver.Keeps allowed rounds timing kept := {
    pure := Driver.keeps_pure
    bind := Driver.keeps_bind
    query asks := by
      cases operation with
      | scratchLength | isOutOfBounds _ | dataState _ | timing =>
        exact Driver.keeps_get fun _ _ => Driver.keeps_pure _
      | _ => exact asks.elim
    issue move issued := Driver.keeps_issue spares issued
    setIndex w accessed := Driver.keeps_setIndex spares accessed
    read w accessed := Driver.keeps_read spares accessed
    write w accessed := Driver.keeps_write spares accessed
    readFree traffic := Driver.keeps_lift fun host states before => by
      rw [Program.read16, Program.ensures_ask]
      exact spares.readFree traffic host states before
    raise fault _ := Driver.keeps_raise spares fault
    settingUp := Driver.keeps_lift fun _ _ before => before
    scratchSized _ := Driver.keeps_lift fun _ _ before => before
    unflag := Driver.keeps_unflag
    mark window marked := Driver.keeps_mark spares marked
    recordSetUp isSetUp _ := by
      have marks : .tx ∈ operation.marks ∧ .rx ∈ operation.marks := by simp [isSetUp, marks]
      refine Driver.keeps_modify (fun _ => rfl) fun host _ before => ?_
      exact spares.mark .rx marks.2 _ host _ (spares.mark .tx marks.1 _ host _ before) }
  exact parts.perform

/-- What every operation spares and no change from outside touches holds after every step of a
run. -/
theorem Session.run_spares {χ : Type} [Adjustable σ χ] {allowed : Halt → Prop} {rounds : Nat}
    {timing : Timing} {kept : σ → Prop} {steps : List (Step χ)}
    (spares : ∀ operation : Operation,
      operation.Spares allowed rounds timing fun host _ => kept host)
    (adjusts : ∀ change, .adjust change ∈ steps → ∀ host, kept host →
      kept (Adjustable.adjust change host))
    {session : Session σ} (sameTiming : session.status.timing = timing)
    (before : kept session.host) :
    EndsIn allowed (session.run rounds steps) fun taken =>
      ∀ one ∈ taken, kept one.session.host := by
  let holds (session : Session σ) : Prop := kept session.host
  let keeps (session : Session σ) : Prop := session.status.timing = timing ∧ holds session
  have along : EndsIn allowed (session.run rounds steps) fun taken => keeps (session.after taken) ∧
      Along (fun _ _ taken => holds taken.session) session steps taken := by
    refine run_endsIn (fun step member session now => ?_) ⟨sameTiming, before⟩
    cases step with
    | perform operation =>
      have performed := Operation.keeps_perform (spares operation) session now.1 now.2
      exact perform_endsIn (performed.mono fun _ _ after _ => ⟨after, after.2⟩)
    | adjust change =>
      have after := adjusts change member session.host now.2
      exact ⟨⟨now.1, after⟩, after⟩
  exact EndsIn.mono along fun taken established => established.2.forall_mem

end RadioWindows
