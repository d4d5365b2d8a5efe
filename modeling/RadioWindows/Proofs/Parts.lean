import RadioWindows.Operation

/-! The parts of an operation: the moves it may issue, the windows it seeks and transfers at, the
mount states it may mark, a look at a free count, and reports. What holds of its parts, and of
whatever is put together from parts of which it holds, holds of the operation. -/

namespace RadioWindows

namespace Operation

def IsQuery : Operation → Prop
  | scratchLength | isOutOfBounds _ | dataState _ | timing => True
  | _ => False

def moves : Operation → List Move
  | setUp => [⟨.dataTx, .scratchPool, false, 0⟩, ⟨.scratch, .scratchPool, true, 0⟩]
  | mountScratch w => [⟨w, .scratchPool, true, 0⟩]
  | unmountScratch w => [⟨w, .scratchPool, false, 0⟩]
  | allocate traffic size =>
    [⟨traffic.txWindow, traffic.pool, true, size⟩, ⟨traffic.txWindow, traffic.pool, false, 0⟩]
  | discardTx traffic => [⟨traffic.txWindow, traffic.pool, false, 0⟩]
  | discardRx traffic => [⟨traffic.rxWindow, traffic.pool, false, 0⟩]
  | mountRx w => [⟨w, .macFrame, true, 0⟩]
  | send traffic size => [⟨traffic.txWindow, .macFrame, false, size⟩]
  | copy src dst size => [⟨dst, .copy src dst, true, size⟩]
  | move issued => [issued]
  | _ => []

def accesses : Operation → List Window
  | setIndex w _ | read w _ | readAt w _ _ | write w _ | writeAt w _ _ => [w]
  | _ => []

def marks : Operation → List DataWindow
  | setUp => [.tx, .rx]
  | allocate traffic _ | discardTx traffic | send traffic _ =>
    if traffic = .data then [.tx] else []
  | discardRx traffic => if traffic = .data then [.rx] else []
  | mountRx w => if w = .dataRx then [.rx] else []
  | _ => []

def targets (operation : Operation) : List Window :=
  operation.moves.map Move.target ++ operation.accesses

@[simp] theorem targets_allocate (traffic : Traffic) (size : UInt16) :
    (allocate traffic size).targets = [traffic.txWindow, traffic.txWindow] := by
  cases traffic <;> rfl

@[simp] theorem targets_discardTx (traffic : Traffic) :
    (discardTx traffic).targets = [traffic.txWindow] := by cases traffic <;> rfl

@[simp] theorem targets_discardRx (traffic : Traffic) :
    (discardRx traffic).targets = [traffic.rxWindow] := by cases traffic <;> rfl

@[simp] theorem targets_mountRx (w : Window) : (mountRx w).targets = [w] := rfl

@[simp] theorem targets_send (traffic : Traffic) (size : UInt16) :
    (send traffic size).targets = [traffic.txWindow] := rfl

theorem dataTx_mem_targets {operation : Operation} (marked : .tx ∈ operation.marks) :
    .dataTx ∈ operation.targets := by
  cases operation with
  | setUp => exact List.mem_cons_self
  | allocate traffic size | discardTx traffic | send traffic size =>
    cases traffic with
    | management => simp [marks] at marked
    | data => exact List.mem_cons_self
  | discardRx traffic => cases traffic <;> simp [marks] at marked
  | mountRx w => cases w <;> simp [marks] at marked
  | _ => simp [marks] at marked

end Operation

def Fault.isTimeout : Fault → Bool
  | moveTimeout _ | indexOutOfBounds .. => true
  | _ => false

/-- A property of the parts of an operation and of whatever is put together from them. Reports of
waits in vain are parts of a move and of a setting of an index. -/
structure Operation.Parts (operation : Operation) (holds : (α : Type) → Driver α → Prop) :
    Prop where
  pure : ∀ {α : Type} (value : α), holds α (pure value)
  bind : ∀ {α β : Type} {driver : Driver α} {next : α → Driver β}, holds α driver →
    (∀ value, holds β (next value)) → holds β (driver >>= next)
  query : operation.IsQuery → holds Answer operation.perform
  issue : ∀ move ∈ operation.moves, holds UInt16 (Driver.issue move)
  setIndex : ∀ w ∈ operation.accesses, ∀ index, holds Unit (Driver.setIndex w index)
  read : ∀ w ∈ operation.accesses, ∀ count, holds Bytes (Driver.read w count)
  write : ∀ w ∈ operation.accesses, ∀ bytes, holds Unit (Driver.write w bytes)
  readFree : ∀ traffic : Traffic,
    holds UInt16 (liftM (Program.read16 traffic.freeRegister) : Driver UInt16)
  raise : ∀ fault, fault.isTimeout = false →
    holds Unit (liftM (Program.raise fault) : Driver Unit)
  settingUp : holds Unit (liftM (Program.log .settingUp) : Driver Unit)
  scratchSized : ∀ length, holds Unit (liftM (Program.log (.scratchSized length)) : Driver Unit)
  unflag : ∀ w, holds Unit (modify (·.unflag w) : Driver Unit)
  mark : ∀ window ∈ operation.marks, ∀ state,
    holds Unit (modify (·.mark window state) : Driver Unit)
  recordSetUp : operation = .setUp → ∀ length, holds Unit (modify fun status =>
    { ((status.mark .tx .unmounted).mark .rx .unmounted) with scratchLength := some length } :
      Driver Unit)

namespace Operation.Parts

variable {α β : Type} {operation : Operation} {holds : (α : Type) → Driver α → Prop}
  (parts : operation.Parts holds)
include parts

theorem map {driver : Driver α} (change : α → β) (part : holds α driver) :
    holds β (change <$> driver) := by
  rw [← bind_pure_comp]
  exact parts.bind part fun value => parts.pure (change value)

theorem discarded {driver : Driver α} (part : holds α driver) :
    holds Unit (discard driver : Driver Unit) := parts.map (fun _ => ()) part

theorem answered (answer : Answer) {driver : Driver Unit} (part : holds Unit driver) :
    holds Answer (do driver; return answer) :=
  parts.bind part fun _ => parts.pure answer

theorem markData {traffic : Traffic} {window : DataWindow}
    (marked : traffic = .data → window ∈ operation.marks) (state : MountState) :
    holds Unit (Driver.markData traffic window state) := by
  cases traffic with
  | management => exact parts.pure ()
  | data => exact parts.mark window (marked rfl) state

theorem setUp (isSetUp : operation = .setUp) : holds UInt16 Driver.setUp := by
  have released : ⟨.dataTx, .scratchPool, false, 0⟩ ∈ operation.moves := by simp [isSetUp, moves]
  have mounted : ⟨.scratch, .scratchPool, true, 0⟩ ∈ operation.moves := by simp [isSetUp, moves]
  refine parts.bind parts.settingUp fun _ => ?_
  refine parts.bind (parts.discarded (parts.issue _ released)) fun _ => ?_
  refine parts.bind (parts.issue _ mounted) fun length => ?_
  refine parts.bind (parts.recordSetUp isSetUp length) fun _ => ?_
  exact parts.bind (parts.scratchSized length) fun _ => parts.pure length

theorem allocate {traffic : Traffic} {size : UInt16}
    (allocates : operation = .allocate traffic size) :
    holds (Except Refusal Unit) (Driver.allocate traffic size) := by
  have mounted : ⟨traffic.txWindow, traffic.pool, true, size⟩ ∈ operation.moves := by
    simp [allocates, moves]
  have released : ⟨traffic.txWindow, traffic.pool, false, 0⟩ ∈ operation.moves := by
    simp [allocates, moves]
  refine parts.bind (parts.readFree traffic) fun free => ?_
  dsimp only
  split
  · exact parts.pure _
  · refine parts.bind (parts.issue _ mounted) fun count => ?_
    split
    · refine parts.bind (parts.raise _ rfl) fun _ => ?_
      exact parts.bind (parts.discarded (parts.issue _ released)) fun _ => parts.pure _
    · refine parts.bind (parts.unflag _) fun _ => ?_
      refine parts.bind (parts.markData (fun data => ?_) _) fun _ => parts.pure _
      simp [allocates, data, marks]

theorem mountRx {w : Window} (mounts : operation = .mountRx w) :
    holds UInt16 (Driver.mountRx w) := by
  have mounted : ⟨w, .macFrame, true, 0⟩ ∈ operation.moves := by simp [mounts, moves]
  refine parts.bind (parts.issue _ mounted) fun length => ?_
  have empty : holds Unit
      (liftM (Program.raiseIf (length == 0) (.emptyRxMount w)) : Driver Unit) := by
    cases length == 0
    · exact parts.pure ()
    · exact parts.raise _ rfl
  refine parts.bind empty fun _ => ?_
  split
  · next data =>
    refine parts.bind (parts.mark .rx ?_ _) fun _ => parts.pure length
    simp [mounts, data, marks]
  · exact parts.pure length

end Operation.Parts

/-- What holds of the parts holds of the operation. -/
theorem Operation.Parts.perform {operation : Operation} {holds : (α : Type) → Driver α → Prop}
    (parts : operation.Parts holds) : holds Answer operation.perform := by
  have moved {move : Move} (moves : operation.moves = [move]) :
      holds UInt16 (Driver.issue move) := parts.issue move (moves ▸ List.mem_cons_self)
  have accessed {w : Window} (accesses : operation.accesses = [w]) : w ∈ operation.accesses :=
    accesses ▸ List.mem_cons_self
  cases operation with
  | scratchLength | isOutOfBounds _ | dataState _ | timing => exact parts.query trivial
  | setUp => exact parts.map _ (parts.setUp rfl)
  | mountScratch w => exact parts.map _ (moved rfl)
  | unmountScratch w => exact parts.answered _ (parts.discarded (moved rfl))
  | allocate traffic size => exact parts.map _ (parts.allocate rfl)
  | discardTx traffic | discardRx traffic =>
    refine parts.answered _ (parts.bind (parts.markData ?_ _) fun _ => parts.discarded (moved rfl))
    exact fun data => by simp [data, marks]
  | mountRx w => exact parts.map _ (parts.mountRx rfl)
  | send traffic size =>
    refine parts.answered _ (parts.bind (parts.discarded (moved rfl)) fun _ => parts.markData ?_ _)
    exact fun data => by simp [data, marks]
  | copy src dst size => exact parts.map _ (moved rfl)
  | move move => exact parts.map _ (moved rfl)
  | setIndex w index => exact parts.answered _ (parts.setIndex w (accessed rfl) index)
  | read w count => exact parts.map _ (parts.read w (accessed rfl) count)
  | readAt w index count =>
    exact parts.map _ (parts.bind (parts.setIndex w (accessed rfl) index) fun _ =>
      parts.read w (accessed rfl) count)
  | write w bytes => exact parts.answered _ (parts.write w (accessed rfl) bytes)
  | writeAt w index bytes =>
    exact parts.answered _ (parts.bind (parts.setIndex w (accessed rfl) index) fun _ =>
      parts.write w (accessed rfl) bytes)

end RadioWindows
