import RadioWindows.Move

/-! The operations on windows and buffers. They remember little: which windows were last set to
an index past their end, and whether the data windows hold a frame. Nothing that is done to the
chip depends on it; it is there to be reported. -/

namespace RadioWindows

/-- A program that can look at and change what the driver remembers. -/
abbrev Driver := StateT Status Program

namespace Driver

def issue (move : Move) : Driver UInt16 := do
  move.issue (← get).timing

def indexSettled (w : Window) : Condition :=
  .read16 w.registers.status fun bits => .settled (bits &&& Register.indexBusy == 0)

def seek (timing : Timing) (w : Window) (index : UInt16) : Program Bool := do
  Program.write16 w.registers.index index
  Program.waitFor timing.indexTimeout timing.pollInterval (indexSettled w)

/-- Sets the cursor of a window. An index past the end is reported and flags the window until an
index settles again. -/
def setIndex (w : Window) (index : UInt16) : Driver Unit := do
  let settled ← seek (← get).timing w index
  if settled then
    modify (·.unflag w)
  else
    modify (·.flag w)
    Program.raise (.indexOutOfBounds w index)

/-- Reports a transfer that is about to be made at an index past the end. -/
def checkAccess (w : Window) : Driver Unit := do
  Program.raiseIf ((← get).outOfBounds.contains w) (.outOfBoundsAccess w)

def read (w : Window) (count : Nat) : Driver Bytes := do
  checkAccess w
  Program.readBytes w.registers.data count

def write (w : Window) (bytes : Bytes) : Driver Unit := do
  checkAccess w
  Program.writeBytes w.registers.data bytes

def readAt (w : Window) (index : UInt16) (count : Nat) : Driver Bytes := do
  setIndex w index
  read w count

def writeAt (w : Window) (index : UInt16) (bytes : Bytes) : Driver Unit := do
  setIndex w index
  write w bytes

def mountScratch (w : Window) : Driver UInt16 := issue ⟨w, .scratchPool, true, 0⟩

def unmountScratch (w : Window) : Driver Unit := discard (issue ⟨w, .scratchPool, false, 0⟩)

/-- After a reset the firmware has scratch in the window for outgoing data. Takes it from there,
mounts it for good into its own window, and returns its size. -/
def setUp : Driver UInt16 := do
  Program.log .settingUp
  unmountScratch .dataTx
  let length ← mountScratch .scratch
  modify fun status =>
    { ((status.mark .tx .unmounted).mark .rx .unmounted) with scratchLength := some length }
  Program.log (.scratchSized length)
  return length

/-- Only the mount states of data windows are remembered. -/
def markData (traffic : Traffic) (window : DataWindow) (state : MountState) : Driver Unit :=
  match traffic with
  | .management => return
  | .data => modify (·.mark window state)

/-- Allocates a buffer for an outgoing frame. The pool is asked for its free bytes first, so a
size that does not fit into a control word is never issued. If the chip allocates nothing, what
the window holds is released. -/
def allocate (traffic : Traffic) (needed : UInt16) : Driver (Except Refusal Unit) := do
  let w := traffic.txWindow
  let available := (← Program.read16 traffic.freeRegister) &&& Register.freeCountMask
  if available < needed then
    return .error (.insufficientPoolMemory available needed)
  let count ← issue ⟨w, traffic.pool, true, needed⟩
  if count = 0 then
    Program.raise (.allocationFailed w needed available)
    discard (issue ⟨w, traffic.pool, false, 0⟩)
    return .error (.allocationFailed w)
  modify (·.unflag w)
  markData traffic .tx .mounted
  return .ok ()

def discardTx (traffic : Traffic) : Driver Unit := do
  markData traffic .tx .unmounted
  discard (issue ⟨traffic.txWindow, traffic.pool, false, 0⟩)

def discardRx (traffic : Traffic) : Driver Unit := do
  markData traffic .rx .unmounted
  discard (issue ⟨traffic.rxWindow, traffic.pool, false, 0⟩)

def mountRx (w : Window) : Driver UInt16 := do
  let length ← issue ⟨w, .macFrame, true, 0⟩
  Program.raiseIf (length == 0) (.emptyRxMount w)
  if w = .dataRx then
    modify (·.mark .rx .mounted)
  return length

/-- Hands the frame in the window for outgoing frames to the chip, which then owns the buffer. -/
def send (traffic : Traffic) (length : UInt16) : Driver Unit := do
  discard (issue ⟨traffic.txWindow, .macFrame, false, length⟩)
  markData traffic .tx .unmounted

def copy (src dst : Window) (length : UInt16) : Driver UInt16 :=
  issue ⟨dst, .copy src dst, true, length⟩

end Driver

end RadioWindows
