import RadioWindows.Window

/-! Bus addresses of the registers and the bits in them. Each window has five registers and one
completion bit; the data windows have theirs in the first interrupt register, the others in the
second. -/

namespace RadioWindows

namespace Register

def interrupt : UInt8 := 0x01
def interrupt2 : UInt8 := 0x2d
def dataFree : UInt8 := 0x2e
def mgmtFree : UInt8 := 0x2f

/-- Only the lower twelve bits of a free count are valid. -/
def freeCountMask : UInt16 := 0x0fff

/-- Set in the first interrupt register while any bit of the second is set. -/
def secondPending : UInt8 := 0x01
def dataRxMoved : UInt8 := 0x02
def dataTxMoved : UInt8 := 0x04

def scratchMoved : UInt16 := 0x04
def spareMoved : UInt16 := 0x08
def mgmtRxMoved : UInt16 := 0x10
def mgmtTxMoved : UInt16 := 0x20
def secondMoved : UInt16 := mgmtRxMoved ||| mgmtTxMoved ||| scratchMoved ||| spareMoved

/-- Set in a window's status register while its index is being updated. -/
def indexBusy : UInt16 := 0x01

end Register

/-- Where a window signals that a move has completed. -/
inductive Completion where
  | first (mask : UInt8)
  | second (mask : UInt16)
deriving DecidableEq, Repr

structure Registers where
  /-- Write only: moves the cursor of the window. -/
  index : UInt8
  status : UInt8
  /-- Writing a control word here starts a move. -/
  control : UInt8
  /-- Holds the number of bytes mounted by the last move; a copy takes its operands from here. -/
  count : UInt8
  /-- Reading or writing accesses the byte at the cursor and advances it. -/
  data : UInt8
  completion : Completion
deriving DecidableEq, Repr

def Window.registers : Window → Registers
  | .dataRx => ⟨0x27, 0x28, 0x25, 0x26, 0x20, .first Register.dataRxMoved⟩
  | .dataTx => ⟨0x2b, 0x2c, 0x29, 0x2a, 0x21, .first Register.dataTxMoved⟩
  | .mgmtRx => ⟨0x1a, 0x1b, 0x18, 0x19, 0x06, .second Register.mgmtRxMoved⟩
  | .mgmtTx => ⟨0x1e, 0x1f, 0x1c, 0x1d, 0x07, .second Register.mgmtTxMoved⟩
  | .scratch => ⟨0x0c, 0x0d, 0x0a, 0x0b, 0x08, .second Register.scratchMoved⟩
  | .spare => ⟨0x22, 0x23, 0x0e, 0x0f, 0x09, .second Register.spareMoved⟩

def Window.completesFirst (w : Window) : Bool := w.id ≤ 1

def Window.owning? (kind : Registers → UInt8) (address : UInt8) : Option Window :=
  Window.all.find? fun w => kind w.registers == address

end RadioWindows
