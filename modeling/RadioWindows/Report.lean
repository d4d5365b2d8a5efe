import RadioWindows.ControlWord

/-! What the driver tells its surroundings: refusals, which an operation returns; faults, which
go to the host and abort nothing; and log records. Each has a fixed text. -/

namespace RadioWindows

inductive Refusal where
  /-- There is no window with that number. -/
  | invalidWindow (id : UInt8)
  /-- The pool does not have enough free bytes. -/
  | insufficientPoolMemory (available needed : UInt16)
  /-- The pool has enough free bytes, but the chip allocated nothing. -/
  | allocationFailed (window : Window)
deriving DecidableEq, Repr

namespace Refusal

def name : Refusal → String
  | invalidWindow .. => "InvalidWindow"
  | insufficientPoolMemory .. => "InsufficientPoolMemory"
  | allocationFailed .. => "AllocationFailed"

def describe (refusal : Refusal) : String :=
  match refusal with
  | invalidWindow id => s!"{refusal.name}({id})"
  | insufficientPoolMemory available needed =>
    s!"{refusal.name} \x7b available: {available}, needed: {needed} \x7d"
  | allocationFailed w => s!"{refusal.name} \x7b window: {w.describe} \x7d"

end Refusal

def Window.ofId (id : UInt8) : Except Refusal Window :=
  match Window.ofId? id with
  | some w => .ok w
  | none => .error (.invalidWindow id)

/-- A condition that the driver notices and carries on after. -/
inductive Fault where
  /-- Completion of a move was not signalled in time: the byte count of that move cannot be
  relied on. -/
  | moveTimeout (window : Window)
  /-- An index did not settle, because it lies past the end of the window. -/
  | indexOutOfBounds (window : Window) (index : UInt16)
  /-- A transfer was made at an index that had not settled. -/
  | outOfBoundsAccess (window : Window)
  /-- The pool reported enough free bytes, but an allocation yielded none. -/
  | allocationFailed (window : Window) (requested available : UInt16)
  /-- Mounting a received frame gave a length of zero. -/
  | emptyRxMount (window : Window)
deriving DecidableEq, Repr

namespace Fault

def name : Fault → String
  | moveTimeout .. => "MoveTimeout"
  | indexOutOfBounds .. => "IndexOutOfBounds"
  | outOfBoundsAccess .. => "OutOfBoundsAccess"
  | allocationFailed .. => "AllocationFailed"
  | emptyRxMount .. => "EmptyRxMount"

def window : Fault → Window
  | moveTimeout w => w
  | indexOutOfBounds w _ => w
  | outOfBoundsAccess w => w
  | allocationFailed w _ _ => w
  | emptyRxMount w => w

/-- The text under which a fault is filed. -/
def describe (fault : Fault) : String :=
  let w := fault.window.describe
  match fault with
  | indexOutOfBounds _ index => s!"{fault.name} \x7b window: {w}, index: {index} \x7d"
  | allocationFailed _ requested available =>
    s!"{fault.name} \x7b window: {w}, requested: {requested}, available: {available} \x7d"
  | _ => s!"{fault.name} \x7b window: {w} \x7d"

end Fault

inductive LogLevel where
  | error
  | warn
  | debug
  | trace
deriving DecidableEq, Repr

def LogLevel.describe : LogLevel → String
  | error => "ERROR"
  | warn => "WARN"
  | debug => "DEBUG"
  | trace => "TRACE"

def hexadecimal (n : Nat) : String := String.ofList (Nat.toDigits 16 n)

inductive LogRecord where
  /-- A move is about to be issued on `window`. -/
  | moving (pool : Pool) (window : Window) (word : ControlWord)
  | settingUp
  | scratchSized (length : UInt16)
  | fault (fault : Fault)
deriving DecidableEq, Repr

namespace LogRecord

def level : LogRecord → LogLevel
  | moving .. => .trace
  | settingUp => .debug
  | scratchSized _ => .debug
  | fault (.allocationFailed ..) => .error
  | fault (.emptyRxMount _) => .error
  | fault _ => .warn

def text : LogRecord → String
  | moving pool w word =>
    s!"Moving {pool.describe} on window {w.id}, control word {hexadecimal word.bits.toNat}."
  | settingUp => "Initializing RAW windows."
  | scratchSized length => s!"Scratch is {length} bytes."
  | fault (.moveTimeout w) => s!"Timeout waiting for move completion on window {w.id}."
  | fault (.indexOutOfBounds w index) => s!"Index {index} is out of bounds for window {w.id}."
  | fault (.outOfBoundsAccess w) => s!"Accessing window {w.id} out of bounds."
  | fault (.allocationFailed w requested available) =>
    s!"Failed to allocate {requested} of {available} free bytes to window {w.id}."
  | fault (.emptyRxMount w) => s!"Mounting rx frame to window {w.id} failed."

end LogRecord

end RadioWindows
