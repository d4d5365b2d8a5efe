import RadioWindows.MountState
import RadioWindows.WindowMask

/-! All that the driver itself remembers between operations. -/

namespace RadioWindows

/-- How long the driver waits, in microseconds. -/
structure Timing where
  /-- For the completion of a move. -/
  moveTimeout : UInt64 := 20000
  /-- For an index to settle. -/
  indexTimeout : UInt64 := 5000
  /-- Between two looks at a register. -/
  pollInterval : UInt32 := 10
deriving DecidableEq, Repr

structure Status where
  timing : Timing
  /-- The windows whose index was last set past their end. The chip allows such an index as long
  as nothing is transferred there, so this blocks nothing. -/
  outOfBounds : WindowMask := .empty
  dataStates : MountStates := .fresh
  /-- The size of the scratch memory, known once the windows have been set up. -/
  scratchLength : Option UInt16 := none
deriving DecidableEq, Repr

namespace Status

def flag (status : Status) (w : Window) : Status :=
  { status with outOfBounds := status.outOfBounds.insert w }

def unflag (status : Status) (w : Window) : Status :=
  { status with outOfBounds := status.outOfBounds.erase w }

def mark (status : Status) (window : DataWindow) (state : MountState) : Status :=
  { status with dataStates := status.dataStates.set window state }

end Status

end RadioWindows
