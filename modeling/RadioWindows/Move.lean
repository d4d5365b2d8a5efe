import RadioWindows.Program
import RadioWindows.Status

/-! A move ties a window to a piece of pool memory, releases it, or copies one window into
another. The completion signal is an edge that the chip latches only while the interrupt is
enabled; so a leftover bit is cleared first, the word is written with the interrupt off, and the
interrupt is then on for as long as the driver waits. -/

namespace RadioWindows

namespace Completion

/-- Clears a leftover completion bit, so that it is not taken for the completion to come. -/
def clear : Completion → Program Unit
  | first mask => Program.write8 Register.interrupt mask
  | second mask => Program.write16 Register.interrupt2 mask

/-- Whether the window's own bit is set. The summary bit of the second register only says that
some window has a bit there. -/
def observed : Completion → Condition
  | first mask => .read8 Register.interrupt fun bits => .settled (bits &&& mask != 0)
  | second mask => .read8 Register.interrupt fun bits =>
    if bits &&& Register.secondPending != 0 then
      .read16 Register.interrupt2 fun bits => .settled (bits &&& mask != 0)
    else
      .settled false

/-- Clears what has been observed. In the second register all completion bits go at once. -/
def acknowledge : Completion → Program Unit
  | first mask => Program.write8 Register.interrupt mask
  | second _ => do
    Program.write16 Register.interrupt2 Register.secondMoved
    Program.write8 Register.interrupt Register.secondPending

def await (timing : Timing) (completion : Completion) : Program Bool := do
  let completed ← Program.waitFor timing.moveTimeout timing.pollInterval completion.observed
  if completed then
    completion.acknowledge
  return completed

end Completion

structure Move where
  /-- The window asked for; a copy is issued on its destination instead. -/
  window : Window
  pool : Pool
  /-- Whether the pool is mounted into the window, or the window released. -/
  destination : Bool
  size : UInt16
deriving DecidableEq, Repr

namespace Move

def target (move : Move) : Window := move.pool.target move.window

def word (move : Move) : ControlWord := .forMove move.pool move.destination move.size

def operands (src dst : Window) : UInt16 := (src.id.toUInt16 <<< 4) ||| dst.id.toUInt16

/-- A copy finds its operands in the count register of its destination. -/
def placeOperands (move : Move) : Program Unit :=
  match move.pool with
  | .copy src dst => Program.write16 move.target.registers.count (operands src dst)
  | _ => pure ()

/-- Issues the move, waits for its completion and returns the count that the chip gives. After a
timeout that count is returned all the same. -/
def issue (timing : Timing) (move : Move) : Program UInt16 := do
  let registers := move.target.registers
  Program.log (.moving move.pool move.target move.word)
  Program.holdingInterrupt do
    registers.completion.clear
    move.placeOperands
    Program.write16 registers.control move.word.bits
    Program.tell .enableInterrupt
    let completed ← registers.completion.await timing
    let count ← Program.read16 registers.count
    Program.raiseIf (!completed) (.moveTimeout move.target)
    return count

end Move

end RadioWindows
