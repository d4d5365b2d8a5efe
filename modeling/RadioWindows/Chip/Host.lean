import RadioWindows.Chip.Firmware
import RadioWindows.Session

/-! The chip as a host: which registers it decodes and what they do. -/

namespace RadioWindows.Chip

/-- What stands in the upper four bits of the free counts; it means nothing. -/
def freeCountNoise : UInt16 := 0xa000

/-- The first interrupt register as it reads. Its lowest bit sums up the second register. -/
def interruptReading (chip : Chip) : UInt8 :=
  if chip.interrupt2 ≠ 0 then chip.interrupt ||| Register.secondPending else chip.interrupt

def read16 (chip : Chip) (register : UInt8) : Except Halt (UInt16 × Chip) :=
  if register = Register.dataFree then .ok (freeCountNoise ||| chip.dataFree, chip)
  else if register = Register.mgmtFree then .ok (freeCountNoise ||| chip.mgmtFree, chip)
  else if register = Register.interrupt2 then
    let chip := chip.latch
    .ok (chip.interrupt2, chip)
  else if let some w := Window.owning? (·.count) register then .ok ((chip.window w).count, chip)
  else if let some w := Window.owning? (·.status) register then
    .ok (if (chip.window w).indexBusy then Register.indexBusy else 0, chip)
  else .error (.notUnderstood (.read16 register))

def setIndex (chip : Chip) (w : Window) (index : UInt16) : Chip :=
  let past := decide ((chip.visible w).length < index.toNat)
  chip.modifyWindow w fun window => { window with cursor := index.toNat, indexBusy := past }

def write16 (chip : Chip) (register : UInt8) (value : UInt16) : Except Halt Chip :=
  if register = Register.interrupt2 then
    .ok { chip with interrupt2 := chip.interrupt2 &&& ~~~value }
  else if let some w := Window.owning? (·.control) register then chip.move w ⟨value⟩
  else if let some w := Window.owning? (·.count) register then
    .ok (chip.modifyWindow w fun window => { window with count := value })
  else if let some w := Window.owning? (·.index) register then .ok (chip.setIndex w value)
  else .error (.notUnderstood (.write16 register value))

def advance (chip : Chip) (w : Window) (count : Nat) : Chip :=
  chip.modifyWindow w fun window => { window with cursor := window.cursor + count }

def readBytes (chip : Chip) (register : UInt8) (count : Nat) : Except Halt (Bytes × Chip) :=
  if let some w := Window.owning? (·.data) register then
    .ok (Memory.read (chip.visible w) (chip.window w).cursor count, chip.advance w count)
  else .error (.notUnderstood (.readBytes register count))

def writeBytes (chip : Chip) (register : UInt8) (bytes : Bytes) : Except Halt Chip :=
  if let some w := Window.owning? (·.data) register then
    let written := Memory.write (chip.visible w) (chip.window w).cursor bytes
    .ok ((chip.overwrite w written).advance w bytes.length)
  else .error (.notUnderstood (.writeBytes register bytes))

def delay (chip : Chip) (microseconds : UInt32) : Except Halt Chip :=
  let clock := chip.clock.toNat + microseconds.toNat
  if clock < UInt64.size then .ok { chip with clock := .ofNat clock } else .error .clockOverflow

def answer : (request : Request) → Chip → Except Halt (request.Reply × Chip)
  | .read8 register, chip =>
    if register = Register.interrupt then
      let chip := chip.latch
      .ok (chip.interruptReading, chip)
    else .error (.notUnderstood (.read8 register))
  | .write8 register value, chip =>
    if register = Register.interrupt then
      .ok ((), { chip with interrupt := chip.interrupt &&& ~~~value })
    else .error (.notUnderstood (.write8 register value))
  | .read16 register, chip => chip.read16 register
  | .write16 register value, chip => ((), ·) <$> chip.write16 register value
  | .readBytes register count, chip => chip.readBytes register count
  | .writeBytes register bytes, chip => ((), ·) <$> chip.writeBytes register bytes
  | .now, chip => .ok (chip.clock, chip)
  | .delay microseconds, chip => ((), ·) <$> chip.delay microseconds
  | .enableInterrupt, chip => .ok (chip.interruptEnabled, { chip with interruptEnabled := true })
  | .disableInterrupt, chip => .ok (chip.interruptEnabled, { chip with interruptEnabled := false })
  | .report fault, chip => .ok ((), { chip with faults := chip.faults ++ [fault] })

instance : Host Chip := ⟨answer⟩

/-- A change to the chip from outside. -/
inductive Change where
  /-- A frame arrives. -/
  | receive (frame : Bytes)
  /-- Other frames wait in place of those that did. -/
  | setReceived (frames : List Bytes)
  | setFree (traffic : Traffic) (free : UInt16)
  | setInterrupt (bits : UInt8)
  | setInterrupt2 (bits : UInt16)
  | setInterruptEnabled (enabled : Bool)
  | setClock (time : UInt64)
  | setStalled (stalled : Bool)
  | setFailing (failing : Bool)
deriving DecidableEq, Repr

def adjust (change : Change) (chip : Chip) : Chip :=
  match change with
  | .receive frame => { chip with received := chip.received ++ [frame] }
  | .setReceived frames => { chip with received := frames }
  | .setFree traffic free => chip.setFree traffic free
  | .setInterrupt bits => { chip with interrupt := bits }
  | .setInterrupt2 bits => { chip with interrupt2 := bits }
  | .setInterruptEnabled enabled => { chip with interruptEnabled := enabled }
  | .setClock time => { chip with clock := time }
  | .setStalled stalled => { chip with stalled }
  | .setFailing failing => { chip with failing }

instance : Adjustable Chip Change := ⟨adjust⟩

end RadioWindows.Chip
