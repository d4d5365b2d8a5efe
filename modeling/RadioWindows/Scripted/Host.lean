import RadioWindows.Session

/-! A host that knows nothing about the chip: what registers read is laid down beforehand, the
clock goes as it is told, and every call is recorded. It can show the driver any behaviour, also
one that no chip has. -/

namespace RadioWindows

inductive Call where
  | read8 (register : UInt8) (value : UInt8)
  | write8 (register : UInt8) (value : UInt8)
  | read16 (register : UInt8) (value : UInt16)
  | write16 (register : UInt8) (value : UInt16)
  | readBytes (register : UInt8) (count : Nat)
  | writeBytes (register : UInt8) (bytes : Bytes)
  | now (time : UInt64)
  | delay (microseconds : UInt32)
  | enable (wasEnabled : Bool)
  | disable (wasEnabled : Bool)
  | fault (fault : Fault)
  /-- Not a call of a host: a look at the interrupt from outside. -/
  | peek (enabled : Bool)
deriving DecidableEq, Repr

structure Tapes (α : Type) where
  tapes : List (UInt8 × List α) := []
  /-- What a register reads for which nothing is laid down. -/
  blank : α
deriving DecidableEq, Repr

namespace Tapes

variable {α : Type}

def on (tapes : Tapes α) (register : UInt8) : List α := (tapes.tapes.lookup register).getD []

/-- Lays down values for a register in place of those it had. -/
def load (tapes : Tapes α) (register : UInt8) (values : List α) : Tapes α :=
  { tapes with tapes := (register, values) :: tapes.tapes.filter (·.1 != register) }

/-- What a register reads next. The last value of a tape is never used up. -/
def next (tapes : Tapes α) (register : UInt8) : α × Tapes α :=
  match tapes.on register with
  | [] => (tapes.blank, tapes)
  | [value] => (value, tapes)
  | value :: rest => (value, tapes.load register rest)

end Tapes

structure ScriptedHost where
  tapes8 : Tapes UInt8 := { blank := 0 }
  tapes16 : Tapes UInt16 := { blank := 0 }
  /-- Bytes handed out by bulk reads, whatever the register. -/
  received : Bytes := []
  interruptEnabled : Bool := false
  clock : UInt64 := 0
  /-- What each look at the clock adds to it. -/
  clockStep : UInt64 := 0
  /-- Times to which the next looks set the clock. -/
  times : List UInt64 := []
  /-- Whether reported faults are recorded. -/
  recordsFaults : Bool := true
  calls : Array Call := #[]
deriving DecidableEq, Repr

namespace ScriptedHost

def padding : UInt8 := 0xee

def record (host : ScriptedHost) (call : Call) : ScriptedHost :=
  { host with calls := host.calls.push call }

/-- Answers a request. No request is refused, and the clock wraps. -/
def answer : (request : Request) → ScriptedHost → request.Reply × ScriptedHost
  | .read8 register, host =>
    let (value, tapes8) := host.tapes8.next register
    (value, { host with tapes8 }.record (.read8 register value))
  | .write8 register value, host => ((), host.record (.write8 register value))
  | .read16 register, host =>
    let (value, tapes16) := host.tapes16.next register
    (value, { host with tapes16 }.record (.read16 register value))
  | .write16 register value, host => ((), host.record (.write16 register value))
  | .readBytes register count, host =>
    let found := host.received.take count
    (found ++ List.replicate (count - found.length) padding,
      { host with received := host.received.drop count }.record (.readBytes register count))
  | .writeBytes register bytes, host => ((), host.record (.writeBytes register bytes))
  | .now, host =>
    let time := host.times.headD host.clock
    (time, { host with
      clock := time + host.clockStep, times := host.times.tail }.record (.now time))
  | .delay microseconds, host =>
    ((), { host with clock := host.clock + microseconds.toUInt64 }.record (.delay microseconds))
  | .enableInterrupt, host =>
    (host.interruptEnabled,
      { host with interruptEnabled := true }.record (.enable host.interruptEnabled))
  | .disableInterrupt, host =>
    (host.interruptEnabled,
      { host with interruptEnabled := false }.record (.disable host.interruptEnabled))
  | .report fault, host => ((), if host.recordsFaults then host.record (.fault fault) else host)

instance : Host ScriptedHost where
  answer request host := .ok (host.answer request)

/-- What is laid down for a host. Tapes replace those of their registers, received bytes and
times are appended, and what is left out stays. -/
structure Setting where
  tapes8 : List (UInt8 × List UInt8) := []
  tapes16 : List (UInt8 × List UInt16) := []
  blank8 : Option UInt8 := none
  blank16 : Option UInt16 := none
  received : Bytes := []
  interruptEnabled : Option Bool := none
  clock : Option UInt64 := none
  clockStep : Option UInt64 := none
  times : List UInt64 := []
deriving DecidableEq, Repr

def adjust (setting : Setting) (host : ScriptedHost) : ScriptedHost :=
  let tapes8 := setting.tapes8.foldl (fun tapes entry => tapes.load entry.1 entry.2) host.tapes8
  let tapes16 := setting.tapes16.foldl (fun tapes entry => tapes.load entry.1 entry.2) host.tapes16
  { host with
    tapes8 := { tapes8 with blank := setting.blank8.getD tapes8.blank }
    tapes16 := { tapes16 with blank := setting.blank16.getD tapes16.blank }
    received := host.received ++ setting.received
    interruptEnabled := setting.interruptEnabled.getD host.interruptEnabled
    clock := setting.clock.getD host.clock
    clockStep := setting.clockStep.getD host.clockStep
    times := host.times ++ setting.times }

instance : Adjustable ScriptedHost Setting := ⟨adjust⟩

def ofSetting (setting : Setting) (recordsFaults : Bool) : ScriptedHost :=
  adjust setting { recordsFaults }

end ScriptedHost

end RadioWindows
