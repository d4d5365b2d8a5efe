import RadioWindows.Scripted.Host

/-! Guards: while a guard lives, the interrupt is off unless it is turned on; when the guard is
dropped, at the end of its body or before, the interrupt is put back as the guard found it.
Scripts nest guards and call the host in between. -/

namespace RadioWindows

inductive DirectCall where
  | enableInterrupt
  | disableInterrupt
  | read16 (register : UInt8)
  | write16 (register : UInt8) (value : UInt16)
  | delay (microseconds : UInt32)
deriving DecidableEq, Repr

def DirectCall.request : DirectCall → Request
  | enableInterrupt => .enableInterrupt
  | disableInterrupt => .disableInterrupt
  | read16 register => .read16 register
  | write16 register value => .write16 register value
  | delay microseconds => .delay microseconds

/-- A sequence of steps. Those of the script `true` stand inside a guard and may use it. -/
inductive GuardScript : Bool → Type where
  | done {inside : Bool} : GuardScript inside
  | call {inside : Bool} (call : DirectCall) (rest : GuardScript inside) : GuardScript inside
  /-- Creates a guard, runs the body under it and drops the guard. -/
  | guarded {inside : Bool} (body : GuardScript true) (rest : GuardScript inside) :
      GuardScript inside
  /-- Turns the interrupt on until the innermost guard is dropped. -/
  | enable (rest : GuardScript true) : GuardScript true
  /-- Drops the innermost guard now. -/
  | leave (skipped : GuardScript true) : GuardScript true
  /-- Records whether the interrupt is on. -/
  | peek (rest : GuardScript true) : GuardScript true

namespace ScriptedHost

def call (host : ScriptedHost) (request : Request) : ScriptedHost := (host.answer request).2

def restore (host : ScriptedHost) (wasEnabled : Bool) : ScriptedHost :=
  host.call (.restoring wasEnabled)

end ScriptedHost

def GuardScript.run {inside : Bool} : GuardScript inside → ScriptedHost → ScriptedHost
  | done, host => host
  | call direct rest, host => rest.run (host.call direct.request)
  | guarded body rest, host =>
    let (wasEnabled, held) := host.answer .disableInterrupt
    rest.run ((body.run held).restore wasEnabled)
  | enable rest, host => rest.run (host.call .enableInterrupt)
  | leave _, host => host
  | peek rest, host => rest.run (host.record (.peek host.interruptEnabled))

end RadioWindows
