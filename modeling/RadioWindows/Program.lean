import RadioWindows.Report

/-! What the driver asks of its host, as data. A program is a tree: at each node it asks the host
for one thing, writes a log record, or waits for a condition on registers, and goes on with what
it was told. Nothing is said here about the host that answers. -/

namespace RadioWindows

abbrev Bytes := List UInt8

inductive Request where
  | read8 (register : UInt8)
  | write8 (register : UInt8) (value : UInt8)
  | read16 (register : UInt8)
  | write16 (register : UInt8) (value : UInt16)
  /-- Reads so many bytes from one register in one transfer. -/
  | readBytes (register : UInt8) (count : Nat)
  | writeBytes (register : UInt8) (bytes : Bytes)
  /-- The time in microseconds. -/
  | now
  | delay (microseconds : UInt32)
  /-- Answered by whether the interrupt was enabled before. -/
  | enableInterrupt
  /-- Answered by whether the interrupt was enabled before. -/
  | disableInterrupt
  | report (fault : Fault)
deriving DecidableEq, Repr

/-- What puts the interrupt back as it was found. -/
def Request.restoring (wasEnabled : Bool) : Request :=
  if wasEnabled then enableInterrupt else disableInterrupt

abbrev Request.Reply : Request → Type
  | read8 _ => UInt8
  | read16 _ => UInt16
  | readBytes _ _ => Bytes
  | now => UInt64
  | enableInterrupt => Bool
  | disableInterrupt => Bool
  | _ => Unit

/-- A condition on registers: a finite decision tree over values read from them. -/
inductive Condition where
  | settled (holds : Bool)
  | read8 (register : UInt8) (next : UInt8 → Condition)
  | read16 (register : UInt8) (next : UInt16 → Condition)

inductive Program (α : Type) where
  | done (value : α)
  | ask (request : Request) (next : request.Reply → Program α)
  | note (record : LogRecord) (next : Program α)
  /-- Looks at the condition again and again, `interval` microseconds apart, until it holds or
  more than `timeout` microseconds have passed, and goes on with whether it held. -/
  | await (timeout : UInt64) (interval : UInt32) (condition : Condition)
      (next : Bool → Program α)

namespace Program

variable {α β γ : Type}

def bind : Program α → (α → Program β) → Program β
  | done value, next => next value
  | ask request rest, next => ask request fun reply => (rest reply).bind next
  | note record rest, next => note record (rest.bind next)
  | await timeout interval condition rest, next =>
    await timeout interval condition fun held => (rest held).bind next

instance : Monad Program where
  pure := done
  bind := bind

theorem bind_done (program : Program α) : program.bind done = program := by
  induction program with
  | done value => rfl
  | ask request rest ih => simp only [bind, ih]
  | note record rest ih => simp only [bind, ih]
  | await timeout interval condition rest ih => simp only [bind, ih]

theorem bind_assoc (program : Program α) (first : α → Program β) (second : β → Program γ) :
    (program.bind first).bind second = program.bind fun value => (first value).bind second := by
  induction program with
  | done value => rfl
  | ask request rest ih => simp only [bind, ih]
  | note record rest ih => simp only [bind, ih]
  | await timeout interval condition rest ih => simp only [bind, ih]

instance : LawfulMonad Program :=
  LawfulMonad.mk' Program bind_done (fun _ _ => rfl) bind_assoc

/-- Asks for one thing whose answer does not matter. -/
def tell (request : Request) : Program Unit := ask request fun _ => done ()

def write8 (register : UInt8) (value : UInt8) : Program Unit := tell (.write8 register value)

def read16 (register : UInt8) : Program UInt16 := ask (.read16 register) done

def write16 (register : UInt8) (value : UInt16) : Program Unit := tell (.write16 register value)

def readBytes (register : UInt8) (count : Nat) : Program Bytes :=
  ask (.readBytes register count) done

def writeBytes (register : UInt8) (bytes : Bytes) : Program Unit :=
  tell (.writeBytes register bytes)

def log (record : LogRecord) : Program Unit := note record (done ())

def waitFor (timeout : UInt64) (interval : UInt32) (condition : Condition) : Program Bool :=
  await timeout interval condition done

def raise (fault : Fault) : Program Unit := do
  log (.fault fault)
  tell (.report fault)

def raiseIf (condition : Bool) (fault : Fault) : Program Unit :=
  if condition then raise fault else done ()

def restoreInterrupt (wasEnabled : Bool) : Program Unit := tell (.restoring wasEnabled)

/-- Turns the interrupt off, runs `body` and puts the interrupt back as it was found, whatever
`body` did to it. -/
def holdingInterrupt (body : Program α) : Program α :=
  ask .disableInterrupt fun wasEnabled => do
    let value ← body
    restoreInterrupt wasEnabled
    return value

end Program

end RadioWindows
