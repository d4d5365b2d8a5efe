import RadioWindows.Operation
import RadioWindows.Host

/-! Sessions: a host, what the driver remembers about it, and sequences of operations between
which the surroundings may change the host. -/

namespace RadioWindows

structure Session (σ : Type) where
  host : σ
  status : Status
deriving DecidableEq, Repr

structure Taken (σ : Type) where
  answer : Answer
  log : List LogRecord
  session : Session σ
deriving DecidableEq, Repr

/-- A host whose surroundings can change it in the ways that `χ` lists. -/
class Adjustable (σ : Type) (χ : outParam Type) where
  adjust : χ → σ → σ

inductive Step (χ : Type) where
  | perform (operation : Operation)
  | adjust (change : χ)
deriving DecidableEq, Repr

namespace Session

variable {σ χ : Type}

def start (host : σ) (timing : Timing) : Session σ := ⟨host, { timing }⟩

def perform [Host σ] (rounds : Nat) (operation : Operation) (session : Session σ) :
    Except Halt (Taken σ) := do
  let out ← (operation.perform.run session.status).run rounds session.host
  return ⟨out.value.1, out.log, ⟨out.host, out.value.2⟩⟩

def take [Host σ] [Adjustable σ χ] (rounds : Nat) (session : Session σ) :
    Step χ → Except Halt (Taken σ)
  | .perform operation => session.perform rounds operation
  | .adjust change =>
    return ⟨.nothing, [], { session with host := Adjustable.adjust change session.host }⟩

def run [Host σ] [Adjustable σ χ] (rounds : Nat) :
    List (Step χ) → Session σ → Except Halt (List (Taken σ))
  | [], _ => return []
  | step :: rest, session => do
    let taken ← session.take rounds step
    let others ← run rounds rest taken.session
    return taken :: others

end Session

end RadioWindows
