import RadioWindows.Register

/-! What a window can be tied to or released into, and its three-bit code in a control word. -/

namespace RadioWindows

/-- The pool code of a control word. Every byte is a code; those without a meaning are kept. -/
inductive Selector where
  | macFrame
  | mgmtPool
  | dataPool
  | scratchPool
  | stackMem
  | copy
  | unknown (code : UInt8)
deriving DecidableEq, Repr

namespace Selector

def bits : Selector → UInt8
  | macFrame => 0
  | mgmtPool => 1
  | dataPool => 2
  | scratchPool => 3
  | stackMem => 4
  | copy => 7
  | unknown code => code

def ofBits (code : UInt8) : Selector :=
  if code = 0 then macFrame
  else if code = 1 then mgmtPool
  else if code = 2 then dataPool
  else if code = 3 then scratchPool
  else if code = 4 then stackMem
  else if code = 7 then copy
  else unknown code

def describe : Selector → String
  | macFrame => "MacFrame"
  | mgmtPool => "MgmtPool"
  | dataPool => "DataPool"
  | scratchPool => "ScratchPool"
  | stackMem => "StackMem"
  | copy => "Copy"
  | unknown code => s!"Unknown({code})"

theorem bits_ofBits (code : UInt8) : (ofBits code).bits = code := by
  unfold ofBits
  repeat' split
  all_goals simp_all [bits]

end Selector

/-- The other party of a move. -/
inductive Pool where
  /-- Frame memory of the medium access layer: received frames come from here, frames to be sent
  are released into it. -/
  | macFrame
  | mgmtPool
  | dataPool
  /-- Static memory that keeps its content across mounts. -/
  | scratchPool
  | stackMem
  /-- Another window. Such a move is issued on `dst`. -/
  | copy (src dst : Window)
deriving DecidableEq, Repr

namespace Pool

def selector : Pool → Selector
  | macFrame => .macFrame
  | mgmtPool => .mgmtPool
  | dataPool => .dataPool
  | scratchPool => .scratchPool
  | stackMem => .stackMem
  | copy _ _ => .copy

def target (w : Window) : Pool → Window
  | copy _ dst => dst
  | _ => w

def describe : Pool → String
  | copy src dst => s!"Copy \x7b src: {src.describe}, dst: {dst.describe} \x7d"
  | pool => pool.selector.describe

end Pool

/-- The two kinds of frames. Each has a pool of its own for outgoing frames, a register that
counts the free bytes of that pool, and a window for each direction. -/
inductive Traffic where
  | management
  | data
deriving DecidableEq, Repr

namespace Traffic

def txWindow : Traffic → Window
  | management => .mgmtTx
  | data => .dataTx

def rxWindow : Traffic → Window
  | management => .mgmtRx
  | data => .dataRx

def pool : Traffic → Pool
  | management => .mgmtPool
  | data => .dataPool

def freeRegister : Traffic → UInt8
  | management => Register.mgmtFree
  | data => Register.dataFree

end Traffic

end RadioWindows
