import RadioWindows.Window

/-! Whether the two data windows hold a frame, as the driver remembers it. -/

namespace RadioWindows

/-- The state of a data window and its byte. Every byte is a state; those without a meaning are
kept. -/
inductive MountState where
  | unmounted
  | mounted
  | unknown (code : UInt8)
deriving DecidableEq, Repr

namespace MountState

def bits : MountState → UInt8
  | unmounted => 0
  | mounted => 1
  | unknown code => code

def ofBits (code : UInt8) : MountState :=
  if code = 0 then unmounted else if code = 1 then mounted else unknown code

instance : Inhabited MountState := ⟨unmounted⟩

def describe : MountState → String
  | unmounted => "Unmounted"
  | mounted => "Mounted"
  | unknown code => s!"Unknown({code})"

theorem bits_ofBits (code : UInt8) : (ofBits code).bits = code := by
  unfold ofBits
  repeat' split
  all_goals simp_all [bits]

end MountState

inductive DataWindow where
  | rx
  | tx
deriving DecidableEq, Repr

def DataWindow.window : DataWindow → Window
  | rx => .dataRx
  | tx => .dataTx

structure MountStates where
  rx : MountState
  tx : MountState
deriving DecidableEq, Repr

namespace MountStates

instance : Inhabited MountStates := ⟨default, default⟩

def fresh : MountStates := ⟨.unmounted, .unmounted⟩

def get (states : MountStates) : DataWindow → MountState
  | .rx => states.rx
  | .tx => states.tx

def set (states : MountStates) (window : DataWindow) (state : MountState) : MountStates :=
  match window with
  | .rx => { states with rx := state }
  | .tx => { states with tx := state }

theorem get_set (states : MountStates) (v w : DataWindow) (state : MountState) :
    (states.set v state).get w = if w = v then state else states.get w := by
  cases v <;> cases w <;> rfl

end MountStates

end RadioWindows
