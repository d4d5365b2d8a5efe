import RadioWindows.Bank
import RadioWindows.Chip.Memory
import RadioWindows.Host

/-! A simulated radio chip: what its windows show, its two pools for outgoing frames, its queue of
received frames and its interrupt registers. Everything that happened to it is kept in order. -/

namespace RadioWindows

/-- What a window is tied to. -/
inductive Mount where
  | nothing
  /-- Memory allocated from the pool for outgoing frames of one kind. -/
  | segment (traffic : Traffic) (bytes : Bytes)
  /-- A received frame. -/
  | frame (bytes : Bytes)
  | scratch
deriving DecidableEq, Repr

structure ChipWindow where
  mount : Mount := .nothing
  cursor : Nat := 0
  /-- Whether the last index was refused, because it lies past the end. -/
  indexBusy : Bool := false
  /-- The count register. -/
  count : UInt16 := 0
deriving DecidableEq, Repr

structure Chip where
  windows : Bank ChipWindow
  scratch : Bytes
  mgmtFree : UInt16
  dataFree : UInt16
  /-- Received frames that have not been mounted yet. -/
  received : List Bytes := []
  sent : List (Window × Bytes) := []
  moves : List (Window × ControlWord) := []
  faults : List Fault := []
  /-- Windows whose moves have completed without being latched yet. -/
  unlatched : List Window := []
  interrupt : UInt8 := 0
  interrupt2 : UInt16 := 0
  interruptEnabled : Bool := false
  clock : UInt64 := 0
  /-- Whether completions are never signalled. -/
  stalled : Bool := false
  /-- Whether allocations yield nothing even if there is room. -/
  failing : Bool := false
deriving DecidableEq, Repr

namespace Chip

def scratchSize : Nat := 400

/-- The chip after a reset. The firmware has scratch in the window for outgoing data. -/
def atReset : Chip where
  windows := (Bank.replicate {}).set .dataTx { mount := .scratch }
  scratch := List.replicate scratchSize 0
  mgmtFree := 1024
  dataFree := 2048

def window (chip : Chip) (w : Window) : ChipWindow := chip.windows.get w

def modifyWindow (chip : Chip) (w : Window) (change : ChipWindow → ChipWindow) : Chip :=
  { chip with windows := chip.windows.set w (change (chip.window w)) }

def mount (chip : Chip) (w : Window) (mount : Mount) : Chip :=
  chip.modifyWindow w fun old => { old with mount }

@[simp] theorem window_modifyWindow_self (chip : Chip) (w : Window)
    (change : ChipWindow → ChipWindow) :
    (chip.modifyWindow w change).window w = change (chip.window w) := Bank.get_set_self _ _ _

theorem window_modifyWindow_of_ne (chip : Chip) {v w : Window} (change : ChipWindow → ChipWindow)
    (other : v ≠ w) : (chip.modifyWindow w change).window v = chip.window v :=
  Bank.get_set_of_ne _ _ other

@[simp] theorem window_mount_self (chip : Chip) (w : Window) (mount : Mount) :
    (chip.mount w mount).window w = { chip.window w with mount } :=
  window_modifyWindow_self _ _ _

theorem window_mount_of_ne (chip : Chip) {v w : Window} (mount : Mount) (other : v ≠ w) :
    (chip.mount w mount).window v = chip.window v := window_modifyWindow_of_ne _ _ other

def visible (chip : Chip) (w : Window) : Bytes :=
  match (chip.window w).mount with
  | .nothing => []
  | .segment _ bytes => bytes
  | .frame bytes => bytes
  | .scratch => chip.scratch

/-- Replaces the bytes that a window shows, for all windows that show the same memory. -/
def overwrite (chip : Chip) (w : Window) (bytes : Bytes) : Chip :=
  match (chip.window w).mount with
  | .nothing => chip
  | .segment traffic _ => chip.mount w (.segment traffic bytes)
  | .frame _ => chip.mount w (.frame bytes)
  | .scratch => { chip with scratch := bytes }

def free (chip : Chip) : Traffic → UInt16
  | .management => chip.mgmtFree
  | .data => chip.dataFree

def setFree (chip : Chip) (traffic : Traffic) (free : UInt16) : Chip :=
  match traffic with
  | .management => { chip with mgmtFree := free }
  | .data => { chip with dataFree := free }

@[simp] theorem windows_setFree (chip : Chip) (traffic : Traffic) (free : UInt16) :
    (chip.setFree traffic free).windows = chip.windows := by cases traffic <;> rfl

@[simp] theorem window_setFree (chip : Chip) (traffic : Traffic) (free : UInt16) (w : Window) :
    (chip.setFree traffic free).window w = chip.window w := by cases traffic <;> rfl

theorem free_setFree (chip : Chip) (set asked : Traffic) (free : UInt16) :
    (chip.setFree set free).free asked = if asked = set then free else chip.free asked := by
  cases set <;> cases asked <;> rfl

@[simp] theorem free_modifyWindow (chip : Chip) (w : Window) (change : ChipWindow → ChipWindow)
    (traffic : Traffic) : (chip.modifyWindow w change).free traffic = chip.free traffic := by
  cases traffic <;> rfl

@[simp] theorem free_mount (chip : Chip) (w : Window) (mount : Mount) (traffic : Traffic) :
    (chip.mount w mount).free traffic = chip.free traffic := by cases traffic <;> rfl

def signal (chip : Chip) (w : Window) : Chip :=
  match w.registers.completion with
  | .first mask => { chip with interrupt := chip.interrupt ||| mask }
  | .second mask => { chip with interrupt2 := chip.interrupt2 ||| mask }

/-- Completions become interrupt bits only while the interrupt is enabled. -/
def latch (chip : Chip) : Chip :=
  if chip.interruptEnabled then
    { chip.unlatched.foldl signal chip with unlatched := [] }
  else
    chip

end Chip

end RadioWindows
