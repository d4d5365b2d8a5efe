import RadioWindows.Chip.Basic

/-! How the firmware carries out a move. Whatever becomes of it, the window's cursor is back at
its start, its count register holds the number of bytes, and its completion is on its way. -/

namespace RadioWindows.Chip

/-- Takes what a window is tied to from it. A segment goes back to the pool it came from. -/
def release (chip : Chip) (w : Window) : Except Halt Chip :=
  match (chip.window w).mount with
  | .segment traffic bytes =>
    let free := (chip.free traffic).toNat + bytes.length
    if free < UInt16.size then
      .ok ((chip.mount w .nothing).setFree traffic (.ofNat free))
    else
      .error (.freeCountOverflow traffic)
  | _ => .ok (chip.mount w .nothing)

/-- Ties the oldest received frame to a window, or an empty one if none is left. -/
def mountFrame (chip : Chip) (w : Window) : Nat × Chip :=
  let frame := chip.received.headD []
  (frame.length, { chip.mount w (.frame frame) with received := chip.received.tail })

/-- Sends the first bytes that a window shows and releases the window. -/
def sendFrame (chip : Chip) (w : Window) (size : Nat) : Except Halt Chip :=
  { chip with sent := chip.sent ++ [(w, (chip.visible w).take size)] }.release w

def allocate (chip : Chip) (w : Window) (traffic : Traffic) (size : UInt16) : Nat × Chip :=
  if size ≤ chip.free traffic ∧ ¬chip.failing then
    (size.toNat, (chip.mount w (.segment traffic (List.replicate size.toNat 0))).setFree traffic
      (chip.free traffic - size))
  else
    (0, chip)

/-- Copies the first bytes of the window that the operands name to the start of this one. -/
def copyInto (chip : Chip) (w : Window) (size : Nat) : Except Halt (Nat × Chip) :=
  let operands := (chip.window w).count
  match Window.ofId? ((operands >>> 4) &&& 0xf).toUInt8 with
  | some src =>
    if (operands &&& 0xf).toUInt8 = w.id then
      let old := chip.visible w
      let copied := ((chip.visible src).take size).take old.length
      .ok (copied.length, chip.overwrite w (copied ++ old.drop copied.length))
    else
      .error (.misdirectedCopy w operands)
  | none => .error (.misdirectedCopy w operands)

def carryOut (chip : Chip) (w : Window) (word : ControlWord) : Except Halt (Nat × Chip) :=
  match Selector.ofBits word.selector, word.destination with
  | .macFrame, true => .ok (chip.mountFrame w)
  | .macFrame, false => (0, ·) <$> chip.sendFrame w word.size.toNat
  | .mgmtPool, true => .ok (chip.allocate w .management word.size)
  | .dataPool, true => .ok (chip.allocate w .data word.size)
  | .mgmtPool, false => (0, ·) <$> chip.release w
  | .dataPool, false => (0, ·) <$> chip.release w
  | .scratchPool, true => .ok (chip.scratch.length, chip.mount w .scratch)
  | .scratchPool, false =>
    .ok (0, if (chip.window w).mount = .scratch then chip.mount w .nothing else chip)
  | .copy, _ => chip.copyInto w word.size.toNat
  | _, _ => .ok (0, chip)

def restart (chip : Chip) (w : Window) (count : Nat) : Chip :=
  chip.modifyWindow w fun window =>
    { window with count := .ofNat count, cursor := 0, indexBusy := false }

/-- Restarts a window and has its completion on its way unless completions are held back. -/
def conclude (chip : Chip) (w : Window) (count : Nat) : Chip :=
  let chip := chip.restart w count
  if chip.stalled then chip else { chip with unlatched := chip.unlatched ++ [w] }

def move (chip : Chip) (w : Window) (word : ControlWord) : Except Halt Chip := do
  let (count, chip) ← { chip with moves := chip.moves ++ [(w, word)] }.carryOut w word
  return chip.conclude w count

end RadioWindows.Chip
