import RadioWindows.Chip.Firmware
import RadioWindows.Proofs.Logic

/-! The circumstances of a chip are what the firmware does not look at while it carries out a
control word: signals, the clock, the records of moves and faults. The word does the same under all
circumstances and leaves them as they are. -/

namespace RadioWindows.Chip

structure Circumstances where
  moves : List (Window × ControlWord)
  faults : List Fault
  unlatched : List Window
  interrupt : UInt8
  interrupt2 : UInt16
  interruptEnabled : Bool
  clock : UInt64
  stalled : Bool
deriving DecidableEq, Repr

def circumstances (chip : Chip) : Circumstances :=
  ⟨chip.moves, chip.faults, chip.unlatched, chip.interrupt, chip.interrupt2,
    chip.interruptEnabled, chip.clock, chip.stalled⟩

def under (chip : Chip) (found : Circumstances) : Chip where
  windows := chip.windows
  scratch := chip.scratch
  mgmtFree := chip.mgmtFree
  dataFree := chip.dataFree
  received := chip.received
  sent := chip.sent
  moves := found.moves
  faults := found.faults
  unlatched := found.unlatched
  interrupt := found.interrupt
  interrupt2 := found.interrupt2
  interruptEnabled := found.interruptEnabled
  clock := found.clock
  stalled := found.stalled
  failing := chip.failing

section Under

variable (chip : Chip) (found : Circumstances) (w : Window)

@[simp] theorem circumstances_under : (chip.under found).circumstances = found := rfl

@[simp] theorem under_circumstances : chip.under chip.circumstances = chip := rfl

theorem setFree_under (traffic : Traffic) (free : UInt16) :
    (chip.under found).setFree traffic free = (chip.setFree traffic free).under found := by
  cases traffic <;> rfl

theorem free_under (traffic : Traffic) : (chip.under found).free traffic = chip.free traffic := by
  cases traffic <;> rfl

theorem overwrite_under (bytes : Bytes) :
    (chip.under found).overwrite w bytes = (chip.overwrite w bytes).under found := by
  have same : (chip.under found).window w = chip.window w := rfl
  rw [overwrite, overwrite, same]
  cases (chip.window w).mount <;> rfl

theorem circumstances_overwrite (bytes : Bytes) :
    (chip.overwrite w bytes).circumstances = chip.circumstances := by
  have same := overwrite_under chip chip.circumstances w bytes
  rw [under_circumstances] at same
  have kept := congrArg circumstances same
  rwa [circumstances_under] at kept

theorem release_under :
    (chip.under found).release w = (·.under found) <$> chip.release w := by
  have same : (chip.under found).window w = chip.window w := rfl
  rw [release, release, same]
  cases (chip.window w).mount with
  | segment traffic bytes =>
    simp only [free_under]
    split
    · exact congrArg Except.ok (setFree_under (chip.mount w .nothing) found traffic _)
    · rfl
  | nothing | frame _ | scratch => rfl

theorem allocate_under (traffic : Traffic) (size : UInt16) :
    (chip.under found).allocate w traffic size =
      Prod.map id (·.under found) (chip.allocate w traffic size) := by
  have same : (chip.under found).failing = chip.failing := rfl
  rw [allocate, allocate, free_under, same]
  split
  · exact congrArg (Prod.mk _) (setFree_under (chip.mount w _) found traffic _)
  · rfl

theorem copyInto_under (size : Nat) :
    (chip.under found).copyInto w size = Prod.map id (·.under found) <$> chip.copyInto w size := by
  have window (v : Window) : (chip.under found).window v = chip.window v := rfl
  have visible (v : Window) : (chip.under found).visible v = chip.visible v := rfl
  simp only [copyInto, window, visible, overwrite_under]
  split
  · split <;> rfl
  · rfl

theorem carryOut_under (word : ControlWord) :
    (chip.under found).carryOut w word =
      Prod.map id (·.under found) <$> chip.carryOut w word := by
  have released (start : Chip) :
      (0, ·) <$> (start.under found).release w =
        Prod.map id (·.under found) <$> (0, ·) <$> start.release w := by
    rw [release_under]
    cases start.release w <;> rfl
  rw [carryOut, carryOut]
  split
  · rfl
  · exact released { chip with sent := chip.sent ++ [(w, (chip.visible w).take word.size.toNat)] }
  · exact congrArg Except.ok (allocate_under chip found w .management word.size)
  · exact congrArg Except.ok (allocate_under chip found w .data word.size)
  · exact released chip
  · exact released chip
  · rfl
  · have same : (chip.under found).window w = chip.window w := rfl
    rw [same]
    split <;> rfl
  · exact copyInto_under chip found w _
  · rfl

end Under

def Circumstances.concluding (found : Circumstances) (w : Window) (word : ControlWord) :
    Circumstances :=
  { found with
    moves := found.moves ++ [(w, word)]
    unlatched := if found.stalled then found.unlatched else found.unlatched ++ [w] }

theorem conclude_under (chip : Chip) (found : Circumstances) (w : Window) (count : Nat) :
    (chip.under found).conclude w count = (chip.restart w count).under
      { found with
        unlatched := if found.stalled then found.unlatched else found.unlatched ++ [w] } := by
  obtain ⟨_, _, _, _, _, _, _, stalled⟩ := found
  cases stalled <;> rfl

/-- What a move does to a chip and what it does to the circumstances. -/
theorem move_under (chip : Chip) (found : Circumstances) (w : Window) (word : ControlWord) :
    (chip.under found).move w word =
      (fun out => (out.2.restart w out.1).under (found.concluding w word)) <$>
        chip.carryOut w word := by
  have recorded : { chip.under found with moves := found.moves ++ [(w, word)] } =
      chip.under { found with moves := found.moves ++ [(w, word)] } := rfl
  have same : (chip.under found).moves = found.moves := rfl
  rw [move, same, recorded, carryOut_under]
  cases chip.carryOut w word with
  | error halt => rfl
  | ok out => exact congrArg Except.ok (conclude_under out.2 _ w out.1)

end RadioWindows.Chip
