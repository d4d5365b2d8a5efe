import RadioWindows.Proofs.Chip.Circumstances
import RadioWindows.Proofs.Chip.Signals
import RadioWindows.Proofs.Requests

/-! What the circumstances of a chip become when it answers a request: all that an answer can do to
signals, to the clock and to the records, said once. -/

namespace RadioWindows.Chip

/-- The circumstances of a chip before a request and after its answer. -/
inductive Stirs (chip : Chip) : Request → Circumstances → Prop where
  /-- A look leaves them alone or brings completions to light. -/
  | looked {request : Request} (look : request.IsLook) : Stirs chip request chip.circumstances
  | latched {request : Request} (look : request.IsLook) :
      Stirs chip request chip.latch.circumstances
  | delayed (interval : UInt32) (clock : UInt64) :
      Stirs chip (.delay interval) { chip.circumstances with clock }
  | cleared (value : UInt8) :
      Stirs chip (.write8 Register.interrupt value)
        { chip.circumstances with interrupt := chip.interrupt &&& ~~~value }
  | cleared2 (value : UInt16) :
      Stirs chip (.write16 Register.interrupt2 value)
        { chip.circumstances with interrupt2 := chip.interrupt2 &&& ~~~value }
  | moved {register : UInt8} {w : Window} (value : UInt16)
      (owned : Window.owning? (·.control) register = some w) :
      Stirs chip (.write16 register value) (chip.circumstances.concluding w ⟨value⟩)
  | placed {register : UInt8} (value : UInt16)
      (owned : Window.owning? (·.control) register = none) :
      Stirs chip (.write16 register value) chip.circumstances
  | read (register : UInt8) (count : Nat) :
      Stirs chip (.readBytes register count) chip.circumstances
  | wrote (register : UInt8) (bytes : Bytes) :
      Stirs chip (.writeBytes register bytes) chip.circumstances
  | enabled : Stirs chip .enableInterrupt { chip.circumstances with interruptEnabled := true }
  | disabled : Stirs chip .disableInterrupt { chip.circumstances with interruptEnabled := false }
  | reported (fault : Fault) :
      Stirs chip (.report fault) { chip.circumstances with faults := chip.faults ++ [fault] }

variable (chip : Chip)

theorem stirs_read16 (register : UInt8) :
    EndsIn (fun _ => True) (chip.read16 register) fun answered =>
      chip.Stirs (.read16 register) answered.2.circumstances := by
  have look : (Request.read16 register).IsLook := trivial
  rw [read16]
  repeat' split
  all_goals first
    | exact .looked look
    | exact .latched look
    | trivial

theorem circumstances_move (w : Window) (word : ControlWord) :
    EndsIn (fun _ => True) (chip.move w word) fun after =>
      after.circumstances = chip.circumstances.concluding w word := by
  have moved := chip.move_under chip.circumstances w word
  rw [under_circumstances] at moved
  rw [moved, endsIn_map]
  exact endsIn_true_iff.mpr fun out _ => circumstances_under _ _

theorem stirs_write16 (register : UInt8) (value : UInt16) :
    EndsIn (fun _ => True) (chip.write16 register value) fun after =>
      chip.Stirs (.write16 register value) after.circumstances := by
  rw [write16]
  split
  · next same =>
    subst same
    exact .cleared2 value
  · cases owned : Window.owning? (·.control) register with
    | some w =>
      refine (chip.circumstances_move w ⟨value⟩).mono fun after moved => ?_
      rw [moved]
      exact .moved value owned
    | none =>
      have placed : chip.Stirs (.write16 register value) chip.circumstances := .placed value owned
      dsimp only
      repeat' split
      all_goals first | exact placed | trivial

theorem stirs_writeBytes (register : UInt8) (bytes : Bytes) :
    EndsIn (fun _ => True) (chip.writeBytes register bytes) fun after =>
      chip.Stirs (.writeBytes register bytes) after.circumstances := by
  rw [writeBytes]
  split
  · next w _ =>
    have kept := circumstances_overwrite chip w
      (Memory.write (chip.visible w) (chip.window w).cursor bytes)
    change chip.Stirs _ (chip.overwrite w _).circumstances
    rw [kept]
    exact .wrote register bytes
  · trivial

theorem stirs_answer (request : Request) :
    EndsIn (fun _ => True) (Host.answer request chip) fun answered =>
      chip.Stirs request answered.2.circumstances := by
  cases request with
  | read8 register =>
    change EndsIn _ (if register = Register.interrupt then _ else _) _
    split
    · exact .latched trivial
    · trivial
  | write8 register value =>
    change EndsIn _ (if register = Register.interrupt then _ else _) _
    split
    · next same => exact same ▸ .cleared value
    · trivial
  | read16 register => exact chip.stirs_read16 register
  | write16 register value => exact endsIn_map.mpr (chip.stirs_write16 register value)
  | readBytes register count =>
    change EndsIn _ (chip.readBytes register count) _
    rw [readBytes]
    split
    · exact .read register count
    · trivial
  | writeBytes register bytes => exact endsIn_map.mpr (chip.stirs_writeBytes register bytes)
  | now => exact .looked trivial
  | delay microseconds =>
    change EndsIn _ (((), ·) <$> chip.delay microseconds) _
    rw [endsIn_map, delay]
    split
    · exact .delayed microseconds _
    · trivial
  | enableInterrupt => exact .enabled
  | disableInterrupt => exact .disabled
  | report fault => exact .reported fault

end RadioWindows.Chip
