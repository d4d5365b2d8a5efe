import RadioWindows.Proofs.Asked
import RadioWindows.Proofs.Chip.Operating

/-! The driver makes no request that the chip does not understand. The chip decodes few registers
and different ones for each kind of access; a copy has to find its operands; and a free count has to
have room for what a window gives back. -/

namespace RadioWindows

def Halt.IsRefusal : Halt → Prop
  | outOfRounds | clockOverflow => False
  | notUnderstood _ | misdirectedCopy .. | freeCountOverflow _ => True

theorem Timing.Allows.not_isRefusal {timing : Timing} {rounds : Nat} {halt : Halt}
    (allows : timing.Allows rounds halt) : ¬halt.IsRefusal := by
  cases halt with
  | outOfRounds | clockOverflow => exact id
  | _ => exact allows.elim

theorem Window.address_of_owning? {kind : Registers → UInt8} {address : UInt8} {w : Window}
    (owns : owning? kind address = some w) : kind w.registers = address := by
  simpa using List.find?_some owns

def ControlWord.givesBack (word : ControlWord) : Bool :=
  !word.destination && match Selector.ofBits word.selector with
    | .macFrame | .mgmtPool | .dataPool => true
    | _ => false

namespace Chip

/-- The bytes that the free count of a pool gives to a window when a word is carried out. -/
def given (chip : Chip) (word : ControlWord) (traffic : Traffic) : Nat :=
  if word.destination ∧ Selector.ofBits word.selector = traffic.pool.selector ∧
      word.size ≤ chip.free traffic ∧ ¬chip.failing then word.size.toNat else 0

def takenBack (chip : Chip) (w : Window) (word : ControlWord) (traffic : Traffic) : Nat :=
  if word.givesBack then (chip.window w).mount.share traffic else 0

/-- A word is executed. If it is a copy, its operands name two windows, the second being the one it
is written to. Free counts change by what they give and take back, and do not run over or under. -/
structure Executes (chip : Chip) (w : Window) (word : ControlWord) : Prop where
  source : Selector.ofBits word.selector = .copy → ((chip.window w).count >>> 4) &&& 0xf < 6
  destination : Selector.ofBits word.selector = .copy →
    (chip.window w).count &&& 0xf = w.id.toUInt16
  counts : ∃ after, chip.move w word = .ok after ∧ ∀ traffic,
    (after.free traffic).toNat + chip.given word traffic =
      (chip.free traffic).toNat + chip.takenBack w word traffic

/-- The chip understands a request: it decodes the register for this kind of access, and if a move
starts, it executes its word. -/
def Understands (chip : Chip) : Request → Prop
  | .read8 register | .write8 register _ => register = Register.interrupt
  | .read16 register => register ∈ [Register.dataFree, Register.mgmtFree, Register.interrupt2] ∨
      ∃ w : Window, register = w.registers.count ∨ register = w.registers.status
  | .write16 register value => register = Register.interrupt2 ∨
      ∃ w : Window, register = w.registers.count ∨ register = w.registers.index ∨
        register = w.registers.control ∧ chip.Executes w ⟨value⟩
  | .readBytes register _ | .writeBytes register _ => ∃ w : Window, register = w.registers.data
  | _ => True

section Word

variable {chip : Chip} {w : Window} {word : ControlWord}

theorem free_overwrite (chip : Chip) (w : Window) (bytes : Bytes) (traffic : Traffic) :
    (chip.overwrite w bytes).free traffic = chip.free traffic := by
  rw [overwrite]
  split
  · rfl
  · exact free_mount chip w _ traffic
  · exact free_mount chip w _ traffic
  · cases traffic <;> rfl

theorem free_allocate (chip : Chip) (w : Window) (owner : Traffic) (size : UInt16)
    (traffic : Traffic) :
    ((chip.allocate w owner size).2.free traffic).toNat +
        (if traffic = owner ∧ size ≤ chip.free traffic ∧ ¬chip.failing then size.toNat else 0) =
      (chip.free traffic).toNat := by
  rw [allocate]
  by_cases fits : size ≤ chip.free owner ∧ ¬chip.failing
  · rw [if_pos fits, free_setFree]
    by_cases same : traffic = owner
    · subst same
      rw [if_pos rfl, if_pos ⟨rfl, fits⟩, UInt16.toNat_sub_of_le _ _ fits.1]
      exact Nat.sub_add_cancel (UInt16.le_iff_toNat_le.mp fits.1)
    · rw [if_neg same, if_neg fun both => same both.1, free_mount, Nat.add_zero]
  · have never : ¬(traffic = owner ∧ size ≤ chip.free traffic ∧ ¬chip.failing) := by
      rintro ⟨rfl, granted⟩
      exact fits granted
    rw [if_neg fits, if_neg never, Nat.add_zero]

theorem toUInt16_nibble (value : UInt16) : (value &&& 0xf).toUInt8.toUInt16 = value &&& 0xf := by
  apply UInt16.toNat_inj.mp
  have small : (value &&& 0xf).toNat ≤ 15 := by
    rw [UInt16.toNat_and]
    exact Nat.and_le_right
  rw [UInt8.toNat_toUInt16, UInt16.toNat_toUInt8]
  omega

theorem copyInto_eq_ok {size : Nat} {out : Nat × Chip} (copied : chip.copyInto w size = .ok out) :
    (((chip.window w).count >>> 4) &&& 0xf < 6 ∧ (chip.window w).count &&& 0xf = w.id.toUInt16) ∧
      ∃ bytes, out.2 = chip.overwrite w bytes := by
  rw [copyInto] at copied
  dsimp only at copied
  split at copied
  · next src named =>
    split at copied
    · next same =>
      cases copied
      refine ⟨⟨?_, ?_⟩, _, rfl⟩
      · rw [← toUInt16_nibble, ← Window.id_of_ofId? named]
        cases src <;> decide
      · rw [← toUInt16_nibble, same]
    · cases copied
  · cases copied

theorem carryOut_counts {out : Nat × Chip} (carried : chip.carryOut w word = .ok out)
    (traffic : Traffic) :
    (out.2.free traffic).toNat + chip.given word traffic =
      (chip.free traffic).toNat + chip.takenBack w word traffic := by
  have released (sent : List (Window × Bytes))
      (ends : (0, ·) <$> release { chip with sent } w = .ok out) :
      (out.2.free traffic).toNat =
        (chip.free traffic).toNat + (chip.window w).mount.share traffic := by
    cases result : release { chip with sent } w with
    | error halt =>
      rw [result] at ends
      cases ends
    | ok after =>
      rw [result] at ends
      cases ends
      exact (release_eq result).2 traffic
  rw [carryOut] at carried
  rw [given, takenBack, ControlWord.givesBack]
  cases selected : Selector.ofBits word.selector <;> cases direction : word.destination <;>
    rw [selected, direction] at carried <;> dsimp only at carried
  case macFrame.false => simpa using released _ carried
  case mgmtPool.false | dataPool.false => simpa using released chip.sent carried
  case mgmtPool.true =>
    cases carried
    have allocated := free_allocate chip w .management word.size traffic
    cases traffic <;> simpa [Traffic.pool, Pool.selector] using allocated
  case dataPool.true =>
    cases carried
    have allocated := free_allocate chip w .data word.size traffic
    cases traffic <;> simpa [Traffic.pool, Pool.selector] using allocated
  case copy.true | copy.false =>
    obtain ⟨-, bytes, copied⟩ := copyInto_eq_ok carried
    rw [copied, free_overwrite]
    cases traffic <;> rfl
  case scratchPool.false =>
    cases carried
    cases traffic <;> dsimp only <;> split <;> simp
  all_goals
    cases carried
    cases traffic <;> rfl

theorem free_conclude (chip : Chip) (w : Window) (count : Nat) (traffic : Traffic) :
    (chip.conclude w count).free traffic = chip.free traffic := by
  rw [conclude]
  split <;> cases traffic <;> rfl

theorem carryOut_refuses (chip : Chip) (w : Window) (word : ControlWord) :
    EndsIn (·.IsRefusal) (chip.carryOut w word) fun _ => True := by
  have released (sent : List (Window × Bytes)) :
      EndsIn (·.IsRefusal) (release { chip with sent } w) fun _ => True := by
    refine (release_overfull { chip with sent } w).allow ?_ |>.mono fun _ _ => trivial
    rintro _ ⟨traffic, -, rfl⟩
    trivial
  rw [carryOut]
  cases Selector.ofBits word.selector <;> cases word.destination
  case macFrame.false => exact endsIn_map.mpr (released _)
  case mgmtPool.false | dataPool.false => exact endsIn_map.mpr (released chip.sent)
  case copy.true | copy.false =>
    change EndsIn _ (chip.copyInto w _) _
    rw [copyInto]
    dsimp only
    split
    · split <;> trivial
    · trivial
  all_goals trivial

theorem executes_of_accepts
    (accepts : EndsIn (¬·.IsRefusal) (chip.move w word) fun _ => True) :
    chip.Executes w word := by
  let recorded : Chip := { chip with moves := chip.moves ++ [(w, word)] }
  have refuses := carryOut_refuses recorded w word
  rw [move] at accepts
  cases carried : recorded.carryOut w word with
  | error halt =>
    rw [carried] at accepts
    exact absurd (refuses.of_error carried) accepts
  | ok out =>
    have copies (selected : Selector.ofBits word.selector = .copy) :
        recorded.copyInto w word.size.toNat = .ok out := by
      rw [carryOut, selected] at carried
      exact carried
    have operands selected := (copyInto_eq_ok (copies selected)).1
    refine ⟨fun selected => (operands selected).1, fun selected => (operands selected).2,
      out.2.conclude w out.1, ?_, fun traffic => ?_⟩
    · rw [move, carried]
      rfl
    · rw [free_conclude]
      exact carryOut_counts carried traffic

end Word

section Request

variable {chip : Chip}

theorem understands_read16 {register : UInt8}
    (accepts : EndsIn (¬·.IsRefusal) (chip.read16 register) fun _ => True) :
    chip.Understands (.read16 register) := by
  rw [read16] at accepts
  split at accepts
  · next same => exact .inl (by simp [same])
  · split at accepts
    · next same => exact .inl (by simp [same])
    · split at accepts
      · next same => exact .inl (by simp [same])
      · split at accepts
        · next w owns => exact .inr ⟨w, .inl (Window.address_of_owning? owns).symm⟩
        · split at accepts
          · next w owns => exact .inr ⟨w, .inr (Window.address_of_owning? owns).symm⟩
          · exact (accepts trivial).elim

theorem understands_write16 {register : UInt8} {value : UInt16}
    (accepts : EndsIn (¬·.IsRefusal) (chip.write16 register value) fun _ => True) :
    chip.Understands (.write16 register value) := by
  rw [write16] at accepts
  split at accepts
  · next same => exact .inl same
  · split at accepts
    · next w owns =>
      have executes := executes_of_accepts accepts
      exact .inr ⟨w, .inr (.inr ⟨(Window.address_of_owning? owns).symm, executes⟩)⟩
    · split at accepts
      · next w owns => exact .inr ⟨w, .inl (Window.address_of_owning? owns).symm⟩
      · split at accepts
        · next w owns => exact .inr ⟨w, .inr (.inl (Window.address_of_owning? owns).symm)⟩
        · exact (accepts trivial).elim

/-- What the chip does not refuse, it understands. -/
theorem understands_of_accepts {request : Request}
    (accepts : EndsIn (¬·.IsRefusal) (Host.answer request chip) fun _ => True) :
    chip.Understands request := by
  cases request with
  | read8 register | write8 register value =>
    change EndsIn _ (if register = Register.interrupt then _ else _) _ at accepts
    split at accepts
    · next same => exact same
    · exact (accepts trivial).elim
  | read16 register => exact understands_read16 accepts
  | write16 register value => exact understands_write16 (endsIn_map.mp accepts)
  | readBytes register count =>
    change EndsIn _ (chip.readBytes register count) _ at accepts
    rw [readBytes] at accepts
    split at accepts
    · next w owns => exact ⟨w, (Window.address_of_owning? owns).symm⟩
    · exact (accepts trivial).elim
  | writeBytes register bytes =>
    change EndsIn _ (((), ·) <$> chip.writeBytes register bytes) _ at accepts
    rw [endsIn_map, writeBytes] at accepts
    split at accepts
    · next w owns => exact ⟨w, (Window.address_of_owning? owns).symm⟩
    · exact (accepts trivial).elim
  | _ => trivial

end Request

/-- No request of a run from the reset is refused, whatever is done to the chip in between. Only the
end of the clock, or a lack of rounds, cuts the run short. -/
theorem requests_understood (timing : Timing) (rounds : Nat) (steps : List (Step Change))
    (untouched : ∀ traffic free, .adjust (.setFree traffic free) ∉ steps) :
    (∀ halt, (Session.start atReset timing).run rounds steps = .error halt →
      timing.Allows rounds halt) ∧
    ∀ made ∈ (Session.start atReset timing).asked rounds steps, made.2.Understands made.1 := by
  have room : (Session.start atReset timing).host.Roomy := roomy_atReset
  let anything : Session Chip → Step Change → Taken Chip → Prop := fun _ _ _ => True
  have ends : EndsIn (timing.Allows rounds) ((Session.start atReset timing).run rounds steps)
      fun taken => Session.Along anything (Session.start atReset timing) steps taken :=
    room.run_along untouched (fun operation before roomy =>
      EndsIn.mono (perform_frame operation rounds roomy) fun _ _ => trivial) fun _ _ => trivial
  have accepts : EndsIn (¬·.IsRefusal) ((Session.start atReset timing).run rounds steps)
      fun _ => True :=
    (ends.allow fun _ allows => allows.not_isRefusal).mono fun _ _ => trivial
  have answered := (Session.answered_iff id).mp accepts
  exact ⟨fun halt halted => ends.of_error halted, fun made asked =>
    understands_of_accepts (answered made asked)⟩

/-- Copies into a buffer and into scratch memory, one of them asked for on a window that it has
nothing to do with and one that times out; a refused allocation, a frame read past its end, a frame
sent and a move that ties nothing. -/
def motleySteps : List (Step Change) :=
  [.perform .setUp, .perform (.allocate .data 6), .perform (.writeAt .dataTx 0 [1, 2, 3]),
    .perform (.move ⟨.spare, .copy .dataTx .scratch, false, 5⟩), .adjust (.setStalled true),
    .perform (.copy .scratch .dataTx 2), .adjust (.setStalled false), .adjust (.setFailing true),
    .perform (.allocate .management 4), .adjust (.receive [7, 8]), .perform (.mountRx .dataRx),
    .perform (.readAt .dataRx 3 1), .perform (.send .data 4),
    .perform (.move ⟨.mgmtRx, .stackMem, true, 1⟩)]

theorem requests_understood_motleySteps :
    ∃ taken, (Session.start atReset ⟨20, 20, 10⟩).run 4 motleySteps = .ok taken ∧
      ((Session.start atReset ⟨20, 20, 10⟩).after taken).host.faults =
        [.moveTimeout .dataTx, .allocationFailed .mgmtTx 4 1024, .indexOutOfBounds .dataRx 3,
          .outOfBoundsAccess .dataRx] ∧
      ((Session.start atReset ⟨20, 20, 10⟩).asked 4 motleySteps).length = 135 ∧
      ∀ made ∈ (Session.start atReset ⟨20, 20, 10⟩).asked 4 motleySteps,
        made.2.Understands made.1 := by
  obtain ⟨taken, finished, faults⟩ : ∃ taken,
      (Session.start atReset ⟨20, 20, 10⟩).run 4 motleySteps = .ok taken ∧
        ((Session.start atReset ⟨20, 20, 10⟩).after taken).host.faults =
          [.moveTimeout .dataTx, .allocationFailed .mgmtTx 4 1024, .indexOutOfBounds .dataRx 3,
            .outOfBoundsAccess .dataRx] :=
    exists_ok_of_endsIn (by decide +kernel)
  exact ⟨taken, finished, faults, by decide +kernel,
    (requests_understood ⟨20, 20, 10⟩ 4 motleySteps (by simp [motleySteps])).2⟩

end Chip

end RadioWindows
