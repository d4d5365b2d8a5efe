import RadioWindows.Pool

/-! The sixteen-bit word that starts a move: from the low end eight bits and four bits of size,
three bits of pool code and one bit of direction. Sizes are therefore limited to twelve bits.
The fields do not overlap and leave no bit over: a field reads as it was last set, whatever was
done to the others, and the fields determine the word. -/

namespace RadioWindows

structure ControlWord where
  bits : UInt16
deriving DecidableEq, Repr

namespace ControlWord

/-- The parts of the word, from its low end. -/
inductive Field where
  | sizeLow
  | sizeHigh
  | selector
  /-- Set when the pool is mounted into the window, clear when the window is released. -/
  | destination
deriving DecidableEq, Repr

def Field.offset : Field → UInt16
  | sizeLow => 0
  | sizeHigh => 8
  | selector => 12
  | destination => 15

def Field.width : Field → Nat
  | sizeLow => 8
  | sizeHigh => 4
  | selector => 3
  | destination => 1

def Field.mask : Field → UInt16
  | sizeLow => 0xff
  | sizeHigh => 0xf
  | selector => 0x7
  | destination => 0x1

def empty : ControlWord := ⟨0⟩

def get (word : ControlWord) (field : Field) : UInt16 :=
  (word.bits >>> field.offset) &&& field.mask

/-- Replaces one field; of a value that does not fit the low bits are taken. -/
def set (word : ControlWord) (field : Field) (value : UInt16) : ControlWord :=
  ⟨(word.bits &&& ~~~(field.mask <<< field.offset)) ||| ((value &&& field.mask) <<< field.offset)⟩

def selector (word : ControlWord) : UInt8 := (word.get .selector).toUInt8

def destination (word : ControlWord) : Bool := word.get .destination != 0

def size (word : ControlWord) : UInt16 := (word.get .sizeHigh <<< 8) ||| word.get .sizeLow

/-- The word of a move. Bits of `size` above the twelfth are dropped. -/
def forMove (pool : Pool) (destination : Bool) (size : UInt16) : ControlWord :=
  (((empty.set .sizeLow (size &&& 0xff)).set .sizeHigh ((size >>> 8) &&& 0xf)).set .selector
    pool.selector.bits.toUInt16).set .destination destination.toUInt16

def isAllocation (word : ControlWord) : Bool :=
  word.destination && (word.selector == Selector.mgmtPool.bits ||
    word.selector == Selector.dataPool.bits)

def isRelease (word : ControlWord) : Bool := !word.destination

def describe (word : ControlWord) : String :=
  let low := word.get .sizeLow
  let high := word.get .sizeHigh
  let direction := word.destination
  s!"RawControl \x7b size_low: {low}, size_high: {high}, selector: {word.selector}, mount_as_destination: {direction} \x7d"

theorem getLsbD_mask (field : Field) (i : Nat) :
    field.mask.toBitVec.getLsbD i = decide (i < field.width) := by
  cases field
  · exact Nat.testBit_two_pow_sub_one 8 i
  · exact Nat.testBit_two_pow_sub_one 4 i
  · exact Nat.testBit_two_pow_sub_one 3 i
  · exact Nat.testBit_two_pow_sub_one 1 i

theorem getLsbD_shiftLeft_offset (value : UInt16) (field : Field) (i : Nat) :
    (value <<< field.offset).toBitVec.getLsbD i =
      (decide (i < 16) && decide (field.offset.toNat ≤ i) &&
        value.toBitVec.getLsbD (i - field.offset.toNat)) := by
  have shift : (field.offset.toBitVec % 16).toNat = field.offset.toNat := by cases field <;> rfl
  rw [UInt16.toBitVec_shiftLeft, BitVec.shiftLeft_eq', shift, BitVec.getLsbD_shiftLeft]
  grind

theorem getLsbD_get (word : ControlWord) (field : Field) (i : Nat) :
    (word.get field).toBitVec.getLsbD i =
      (decide (i < field.width) && word.bits.toBitVec.getLsbD (field.offset.toNat + i)) := by
  rw [← getLsbD_mask]
  cases field <;> simp [get, Field.offset, Bool.and_comm]

theorem getLsbD_set (word : ControlWord) (field : Field) (value : UInt16) (i : Nat) :
    (word.set field value).bits.toBitVec.getLsbD i =
      if field.offset.toNat ≤ i ∧ i < field.offset.toNat + field.width then
        value.toBitVec.getLsbD (i - field.offset.toNat)
      else word.bits.toBitVec.getLsbD i := by
  have room : field.offset.toNat + field.width ≤ 16 := by cases field <;> decide
  simp only [set, UInt16.toBitVec_or, UInt16.toBitVec_and, UInt16.toBitVec_not, BitVec.getLsbD_or,
    BitVec.getLsbD_and, BitVec.getLsbD_not, getLsbD_shiftLeft_offset, getLsbD_mask]
  by_cases inside : i < 16
  · grind
  · have beyond : word.bits.toBitVec.getLsbD i = false := BitVec.getLsbD_of_ge _ _ (by omega)
    grind

theorem get_set_self (word : ControlWord) (field : Field) (value : UInt16) :
    (word.set field value).get field = value &&& field.mask := by
  apply UInt16.toBitVec_inj.mp
  apply BitVec.eq_of_getLsbD_eq
  intro i _
  rw [getLsbD_get, getLsbD_set, UInt16.toBitVec_and, BitVec.getLsbD_and, getLsbD_mask]
  grind

theorem set_and_mask (word : ControlWord) (field : Field) (value : UInt16) :
    word.set field (value &&& field.mask) = word.set field value := by
  rw [set, UInt16.and_assoc, UInt16.and_self, set]

theorem get_set_of_ne (word : ControlWord) {field other : Field} (value : UInt16)
    (apart : other ≠ field) : (word.set field value).get other = word.get other := by
  have disjoint : other.offset.toNat + other.width ≤ field.offset.toNat ∨
      field.offset.toNat + field.width ≤ other.offset.toNat := by
    revert apart
    cases field <;> cases other <;> decide
  apply UInt16.toBitVec_inj.mp
  apply BitVec.eq_of_getLsbD_eq
  intro i _
  rw [getLsbD_get, getLsbD_get, getLsbD_set]
  grind

theorem field_of_lt {i : Nat} (inside : i < 16) :
    ∃ field : Field, field.offset.toNat ≤ i ∧ i < field.offset.toNat + field.width := by
  by_cases h8 : i < 8
  · exact ⟨.sizeLow, Nat.zero_le i, h8⟩
  · by_cases h12 : i < 12
    · exact ⟨.sizeHigh, Nat.le_of_not_lt h8, h12⟩
    · by_cases h15 : i < 15
      · exact ⟨.selector, Nat.le_of_not_lt h12, h15⟩
      · exact ⟨.destination, Nat.le_of_not_lt h15, inside⟩

theorem ext_get {a b : ControlWord} (equal : ∀ field, a.get field = b.get field) : a = b := by
  have bits : a.bits = b.bits := by
    apply UInt16.toBitVec_inj.mp
    apply BitVec.eq_of_getLsbD_eq
    intro i inside
    obtain ⟨field, low, high⟩ := field_of_lt inside
    have bit := congrArg (fun part => part.toBitVec.getLsbD (i - field.offset.toNat)) (equal field)
    simp only [getLsbD_get, show field.offset.toNat + (i - field.offset.toNat) = i by omega,
      show i - field.offset.toNat < field.width by omega, decide_true, Bool.true_and] at bit
    exact bit
  cases a
  cases b
  exact congrArg mk bits

end ControlWord

end RadioWindows
