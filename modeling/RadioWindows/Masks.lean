/-! Setting and clearing bits of a word. Each law is proved for words of any width and read off for
the two widths of the registers. -/

namespace RadioWindows.Masks

section Words

variable {n : Nat} {b c : BitVec n}

theorem or_and_self (a b : BitVec n) : (a ||| b) &&& b = b := by
  ext i
  simp
  grind

theorem or_and_of_disjoint (a : BitVec n) (apart : b &&& c = 0#n) : (a ||| b) &&& c = a &&& c := by
  rw [BitVec.and_or_distrib_right, apart, BitVec.or_zero]

theorem or_and_ne_zero (a b c : BitVec n) :
    ((a ||| b) &&& c != 0#n) = ((b &&& c != 0#n) || (a &&& c != 0#n)) := by
  have parts : (a ||| b) &&& c = 0#n ↔ b &&& c = 0#n ∧ a &&& c = 0#n := by
    rw [BitVec.and_or_distrib_right, BitVec.or_eq_zero_iff, and_comm]
  rw [Bool.eq_iff_iff]
  simp [parts]
  grind

theorem and_not_and_self (a b : BitVec n) : (a &&& ~~~b) &&& b = 0#n := by
  ext i
  simp

theorem and_not_and_of_disjoint (a : BitVec n) (apart : b &&& c = 0#n) :
    (a &&& ~~~b) &&& c = a &&& c := by
  ext i
  have bit := congrArg (BitVec.getLsbD · i) apart
  simp at bit ⊢
  grind

/-- A bit that is cleared in the end may have been cleared and set before. -/
theorem and_not_or_and_not (a : BitVec n) (within : b &&& ~~~c = 0#n) :
    ((a &&& ~~~b) ||| b) &&& ~~~c = a &&& ~~~c := by
  ext i
  have bit := congrArg (BitVec.getLsbD · i) within
  simp at bit ⊢
  grind

end Words

section Bytes

variable {b c : UInt8}

theorem or_and_self8 (a b : UInt8) : (a ||| b) &&& b = b :=
  UInt8.toBitVec_inj.mp (or_and_self a.toBitVec b.toBitVec)

theorem or_and_of_disjoint8 (a : UInt8) (apart : b &&& c = 0) : (a ||| b) &&& c = a &&& c :=
  UInt8.toBitVec_inj.mp (or_and_of_disjoint a.toBitVec (congrArg UInt8.toBitVec apart))

theorem ne_zero8 (a : UInt8) : (a != 0) = (a.toBitVec != 0#8) := by
  rw [Bool.eq_iff_iff]
  simp [← UInt8.toBitVec_inj]

theorem or_and_ne_zero8 (a b c : UInt8) :
    ((a ||| b) &&& c != 0) = ((b &&& c != 0) || (a &&& c != 0)) := by
  simp only [ne_zero8]
  exact or_and_ne_zero a.toBitVec b.toBitVec c.toBitVec

theorem and_not_and_self8 (a b : UInt8) : (a &&& ~~~b) &&& b = 0 :=
  UInt8.toBitVec_inj.mp (and_not_and_self a.toBitVec b.toBitVec)

theorem and_not_and_of_disjoint8 (a : UInt8) (apart : b &&& c = 0) :
    (a &&& ~~~b) &&& c = a &&& c :=
  UInt8.toBitVec_inj.mp (and_not_and_of_disjoint a.toBitVec (congrArg UInt8.toBitVec apart))

theorem and_not_or_and_not8 (a : UInt8) (within : b &&& ~~~c = 0) :
    ((a &&& ~~~b) ||| b) &&& ~~~c = a &&& ~~~c :=
  UInt8.toBitVec_inj.mp (and_not_or_and_not a.toBitVec (congrArg UInt8.toBitVec within))

end Bytes

section DoubleBytes

variable {b c : UInt16}

theorem or_and_of_disjoint16 (a : UInt16) (apart : b &&& c = 0) : (a ||| b) &&& c = a &&& c :=
  UInt16.toBitVec_inj.mp (or_and_of_disjoint a.toBitVec (congrArg UInt16.toBitVec apart))

theorem ne_zero16 (a : UInt16) : (a != 0) = (a.toBitVec != 0#16) := by
  rw [Bool.eq_iff_iff]
  simp [← UInt16.toBitVec_inj]

theorem or_and_ne_zero16 (a b c : UInt16) :
    ((a ||| b) &&& c != 0) = ((b &&& c != 0) || (a &&& c != 0)) := by
  simp only [ne_zero16]
  exact or_and_ne_zero a.toBitVec b.toBitVec c.toBitVec

theorem and_not_and_self16 (a b : UInt16) : (a &&& ~~~b) &&& b = 0 :=
  UInt16.toBitVec_inj.mp (and_not_and_self a.toBitVec b.toBitVec)

theorem and_not_and_of_disjoint16 (a : UInt16) (apart : b &&& c = 0) :
    (a &&& ~~~b) &&& c = a &&& c :=
  UInt16.toBitVec_inj.mp (and_not_and_of_disjoint a.toBitVec (congrArg UInt16.toBitVec apart))

theorem and_not_or_and_not16 (a : UInt16) (within : b &&& ~~~c = 0) :
    ((a &&& ~~~b) ||| b) &&& ~~~c = a &&& ~~~c :=
  UInt16.toBitVec_inj.mp (and_not_or_and_not a.toBitVec (congrArg UInt16.toBitVec within))

end DoubleBytes

end RadioWindows.Masks
