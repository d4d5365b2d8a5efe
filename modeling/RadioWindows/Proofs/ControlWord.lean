import RadioWindows.ControlWord

/-! What a control word says of the move it was made for: the pool and the direction as they were,
and the low twelve bits of the size. -/

namespace RadioWindows

theorem Selector.ofBits_bits_selector (pool : Pool) :
    Selector.ofBits pool.selector.bits = pool.selector := by cases pool <;> rfl

namespace ControlWord

def sizeMask : UInt16 := 0xfff

theorem getLsbD_sizeMask (i : Nat) : sizeMask.toBitVec.getLsbD i = decide (i < 12) :=
  Nat.testBit_two_pow_sub_one 12 i

theorem toNat_and_sizeMask (size : UInt16) : (size &&& sizeMask).toNat = size.toNat % 4096 := by
  rw [UInt16.toNat_and]
  exact Nat.and_two_pow_sub_one_eq_mod _ 12

theorem and_sizeMask_of_lt {size : UInt16} (fits : size.toNat < 4096) :
    size &&& sizeMask = size := by
  apply UInt16.toNat_inj.mp
  rw [toNat_and_sizeMask, Nat.mod_eq_of_lt fits]

theorem forMove_eq (pool : Pool) (destination : Bool) (size : UInt16) :
    forMove pool destination size = (((empty.set .sizeLow size).set .sizeHigh (size >>> 8)).set
      .selector pool.selector.bits.toUInt16).set .destination destination.toUInt16 := by
  have low : empty.set .sizeLow (size &&& 0xff) = empty.set .sizeLow size := set_and_mask _ _ _
  have high (word : ControlWord) :
      word.set .sizeHigh ((size >>> 8) &&& 0xf) = word.set .sizeHigh (size >>> 8) :=
    set_and_mask _ _ _
  rw [forMove, low, high]

theorem destination_forMove (pool : Pool) (destination : Bool) (size : UInt16) :
    (forMove pool destination size).destination = destination := by
  rw [ControlWord.destination, forMove, get_set_self]
  cases destination <;> rfl

theorem selector_forMove (pool : Pool) (destination : Bool) (size : UInt16) :
    (forMove pool destination size).selector = pool.selector.bits := by
  rw [ControlWord.selector, forMove, get_set_of_ne _ _ (by decide), get_set_self]
  cases pool <;> simp only [Pool.selector] <;> rfl

theorem getLsbD_size (word : ControlWord) (i : Nat) :
    word.size.toBitVec.getLsbD i = (decide (i < 12) && word.bits.toBitVec.getLsbD i) := by
  have high : (word.get .sizeHigh <<< 8).toBitVec.getLsbD i =
      (decide (i < 16) && decide (8 ≤ i) && (word.get .sizeHigh).toBitVec.getLsbD (i - 8)) :=
    getLsbD_shiftLeft_offset (word.get .sizeHigh) .sizeHigh i
  have h8 : (8 : UInt16).toNat = 8 := rfl
  have h0 : (0 : UInt16).toNat = 0 := rfl
  rw [size, UInt16.toBitVec_or, BitVec.getLsbD_or, high, getLsbD_get, getLsbD_get]
  simp only [Field.offset, Field.width]
  rw [h8, h0, Nat.zero_add]
  by_cases low : i < 8
  · grind
  · have above : 8 + (i - 8) = i := by omega
    rw [above]
    grind

theorem getLsbD_highByte (value : UInt16) (i : Nat) :
    (value >>> 8).toBitVec.getLsbD i = value.toBitVec.getLsbD (8 + i) := by
  have shift : ((8 : UInt16).toBitVec % 16).toNat = 8 := rfl
  rw [UInt16.toBitVec_shiftRight, BitVec.ushiftRight_eq', shift, BitVec.getLsbD_ushiftRight]

theorem size_forMove (pool : Pool) (destination : Bool) (size : UInt16) :
    (forMove pool destination size).size = size &&& sizeMask := by
  apply UInt16.toBitVec_inj.mp
  apply BitVec.eq_of_getLsbD_eq
  intro i _
  rw [getLsbD_size, UInt16.toBitVec_and, BitVec.getLsbD_and, getLsbD_sizeMask, Bool.and_comm]
  by_cases inside : i < 12
  · congr 1
    -- The fields above the size leave its bits alone.
    have below {field : Field} (high : 12 ≤ field.offset.toNat) (word : ControlWord)
        (value : UInt16) :
        (word.set field value).bits.toBitVec.getLsbD i = word.bits.toBitVec.getLsbD i := by
      rw [getLsbD_set, if_neg (by omega)]
    rw [forMove_eq, below (by decide), below (by decide), getLsbD_set]
    by_cases low : i < 8
    · have outside : ¬(Field.sizeHigh.offset.toNat ≤ i ∧
          i < Field.sizeHigh.offset.toNat + Field.sizeHigh.width) := fun h => by
        have from_eight : 8 ≤ i := h.1
        omega
      rw [if_neg outside, getLsbD_set, if_pos ⟨Nat.zero_le i, low⟩]
      rfl
    · rw [if_pos ⟨Nat.le_of_not_lt low, inside⟩, getLsbD_highByte]
      change size.toBitVec.getLsbD (8 + (i - 8)) = _
      rw [show 8 + (i - 8) = i by omega]
  · simp only [inside, decide_false, Bool.and_false]

end ControlWord

end RadioWindows
