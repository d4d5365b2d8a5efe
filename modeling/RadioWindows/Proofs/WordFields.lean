import Mathlib.Data.Nat.Bitwise
import RadioWindows.Proofs.ControlWord
import RadioWindows.Proofs.Settings

/-! A control word by its fields. A field has the value that was set last for it, and the four
fields make up the word; so a word is known from what it says. -/

namespace RadioWindows.ControlWord

section Fields

theorem toNat_mask (field : Field) : field.mask.toNat = 2 ^ field.width - 1 := by
  cases field <;> rfl

theorem toNat_and_mask (value : UInt16) (field : Field) :
    (value &&& field.mask).toNat = value.toNat % 2 ^ field.width := by
  rw [UInt16.toNat_and, toNat_mask, Nat.and_two_pow_sub_one_eq_mod]

theorem and_mask_of_le {value : UInt16} {field : Field} (fits : value ≤ field.mask) :
    value &&& field.mask = value := by
  have small : value.toNat < 2 ^ field.width := by
    have le := UInt16.le_iff_toNat_le.mp fits
    rw [toNat_mask] at le
    exact Nat.lt_of_le_pred (Nat.two_pow_pos _) le
  rw [← UInt16.toNat_inj, toNat_and_mask, Nat.mod_eq_of_lt small]

def setAll (word : ControlWord) (settings : List (Field × UInt16)) : ControlWord :=
  settings.foldl (fun word setting => word.set setting.1 setting.2) word

theorem get_setAll {settings : List (Field × UInt16)}
    (fits : ∀ setting ∈ settings, setting.2 ≤ setting.1.mask) (start : ControlWord)
    (field : Field) :
    (start.setAll settings).get field = (lastSet? settings field).getD (start.get field) := by
  refine get_foldl (fun setting member word field => ?_) start field
  by_cases same : field = setting.1
  · rw [if_pos same, same, get_set_self, and_mask_of_le (fits setting member)]
  · rw [if_neg same, get_set_of_ne _ _ same]

theorem toNat_get (word : ControlWord) (field : Field) :
    (word.get field).toNat = word.bits.toNat / 2 ^ field.offset.toNat % 2 ^ field.width := by
  have shift : field.offset.toNat % 16 = field.offset.toNat := by cases field <;> rfl
  rw [get, toNat_and_mask, UInt16.toNat_shiftRight, shift, Nat.shiftRight_eq_div_pow]

theorem toNat_bits (word : ControlWord) :
    word.bits.toNat = (word.get .sizeLow).toNat + 256 * (word.get .sizeHigh).toNat +
      4096 * (word.get .selector).toNat + 32768 * (word.get .destination).toNat := by
  have bound := word.bits.toNat_lt
  simp only [toNat_get, Field.offset, Field.width, UInt16.reduceToNat]
  omega

end Fields

section Reading

variable (word : ControlWord)

theorem size_eq : word.size = word.bits &&& sizeMask := by
  apply UInt16.toBitVec_inj.mp
  apply BitVec.eq_of_getLsbD_eq
  intro i _
  rw [getLsbD_size, UInt16.toBitVec_and, BitVec.getLsbD_and, getLsbD_sizeMask, Bool.and_comm]

theorem toNat_selector : word.selector.toNat = word.bits.toNat / 4096 % 8 := by
  have read := toNat_get word .selector
  simp only [Field.offset, Field.width, UInt16.reduceToNat] at read
  rw [selector, UInt16.toNat_toUInt8, read]
  omega

theorem toNat_destination : word.destination.toNat = word.bits.toNat / 32768 := by
  have bound := word.bits.toNat_lt
  have read : (word.get .destination).toNat = word.bits.toNat / 32768 := by
    have read := toNat_get word .destination
    simp only [Field.offset, Field.width, UInt16.reduceToNat] at read
    omega
  rw [← read, destination]
  obtain clear | marked :
      (word.get .destination).toNat = 0 ∨ (word.get .destination).toNat = 1 := by omega
  · rw [show word.get .destination = 0 from UInt16.toNat_inj.mp clear]
    rfl
  · rw [show word.get .destination = 1 from UInt16.toNat_inj.mp marked]
    rfl

theorem toNat_bits_reading : word.bits.toNat =
    word.size.toNat + 4096 * word.selector.toNat + 32768 * word.destination.toNat := by
  rw [size_eq, toNat_and_sizeMask, toNat_selector, toNat_destination]
  omega

end Reading

section Moves

def parts (pool : Pool) (destination : Bool) (size : UInt16) : List (Field × UInt16) :=
  [(.sizeLow, size &&& 0xff), (.sizeHigh, (size >>> 8) &&& 0xf),
    (.selector, pool.selector.bits.toUInt16), (.destination, destination.toUInt16)]

theorem forMove_eq_setAll (pool : Pool) (destination : Bool) (size : UInt16) :
    forMove pool destination size = empty.setAll (parts pool destination size) := rfl

theorem parts_fit (pool : Pool) (destination : Bool) (size : UInt16) :
    ∀ setting ∈ parts pool destination size, setting.2 ≤ setting.1.mask := by
  simp only [parts, List.forall_mem_cons, List.not_mem_nil, false_implies, implies_true, and_true]
  refine ⟨UInt16.and_le_right, UInt16.and_le_right, ?_, ?_⟩
  · cases pool <;> simp only [Pool.selector] <;> decide
  · cases destination <;> decide

theorem toNat_size_forMove (pool : Pool) (destination : Bool) (size : UInt16) :
    (forMove pool destination size).size.toNat = size.toNat % 4096 := by
  rw [size_forMove, toNat_and_sizeMask]

theorem ofBits_selector_forMove (pool : Pool) (destination : Bool) (size : UInt16) :
    Selector.ofBits (forMove pool destination size).selector = pool.selector := by
  rw [selector_forMove, Selector.ofBits_bits_selector]

theorem forMove_inj {pool pool' : Pool} {destination destination' : Bool} {size size' : UInt16} :
    forMove pool destination size = forMove pool' destination' size' ↔
      pool.selector = pool'.selector ∧ destination = destination' ∧
        size.toNat % 4096 = size'.toNat % 4096 := by
  constructor
  · intro same
    refine ⟨?_, ?_, ?_⟩
    · rw [← ofBits_selector_forMove pool destination size, same, ofBits_selector_forMove]
    · rw [← destination_forMove pool destination size, same, destination_forMove]
    · rw [← toNat_size_forMove pool destination size, same, toNat_size_forMove]
  · rintro ⟨selector, rfl, sizes⟩
    have bits : (forMove pool destination size).bits = (forMove pool' destination size').bits := by
      rw [← UInt16.toNat_inj, toNat_bits_reading (forMove pool destination size),
        toNat_bits_reading (forMove pool' destination size'), toNat_size_forMove,
        toNat_size_forMove, sizes, selector_forMove, selector_forMove, selector,
        destination_forMove, destination_forMove]
    exact congrArg mk bits

end Moves

/-- A word is its four fields, and each is what was set last for it. So only the settings of one
field depend on their order. The word of a move is such a word: nothing set for it is cut, it says
the direction, the pool and the low twelve bits of the size, and it depends on nothing else. -/
theorem word_is_fields (start : ControlWord) {settings : List (Field × UInt16)}
    (fits : ∀ setting ∈ settings, setting.2 ≤ setting.1.mask) :
    (∀ field, (start.setAll settings).get field =
      (lastSet? settings field).getD (start.get field)) ∧
    (start.setAll settings).bits.toNat = ((start.setAll settings).get .sizeLow).toNat +
      256 * ((start.setAll settings).get .sizeHigh).toNat +
      4096 * ((start.setAll settings).get .selector).toNat +
      32768 * ((start.setAll settings).get .destination).toNat ∧
    (∀ word : ControlWord, start.setAll settings = word ↔
      ∀ field, (start.setAll settings).get field = word.get field) ∧
    (∀ others : List (Field × UInt16), (∀ setting ∈ others, setting.2 ≤ setting.1.mask) →
      (∀ field, settings.filter (·.1 = field) = others.filter (·.1 = field)) →
      start.setAll settings = start.setAll others) ∧
    (∀ pool destination size,
      forMove pool destination size = empty.setAll (parts pool destination size) ∧
      (∀ setting ∈ parts pool destination size, setting.2 ≤ setting.1.mask) ∧
      (forMove pool destination size).destination = destination ∧
      Selector.ofBits (forMove pool destination size).selector = pool.selector ∧
      (forMove pool destination size).size.toNat = size.toNat % 4096) ∧
    ∀ pool pool' destination destination' size size',
      forMove pool destination size = forMove pool' destination' size' ↔
        pool.selector = pool'.selector ∧ destination = destination' ∧
          size.toNat % 4096 = size'.toNat % 4096 := by
  refine ⟨get_setAll fits start, toNat_bits _,
    fun word => ⟨fun same field => by rw [same], ext_get⟩,
    fun others fits' same => ext_get fun field => ?_, fun pool destination size =>
      ⟨forMove_eq_setAll pool destination size, parts_fit pool destination size,
        destination_forMove pool destination size, ofBits_selector_forMove pool destination size,
        toNat_size_forMove pool destination size⟩,
    fun _ _ _ _ _ _ => forMove_inj⟩
  rw [get_setAll fits, get_setAll fits', lastSet?_congr (same field)]

def settingsAgain : List (Field × UInt16) :=
  [(.selector, 7), (.sizeHigh, 0xf), (.selector, 2), (.destination, 1)]

theorem word_is_fields_again :
    (∀ setting ∈ settingsAgain, setting.2 ≤ setting.1.mask) ∧
    ((⟨0x1234⟩ : ControlWord).setAll settingsAgain).bits = 0xaf34 ∧
    (∀ field, ((⟨0x1234⟩ : ControlWord).setAll settingsAgain).get field =
      (lastSet? settingsAgain field).getD ((⟨0x1234⟩ : ControlWord).get field)) ∧
    lastSet? settingsAgain .selector = some 2 ∧ lastSet? settingsAgain .sizeLow = none := by
  have fits : ∀ setting ∈ settingsAgain, setting.2 ≤ setting.1.mask := by decide
  exact ⟨fits, by decide, (word_is_fields ⟨0x1234⟩ fits).1, by decide, by decide⟩

end RadioWindows.ControlWord
