import RadioWindows.Masks
import RadioWindows.Window

/-! A set of windows, kept as the byte in which bit `n` stands for window `n`. Membership after
an insertion or an erasure is what it is for a set. -/

namespace RadioWindows

structure WindowMask where
  bits : UInt8
deriving DecidableEq, Repr

namespace WindowMask

def empty : WindowMask := ⟨0⟩

def bitOf (w : Window) : UInt8 := 1 <<< w.id

def insert (mask : WindowMask) (w : Window) : WindowMask := ⟨mask.bits ||| bitOf w⟩

def erase (mask : WindowMask) (w : Window) : WindowMask := ⟨mask.bits &&& ~~~bitOf w⟩

def contains (mask : WindowMask) (w : Window) : Bool := mask.bits &&& bitOf w != 0

theorem bitOf_ne_zero (w : Window) : bitOf w ≠ 0 := by cases w <;> decide

theorem bitOf_disjoint {v w : Window} (other : v ≠ w) : bitOf v &&& bitOf w = 0 := by
  revert other
  cases v <;> cases w <;> decide

@[simp] theorem contains_empty (w : Window) : empty.contains w = false := by cases w <;> rfl

theorem contains_insert (mask : WindowMask) (v w : Window) :
    (mask.insert v).contains w = (decide (w = v) || mask.contains w) := by
  by_cases same : w = v
  · subst same
    simp [contains, insert, Masks.or_and_self8, bitOf_ne_zero]
  · simp [contains, insert, Masks.or_and_of_disjoint8 _ (bitOf_disjoint (Ne.symm same)), same]

theorem contains_erase (mask : WindowMask) (v w : Window) :
    (mask.erase v).contains w = (decide (w ≠ v) && mask.contains w) := by
  by_cases same : w = v
  · subst same
    simp [contains, erase, Masks.and_not_and_self8]
  · simp [contains, erase, Masks.and_not_and_of_disjoint8 _ (bitOf_disjoint (Ne.symm same)), same]

/-- The bits that stand for no window. -/
def spareBits : UInt8 := 0xc0

theorem bitOf_spare (w : Window) : bitOf w &&& spareBits = 0 := by cases w <;> decide

theorem spare_bits_insert (mask : WindowMask) (w : Window) :
    (mask.insert w).bits &&& spareBits = mask.bits &&& spareBits :=
  Masks.or_and_of_disjoint8 _ (bitOf_spare w)

theorem spare_bits_erase (mask : WindowMask) (w : Window) :
    (mask.erase w).bits &&& spareBits = mask.bits &&& spareBits :=
  Masks.and_not_and_of_disjoint8 _ (bitOf_spare w)

end WindowMask

end RadioWindows
