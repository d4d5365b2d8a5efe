import Mathlib.Data.Nat.Bitwise
import RadioWindows.WindowMask
import RadioWindows.Proofs.Settings

/-! A window mask as a finite set. Whatever has been inserted and erased, the windows that the mask
contains say all about it: they are those that were inserted last, and its byte is the sum of their
powers of two. -/

namespace RadioWindows

namespace WindowMask

def put (mask : WindowMask) (w : Window) (inside : Bool) : WindowMask :=
  if inside then mask.insert w else mask.erase w

def edited (edits : List (Window × Bool)) : WindowMask :=
  edits.foldl (fun mask edit => mask.put edit.1 edit.2) empty

theorem contains_put (mask : WindowMask) (v w : Window) (inside : Bool) :
    (mask.put v inside).contains w = if w = v then inside else mask.contains w := by
  cases inside
  · rw [put, if_neg Bool.false_ne_true, contains_erase]
    by_cases same : w = v <;> simp [same]
  · rw [put, if_pos rfl, contains_insert]
    by_cases same : w = v <;> simp [same]

theorem contains_edited (edits : List (Window × Bool)) (w : Window) :
    (edited edits).contains w = (lastSet? edits w).getD false := by
  rw [← contains_empty w]
  exact get_foldl (fun edit _ mask w => contains_put mask edit.1 w edit.2) empty w

theorem spare_bits_put (mask : WindowMask) (w : Window) (inside : Bool) :
    (mask.put w inside).bits &&& spareBits = mask.bits &&& spareBits := by
  cases inside
  · exact spare_bits_erase mask w
  · exact spare_bits_insert mask w

theorem spare_bits_edited (edits : List (Window × Bool)) :
    (edited edits).bits &&& spareBits = 0 := by
  have kept (start : WindowMask) :
      (edits.foldl (fun mask edit => mask.put edit.1 edit.2) start).bits &&& spareBits =
        start.bits &&& spareBits := by
    induction edits generalizing start with
    | nil => rfl
    | cons edit rest ih => exact (ih _).trans (spare_bits_put start edit.1 edit.2)
  exact (kept empty).trans UInt8.zero_and

theorem bits_lt_of_spare {mask : WindowMask} (spare : mask.bits &&& spareBits = 0) :
    mask.bits.toNat < 64 := by
  have unset : mask.bits.toNat &&& 192 = 0 := congrArg UInt8.toNat spare
  refine Nat.lt_pow_two_of_testBit (n := 6) _ fun i high => ?_
  by_cases inside : i < 8
  · have bit := congrArg (Nat.testBit · i) unset
    obtain rfl | rfl : i = 6 ∨ i = 7 := by omega
    · simpa [Nat.testBit_and, show Nat.testBit 192 6 = true by decide] using bit
    · simpa [Nat.testBit_and, show Nat.testBit 192 7 = true by decide] using bit
  · exact Nat.testBit_lt_two_pow (Nat.lt_of_lt_of_le mask.bits.toNat_lt
      (Nat.pow_le_pow_right (by decide) (Nat.le_of_not_lt inside)))

theorem contains_eq_testBit (mask : WindowMask) (w : Window) :
    mask.contains w = mask.bits.toNat.testBit w.id.toNat := by
  have power : (bitOf w).toNat = 2 ^ w.id.toNat := by cases w <;> rfl
  have masked : (mask.bits &&& bitOf w).toNat =
      (mask.bits.toNat.testBit w.id.toNat).toNat * 2 ^ w.id.toNat := by
    rw [UInt8.toNat_and, power, Nat.and_two_pow]
  rw [contains, Bool.eq_iff_iff, bne_iff_ne, ne_eq, ← UInt8.toNat_inj, masked]
  cases mask.bits.toNat.testBit w.id.toNat <;> simp

def windows (mask : WindowMask) : List Window := Window.all.filter mask.contains

theorem toNat_bits {mask : WindowMask} (small : mask.bits.toNat < 64) :
    mask.bits.toNat = (mask.windows.map fun w => 2 ^ w.id.toNat).sum := by
  have weight (w : Window) : (if mask.contains w then 2 ^ w.id.toNat else 0) =
      mask.bits.toNat / 2 ^ w.id.toNat % 2 * 2 ^ w.id.toNat := by
    rw [contains_eq_testBit, ← Nat.toNat_testBit]
    cases mask.bits.toNat.testBit w.id.toNat <;> simp
  have sums (among : List Window) : ((among.filter mask.contains).map fun w => 2 ^ w.id.toNat).sum =
      (among.map fun w => mask.bits.toNat / 2 ^ w.id.toNat % 2 * 2 ^ w.id.toNat).sum := by
    induction among with
    | nil => rfl
    | cons w rest ih =>
      rw [List.map_cons, List.sum_cons, ← ih, ← weight, List.filter_cons]
      split
      · rw [List.map_cons, List.sum_cons]
      · rw [Nat.zero_add]
  rw [windows, sums]
  simp only [Window.all, Window.id, List.map_cons, List.map_nil, List.sum_cons, List.sum_nil,
    UInt8.reduceToNat]
  omega

theorem ext_contains {mask other : WindowMask} (small : mask.bits.toNat < 64)
    (small' : other.bits.toNat < 64) (same : ∀ w, mask.contains w = other.contains w) :
    mask = other := by
  have windows : mask.windows = other.windows := List.filter_congr fun w _ => same w
  have bits : mask.bits = other.bits := by
    rw [← UInt8.toNat_inj, toNat_bits small, toNat_bits small', windows]
  cases mask
  cases other
  exact congrArg mk bits

theorem bits_edited_lt (edits : List (Window × Bool)) : (edited edits).bits.toNat < 64 :=
  bits_lt_of_spare (spare_bits_edited edits)

/-- After any sequence of insertions and erasures a mask is the set of the windows that were
inserted last: it contains these, its byte is the sum of their powers of two, and nothing else tells
masks apart. So the order matters only among the edits of one window. -/
theorem edited_is_set (edits : List (Window × Bool)) :
    (∀ w, (edited edits).contains w = true ↔ lastSet? edits w = some true) ∧
    (edited edits).bits.toNat = ((edited edits).windows.map fun w => 2 ^ w.id.toNat).sum ∧
    (edited edits).bits.toNat < 64 ∧
    (∀ others, edited edits = edited others ↔
      ∀ w, (edited edits).contains w = (edited others).contains w) ∧
    (edited edits = empty ↔ ∀ w, (edited edits).contains w = false) ∧
    ∀ others : List (Window × Bool),
      (∀ w, edits.filter (·.1 = w) = others.filter (·.1 = w)) → edited edits = edited others := by
  have ext (others : List (Window × Bool)) : edited edits = edited others ↔
      ∀ w, (edited edits).contains w = (edited others).contains w :=
    ⟨fun same w => by rw [same], ext_contains (bits_edited_lt edits) (bits_edited_lt others)⟩
  refine ⟨fun w => ?_, toNat_bits (bits_edited_lt edits), bits_edited_lt edits, ext, ?_,
    fun others same => (ext others).mpr fun w => ?_⟩
  · rw [contains_edited]
    cases lastSet? edits w <;> simp
  · have fresh := ext []
    simpa only [edited, List.foldl_nil, contains_empty] using fresh
  · rw [contains_edited, contains_edited, lastSet?_congr (same w)]

/-- One window is erased after all and another is inserted again. -/
def editsAgain : List (Window × Bool) :=
  [(.mgmtTx, true), (.spare, false), (.dataRx, true), (.spare, true), (.mgmtTx, false)]

def editsByWindow : List (Window × Bool) :=
  [(.spare, false), (.spare, true), (.mgmtTx, true), (.mgmtTx, false), (.dataRx, true)]

theorem edited_is_set_byWindow :
    (∀ w, editsAgain.filter (·.1 = w) = editsByWindow.filter (·.1 = w)) ∧
    edited editsAgain = edited editsByWindow ∧ (edited editsAgain).bits = 0b100001 ∧
    ∀ w, (edited editsAgain).contains w = true ↔ lastSet? editsAgain w = some true := by
  have same (w : Window) : editsAgain.filter (·.1 = w) = editsByWindow.filter (·.1 = w) := by
    cases w <;> decide
  obtain ⟨contains, -, -, -, -, reordered⟩ := edited_is_set editsAgain
  exact ⟨same, reordered editsByWindow same, by decide, contains⟩

end WindowMask

end RadioWindows
