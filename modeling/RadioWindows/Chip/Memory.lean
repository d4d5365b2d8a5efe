import RadioWindows.Program

/-! Transfers to and from a piece of memory of fixed size. Past its end nothing is stored and
`0xff` is read. -/

namespace RadioWindows.Memory

/-- What a read finds past the end. -/
def absent : UInt8 := 0xff

def read (memory : Bytes) (start count : Nat) : Bytes :=
  let found := (memory.drop start).take count
  found ++ List.replicate (count - found.length) absent

def write (memory : Bytes) (start : Nat) (bytes : Bytes) : Bytes :=
  memory.take start ++ bytes.take (memory.length - start) ++ memory.drop (start + bytes.length)

@[simp] theorem length_read (memory : Bytes) (start count : Nat) :
    (read memory start count).length = count := by
  simp only [read, List.length_append, List.length_replicate, List.length_take, List.length_drop]
  omega

@[simp] theorem length_write (memory : Bytes) (start : Nat) (bytes : Bytes) :
    (write memory start bytes).length = memory.length := by
  simp only [write, List.length_append, List.length_take, List.length_drop]
  omega

theorem getElem?_read (memory : Bytes) (start count k : Nat) (inside : k < count) :
    (read memory start count)[k]? = some (memory[start + k]?.getD absent) := by
  simp only [read, List.getElem?_append, List.length_take, List.length_drop]
  by_cases present : start + k < memory.length
  · rw [if_pos (by omega)]
    simp [inside, List.getElem?_drop, List.getElem?_eq_getElem present]
  · rw [if_neg (by omega), List.getElem?_replicate, if_pos (by omega)]
    simp [List.getElem?_eq_none (Nat.le_of_not_lt present)]

theorem getElem?_write (memory : Bytes) (start : Nat) (bytes : Bytes) (k : Nat)
    (inside : k < memory.length) :
    (write memory start bytes)[k]? =
      if start ≤ k ∧ k < start + bytes.length then bytes[k - start]? else memory[k]? := by
  simp only [write, List.getElem?_append, List.length_append, List.length_take]
  by_cases before : k < start
  · rw [if_pos (by omega), if_pos (by omega), if_neg (by omega), List.getElem?_take,
      if_pos before]
  · by_cases covered : k < start + bytes.length
    · rw [if_pos (by omega), if_neg (by omega), if_pos (by omega), List.getElem?_take,
        if_pos (by omega)]
      congr 1
      omega
    · rw [if_neg (by omega), if_neg (by omega), List.getElem?_drop]
      congr 1
      omega

theorem write_nil (memory : Bytes) (start : Nat) : write memory start [] = memory := by simp [write]

theorem write_past (memory : Bytes) (start : Nat) (bytes : Bytes) (past : memory.length ≤ start) :
    write memory start bytes = memory := by
  rw [write, List.take_of_length_le past, Nat.sub_eq_zero_of_le past, List.take_zero,
    List.drop_eq_nil_of_le (Nat.le_add_right_of_le past), List.append_nil, List.append_nil]

theorem write_append (memory : Bytes) (start : Nat) (first second : Bytes) :
    write (write memory start first) (start + first.length) second =
      write memory start (first ++ second) := by
  refine List.ext_getElem? fun k => ?_
  by_cases inside : k < memory.length
  · have still : k < (write memory start first).length := by rwa [length_write]
    rw [getElem?_write _ _ _ _ still, getElem?_write _ _ _ _ inside, getElem?_write _ _ _ _ inside,
      List.length_append]
    by_cases before : k < start + first.length
    · rw [if_neg (by omega), List.getElem?_append]
      split
      · rw [if_pos (by omega), if_pos (by omega)]
      · rw [if_neg (by omega)]
    · by_cases covered : k < start + first.length + second.length
      · rw [if_pos (by omega), if_pos (by omega), List.getElem?_append_right (by omega)]
        congr 1
        omega
      · rw [if_neg (by omega), if_neg (by omega), if_neg (by omega)]
  · rw [List.getElem?_eq_none (by simpa using inside),
      List.getElem?_eq_none (by simpa using inside)]

theorem read_append (memory : Bytes) (start first second : Nat) :
    read memory start first ++ read memory (start + first) second =
      read memory start (first + second) := by
  refine List.ext_getElem? fun k => ?_
  rw [List.getElem?_append, length_read]
  by_cases inside : k < first + second
  · rw [getElem?_read _ _ _ _ inside]
    split
    · next early => rw [getElem?_read _ _ _ _ early]
    · rw [getElem?_read _ _ _ _ (by omega)]
      congr 3
      omega
  · rw [if_neg (by omega), List.getElem?_eq_none (by rw [length_read]; omega),
      List.getElem?_eq_none (by rw [length_read]; omega)]

/-- What a read finds at each position after a write, whether the two overlap or not. -/
theorem getElem?_read_write (memory : Bytes) (start : Nat) (bytes : Bytes) (index : Nat)
    {count k : Nat} (inside : k < count) :
    (read (write memory start bytes) index count)[k]? =
      if memory.length ≤ index + k then some absent
      else if start ≤ index + k ∧ index + k < start + bytes.length then bytes[index + k - start]?
      else memory[index + k]? := by
  have present {found : Bytes} {i : Nat} (within : i < found.length) :
      some (found[i]?.getD absent) = found[i]? := by
    rw [List.getElem?_eq_getElem within, Option.getD_some]
  rw [getElem?_read _ _ _ _ inside]
  split
  · next past =>
    rw [List.getElem?_eq_none (by rwa [length_write]), Option.getD_none]
  · next within =>
    rw [getElem?_write _ _ _ _ (by omega)]
    split
    · exact present (by omega)
    · exact present (by omega)

end RadioWindows.Memory
