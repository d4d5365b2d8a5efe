import RadioWindows.Proofs.Chip.Operating

/-! Accesses on the chip from beginning to end. Setting an index and transferring change the cursor
of the window and the bytes it shows; what windows are tied to and how long it is stays. -/

namespace RadioWindows.Chip

section Visible

variable {chip other : Chip}

theorem Alike.visible (alike : chip.Alike other) (w : Window) :
    chip.visible w = other.visible w := by
  rw [Chip.visible, Chip.visible, alike.window, alike.scratch]

theorem visible_modifyWindow (chip : Chip) (w v : Window) (change : ChipWindow → ChipWindow)
    (keeps : (change (chip.window w)).mount = (chip.window w).mount) :
    (chip.modifyWindow w change).visible v = chip.visible v := by
  have mount : ((chip.modifyWindow w change).window v).mount = (chip.window v).mount := by
    by_cases same : v = w
    · rw [same, window_modifyWindow_self, keeps]
    · rw [window_modifyWindow_of_ne _ _ same]
  rw [visible, visible, mount]
  rfl

theorem visible_setIndex (chip : Chip) (w v : Window) (index : UInt16) :
    (chip.setIndex w index).visible v = chip.visible v := visible_modifyWindow chip w v _ rfl

theorem visible_advance (chip : Chip) (w v : Window) (count : Nat) :
    (chip.advance w count).visible v = chip.visible v := visible_modifyWindow chip w v _ rfl

theorem length_visible_overwrite (chip : Chip) (w : Window) {bytes : Bytes}
    (fits : bytes.length = (chip.visible w).length) :
    ((chip.overwrite w bytes).visible w).length = (chip.visible w).length := by
  rw [overwrite]
  cases mounted : (chip.window w).mount with
  | nothing => rfl
  | segment owner old | frame old =>
    rw [← fits, visible, window_mount_self]
  | scratch =>
    have same : ({ chip with scratch := bytes }.window w).mount = .scratch := mounted
    rw [← fits, visible, same]

end Visible

section Sessions

variable (session : Session Chip) (w : Window)

def checked : Session Chip :=
  { session with host :=
      if session.status.outOfBounds.contains w then
        session.host.reported (.outOfBoundsAccess w)
      else session.host }

def indexed (index : UInt16) : Session Chip :=
  if index.toNat ≤ (session.host.visible w).length then
    ⟨session.host.sought session.status.timing w index, session.status.unflag w⟩
  else
    ⟨(session.host.sought session.status.timing w index).reported (.indexOutOfBounds w index),
      session.status.flag w⟩

theorem alike_checked : (checked session w).host.Alike session.host := by
  rw [checked]
  split
  · exact alike_reported _ _
  · exact .refl _

theorem alike_indexed (index : UInt16) :
    (indexed session w index).host.Alike (session.host.setIndex w index) := by
  have sought := alike_sought session.host session.status.timing w index
  rw [indexed]
  split
  · exact sought
  · exact (alike_reported _ _).trans sought

theorem moves_checked : (checked session w).host.moves = session.host.moves := by
  rw [checked]
  split <;> rfl

theorem moves_sought (chip : Chip) (timing : Timing) (w : Window) (index : UInt16) :
    (chip.sought timing w index).moves = chip.moves := by
  rw [sought]
  split <;> rfl

theorem timing_indexed (index : UInt16) :
    (indexed session w index).status.timing = session.status.timing := by
  rw [indexed]
  split <;> rfl

theorem window_indexed_self (index : UInt16) :
    (indexed session w index).host.window w =
      { session.host.window w with
        cursor := index.toNat
        indexBusy := decide ((session.host.visible w).length < index.toNat) } := by
  rw [(alike_indexed session w index).window, setIndex, window_modifyWindow_self]

theorem visible_indexed (index : UInt16) (v : Window) :
    (indexed session w index).host.visible v = session.host.visible v := by
  rw [(alike_indexed session w index).visible, visible_setIndex]

theorem contains_indexed (index : UInt16) :
    (indexed session w index).status.outOfBounds.contains w =
      decide ((session.host.visible w).length < index.toNat) := by
  rw [indexed]
  split
  · next within => simp [Status.unflag, WindowMask.contains_erase, Nat.not_lt.mpr within]
  · next past => simp [Status.flag, WindowMask.contains_insert, Nat.lt_of_not_le past]

end Sessions

variable {rounds : Nat} {session : Session Chip} {w : Window} {allowed : Halt → Prop}

theorem setIndex_timely (index : UInt16)
    (late : (session.host.visible w).length < index.toNat →
      ¬session.host.HasTime session.status.timing.indexTimeout session.status.timing.pollInterval →
      allowed .clockOverflow)
    (short : session.status.timing.Allows rounds .outOfRounds → allowed .outOfRounds) :
    (Driver.setIndex w index).Ensures allowed rounds session fun _ after =>
      after = indexed session w index ∧ ((session.host.visible w).length < index.toNat →
        session.host.HasTime session.status.timing.indexTimeout
          session.status.timing.pollInterval) := by
  have patient : Patient (session.status.timing.Allows rounds) rounds _ _ true :=
    Timing.patient_index
  rw [Driver.setIndex, Driver.ensures_bind, Driver.ensures_get, Driver.ensures_bind,
    Driver.ensures_lift]
  refine seek_timely late (fun few => short (patient.short few)) fun inTime => ?_
  rw [Driver.ensures_ite, indexed]
  by_cases within : index.toNat ≤ (session.host.visible w).length
  · rw [if_pos (decide_eq_true within), if_pos within]
    exact ⟨rfl, inTime⟩
  · rw [if_neg (by simpa using within), if_neg within]
    simp only [Driver.ensures_bind, Driver.ensures_modify, Driver.ensures_lift,
      Program.ensures_raise, answer_report, endsIn_ok]
    exact ⟨trivial, inTime⟩

theorem ensures_setIndex (index : UInt16) :
    (Driver.setIndex w index).Ensures (session.status.timing.Allows rounds) rounds session
      fun _ after => after = indexed session w index :=
  (setIndex_timely index (fun _ _ => trivial) id).mono fun _ _ => And.left

theorem ensures_checkAccess :
    (Driver.checkAccess w).Ensures allowed rounds session fun _ after =>
      after = checked session w := by
  rw [Driver.checkAccess, Driver.ensures_bind, Driver.ensures_get, Driver.ensures_lift,
    Program.ensures_raiseIf, checked]
  split
  · rfl
  · rfl

theorem ensures_read (count : Nat) :
    (Driver.read w count).Ensures allowed rounds session fun bytes after =>
      bytes = Memory.read (session.host.visible w) (session.host.window w).cursor count ∧
        after = ⟨(checked session w).host.advance w count, session.status⟩ := by
  rw [Driver.read, Driver.ensures_bind]
  refine ensures_checkAccess.mono ?_
  rintro _ _ rfl
  rw [Driver.ensures_lift, Program.readBytes, Program.ensures_ask, answer_readData, endsIn_ok,
    (alike_checked session w).visible, (alike_checked session w).window]
  exact ⟨rfl, rfl⟩

theorem ensures_write (bytes : Bytes) :
    (Driver.write w bytes).Ensures allowed rounds session fun _ after =>
      after = ⟨((checked session w).host.overwrite w (Memory.write (session.host.visible w)
        (session.host.window w).cursor bytes)).advance w bytes.length, session.status⟩ := by
  rw [Driver.write, Driver.ensures_bind]
  refine ensures_checkAccess.mono ?_
  rintro _ _ rfl
  rw [Driver.ensures_lift, Program.writeBytes, Program.ensures_tell, answer_writeData, endsIn_ok,
    (alike_checked session w).visible, (alike_checked session w).window]
  rfl

end RadioWindows.Chip
