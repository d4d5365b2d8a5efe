import RadioWindows.Proofs.Chip.Carrying
import RadioWindows.Proofs.Operations

/-! Operations on the chip. Every operation ends as long as the clock does not, and each acts on
its target windows alone. -/

namespace RadioWindows.Chip

def SameKinds (chip other : Chip) : Prop :=
  ∀ w, (other.window w).mount.kind = (chip.window w).mount.kind

section Access

variable {timing : Timing} {rounds : Nat} {chip : Chip} {w : Window}

theorem sameKinds_modifyWindow (chip : Chip) (w : Window) (change : ChipWindow → ChipWindow)
    (keeps : (change (chip.window w)).mount = (chip.window w).mount) :
    chip.SameKinds (chip.modifyWindow w change) := by
  intro v
  by_cases same : v = w
  · rw [same, window_modifyWindow_self, keeps]
  · rw [window_modifyWindow_of_ne _ _ same]

theorem check_indexSettled (chip : Chip) (w : Window) :
    (Driver.indexSettled w).check chip = .ok (!(chip.window w).indexBusy, chip) := by
  have settled (bits : UInt16) (looked : Host.answer (.read16 w.registers.status) chip =
      .ok (bits, chip)) :
      (Driver.indexSettled w).check chip = .ok (bits &&& Register.indexBusy == 0, chip) := by
    rw [Driver.indexSettled, Condition.check, looked]
    rfl
  have bit (busy : Bool) :
      ((if busy then Register.indexBusy else 0) &&& Register.indexBusy == 0) = !busy := by
    cases busy <;> decide
  rw [settled _ (answer_status chip w), bit]

/-- The chip once the driver has sought an index. Only an index that does not settle takes time. -/
def sought (chip : Chip) (timing : Timing) (w : Window) (index : UInt16) : Chip :=
  if index.toNat ≤ (chip.visible w).length then chip.setIndex w index
  else (chip.setIndex w index).delayed timing.indexTimeout timing.pollInterval

theorem alike_sought (chip : Chip) (timing : Timing) (w : Window) (index : UInt16) :
    (chip.sought timing w index).Alike (chip.setIndex w index) := by
  rw [sought]
  split
  · exact .refl _
  · exact alike_delayed _ _ _

theorem seek_timely {allowed : Halt → Prop} {index : UInt16} {post : Bool → Chip → Prop}
    (late : (chip.visible w).length < index.toNat →
      ¬chip.HasTime timing.indexTimeout timing.pollInterval → allowed .clockOverflow)
    (short : timing.pollInterval = 0 ∨
      rounds < timing.indexTimeout.toNat / timing.pollInterval.toNat + 2 → allowed .outOfRounds)
    (settles : ((chip.visible w).length < index.toNat →
        chip.HasTime timing.indexTimeout timing.pollInterval) →
      post (decide (index.toNat ≤ (chip.visible w).length)) (chip.sought timing w index)) :
    (Driver.seek timing w index).Ensures allowed rounds chip post := by
  have busy : (!((chip.setIndex w index).window w).indexBusy) =
      decide (index.toNat ≤ (chip.visible w).length) := by
    rw [setIndex, window_modifyWindow_self]
    simp [← decide_not]
  have past : decide (index.toNat ≤ (chip.visible w).length) = false ↔
      (chip.visible w).length < index.toNat := by simp
  have lacks (missed : (!((chip.setIndex w index).window w).indexBusy) = false)
      (full : ¬(chip.setIndex w index).HasTime timing.indexTimeout timing.pollInterval) :
      allowed .clockOverflow := late (past.mp (busy.symm.trans missed)) full
  have waits : EndsIn allowed (poll rounds timing.indexTimeout timing.pollInterval
      (Driver.indexSettled w) (chip.setIndex w index)) _ :=
    poll_timely lacks short (check_indexSettled _ w) rfl fun clock => check_indexSettled _ w
  rw [busy] at waits
  simp only [Driver.seek, Program.write16, Program.waitFor, Program.ensures_bind,
    Program.ensures_tell, Program.ensures_await, Program.ensures_done, answer_index, endsIn_ok]
  refine EndsIn.mono waits ?_
  rintro held ⟨ended, inTime⟩
  rw [ended]
  simpa only [sought, decide_eq_true_eq] using settles fun missed => inTime (past.mpr missed)

theorem ensures_seek {allowed : Halt → Prop} {index : UInt16} {post : Bool → Chip → Prop}
    (patient : Patient allowed rounds timing.indexTimeout timing.pollInterval
      (decide (index.toNat ≤ (chip.visible w).length)))
    (settles : post (decide (index.toNat ≤ (chip.visible w).length))
      (chip.sought timing w index)) :
    (Driver.seek timing w index).Ensures allowed rounds chip post :=
  seek_timely (fun missed _ => patient.late (decide_eq_false (Nat.not_le_of_lt missed)))
    patient.short fun _ => settles

end Access

theorem confined_transfer (chip : Chip) (w : Window) (bytes : Bytes) (count : Nat) :
    chip.Confined ((chip.overwrite w bytes).advance w count) w :=
  (Confined.overwrite chip w bytes).trans (.modifyWindow _ w _)

theorem SameKinds.trans {chip middle after : Chip} (first : chip.SameKinds middle)
    (second : middle.SameKinds after) : chip.SameKinds after :=
  fun w => (second w).trans (first w)

theorem SameKinds.of_alike {chip after : Chip} (alike : after.Alike chip) : chip.SameKinds after :=
  fun w => by rw [alike.window]

theorem sameKinds_transfer (chip : Chip) (w : Window) (bytes : Bytes) (count : Nat) :
    chip.SameKinds ((chip.overwrite w bytes).advance w count) :=
  SameKinds.trans (fun v => kind_overwrite chip v w bytes) (sameKinds_modifyWindow _ w _ rfl)

section Room

variable {chip : Chip} (room : chip.Roomy) (w : Window)
include room

theorem roomy_sought (timing : Timing) (index : UInt16) : (chip.sought timing w index).Roomy := by
  intro traffic
  rw [stock_alike (alike_sought chip timing w index), setIndex, stock_modifyWindow _ _ _ rfl]
  exact room traffic

theorem roomy_advance (count : Nat) : (chip.advance w count).Roomy := by
  intro traffic
  rw [advance, stock_modifyWindow _ _ _ rfl]
  exact room traffic

theorem roomy_overwrite {bytes : Bytes} (fits : bytes.length = (chip.visible w).length) :
    (chip.overwrite w bytes).Roomy := by
  intro traffic
  rw [stock_overwrite chip w fits]
  exact room traffic

end Room

/-- What operations keep on the chip: what is kept by any change that is confined to the window of
a move, and by changes of bytes and cursor where an operation seeks or transfers. -/
theorem spares_of_confined {operation : Operation} {timing : Timing} {rounds : Nat}
    (kept : Chip → MountStates → Prop)
    (moves : ∀ move ∈ operation.moves, ∀ chip after states, kept chip states →
      chip.Confined after move.target →
      (∀ src dst, move.pool = .copy src dst → chip.SameKinds after) → kept after states)
    (accesses : ∀ w ∈ operation.accesses, ∀ chip after states, kept chip states →
      chip.Confined after w → chip.SameKinds after → kept after states)
    (alike : ∀ chip after states, kept chip states → after.Alike chip → kept after states)
    (marks : ∀ window ∈ operation.marks, ∀ state chip states, kept chip states →
      kept chip (states.set window state)) :
    operation.Spares (timing.Allows rounds) rounds timing
      fun chip states => chip.Roomy ∧ kept chip states where
  issue move issued chip states before := by
    have issues := ensures_issue_confined timing rounds move before.1
    refine issues.mono fun _ after moved => ?_
    exact ⟨moved.1, moves move issued chip after states before.2 moved.2.1 moved.2.2⟩
  seek w accessed index chip states before := by
    have ended := alike_sought chip timing w index
    refine ensures_seek Timing.patient_index ⟨roomy_sought before.1 w timing index, ?_⟩
    have confined : chip.Confined (chip.setIndex w index) w := by
      rw [setIndex]
      exact .modifyWindow chip w _
    have kinds : chip.SameKinds (chip.setIndex w index) := sameKinds_modifyWindow chip w _ rfl
    exact accesses w accessed chip _ states before.2 (confined.trans (.of_alike ended w))
      (kinds.trans (.of_alike ended))
  readData w accessed count chip states before := by
    rw [answer_readData]
    have confined : chip.Confined (chip.advance w count) w := .modifyWindow chip w _
    exact ⟨roomy_advance before.1 w count, accesses w accessed chip _ states before.2 confined
      (sameKinds_modifyWindow chip w _ rfl)⟩
  writeData w accessed bytes chip states before := by
    rw [answer_writeData]
    have written := roomy_overwrite before.1 w (Memory.length_write _ (chip.window w).cursor bytes)
    exact ⟨roomy_advance written w _, accesses w accessed chip _ states before.2
      (confined_transfer chip w _ _) (sameKinds_transfer chip w _ _)⟩
  readFree traffic chip states before := by
    rw [answer_free]
    exact before
  report fault chip states before := by
    rw [answer_report]
    have reported := alike_reported chip fault
    exact ⟨before.1.of_alike reported, alike chip _ states before.2 reported⟩
  mark window marked state chip states before :=
    ⟨before.1, marks window marked state chip states before.2⟩

/-- What an operation leaves as it was: the timing, the windows that it does not act on and the
mount states that it does not mark; and if it issues nothing but copies, every window stays tied to
the same kind of thing. -/
structure Frame (operation : Operation) (before after : Session Chip) : Prop where
  timing : after.status.timing = before.status.timing
  window : ∀ v, v ∉ operation.targets → after.host.window v = before.host.window v
  sentBy : ∀ v, v ∉ operation.targets → after.host.sentBy v = before.host.sentBy v
  state : ∀ window, window ∉ operation.marks →
    after.status.dataStates.get window = before.status.dataStates.get window
  kinds : (∀ move ∈ operation.moves, ∃ src dst, move.pool = .copy src dst) →
    before.host.SameKinds after.host

theorem ensures_frame (operation : Operation) (rounds : Nat) {session : Session Chip}
    (room : session.host.Roomy) :
    operation.perform.Ensures (session.status.timing.Allows rounds) rounds session fun _ after =>
      after.host.Roomy ∧ Frame operation session after := by
  have spares : operation.Spares (session.status.timing.Allows rounds) rounds session.status.timing
      _ := spares_of_confined (fun chip states =>
        (∀ v, v ∉ operation.targets →
          chip.window v = session.host.window v ∧ chip.sentBy v = session.host.sentBy v) ∧
        (∀ window, window ∉ operation.marks →
          states.get window = session.status.dataStates.get window) ∧
        ((∀ move ∈ operation.moves, ∃ src dst, move.pool = .copy src dst) →
          session.host.SameKinds chip))
      ?moves ?accesses ?alike ?marks
  case moves =>
    intro move issued chip after states before confined copied
    refine ⟨fun v apart => ?_, before.2.1, fun copies => ?_⟩
    · have other : v ≠ move.target := fun same =>
        apart (List.mem_append_left _ (List.mem_map.mpr ⟨move, issued, same.symm⟩))
      rw [confined.elsewhere v other, confined.unsent v other]
      exact before.1 v apart
    · obtain ⟨src, dst, copy⟩ := copies move issued
      exact (before.2.2 copies).trans (copied src dst copy)
  case accesses =>
    intro w accessed chip after states before confined kinds
    refine ⟨fun v apart => ?_, before.2.1, fun copies => (before.2.2 copies).trans kinds⟩
    have other : v ≠ w := fun same => apart (List.mem_append_right _ (same ▸ accessed))
    rw [confined.elsewhere v other, confined.unsent v other]
    exact before.1 v apart
  case alike =>
    intro chip after states before alike
    refine ⟨fun v apart => ?_, before.2.1,
      fun copies => (before.2.2 copies).trans (.of_alike alike)⟩
    rw [alike.window, sentBy, alike.sent]
    exact before.1 v apart
  case marks =>
    intro window marked state chip states before
    refine ⟨before.1, fun other unmarked => ?_, before.2.2⟩
    have distinct : other ≠ window := fun same => unmarked (same ▸ marked)
    rw [MountStates.get_set, if_neg distinct]
    exact before.2.1 other unmarked
  have keeps := Operation.keeps_perform spares session rfl
    ⟨room, fun _ _ => ⟨rfl, rfl⟩, fun _ _ => rfl, fun _ _ => rfl⟩
  refine Driver.Ensures.mono keeps fun _ after kept => ⟨kept.2.1, ?_⟩
  exact ⟨kept.1, fun v apart => (kept.2.2.1 v apart).1, fun v apart => (kept.2.2.1 v apart).2,
    kept.2.2.2.1, kept.2.2.2.2⟩

/-- Every operation ends, and leaves as it was what it has no business with. -/
theorem perform_frame (operation : Operation) (rounds : Nat) {session : Session Chip}
    (room : session.host.Roomy) :
    EndsIn (session.status.timing.Allows rounds) (session.perform rounds operation) fun taken =>
      taken.session.host.Roomy ∧ Frame operation session taken.session :=
  Session.perform_endsIn ((ensures_frame operation rounds room).mono fun _ _ framed _ => framed)

theorem Roomy.run_along {rounds : Nat} {session : Session Chip} {steps : List (Step Change)}
    {relation : Session Chip → Step Change → Taken Chip → Prop} (room : session.host.Roomy)
    (untouched : ∀ pool free, .adjust (.setFree pool free) ∉ steps)
    (performs : ∀ operation session, session.host.Roomy →
      EndsIn (session.status.timing.Allows rounds) (session.perform rounds operation)
        (relation session (.perform operation)))
    (adjusts : ∀ change session, relation session (.adjust change)
      ⟨.nothing, [], { session with host := Chip.adjust change session.host }⟩) :
    EndsIn (session.status.timing.Allows rounds) (session.run rounds steps) fun taken =>
      Session.Along relation session steps taken := by
  let kept (now : Session Chip) : Prop :=
    now.status.timing = session.status.timing ∧ now.host.Roomy
  have along : EndsIn (session.status.timing.Allows rounds) (session.run rounds steps) fun taken =>
      kept (session.after taken) ∧ Session.Along relation session steps taken := by
    refine Session.run_endsIn (fun step member before now => ?_) ⟨rfl, room⟩
    obtain ⟨timing, roomy⟩ := now
    cases step with
    | perform operation =>
      rw [← timing]
      have framed := perform_frame operation rounds roomy
      refine EndsIn.mono (framed.and (performs operation before roomy)) ?_
      rintro taken ⟨⟨roomy, frame⟩, established⟩
      exact ⟨⟨frame.timing.trans timing, roomy⟩, established⟩
    | adjust change =>
      have fixed : ∀ pool free, change ≠ .setFree pool free := fun pool free set =>
        untouched pool free (set ▸ member)
      exact ⟨⟨timing, roomy.adjust fixed⟩, adjusts change before⟩
  exact EndsIn.mono along fun _ established => established.2

end RadioWindows.Chip
