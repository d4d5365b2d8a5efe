import RadioWindows.Proofs.Chip.Settling
import RadioWindows.Proofs.Interleaving

/-! Copies between windows. The two windows of a copy travel packed in the count register of the one
that it is issued on, so the window asked for has no part in what happens; and a copy touches what
its destination shows and nothing else, be it the source itself or another view of scratch
memory. -/

namespace RadioWindows

theorem Mount.kind_holding (mount : Mount) (bytes : Bytes) :
    (mount.holding bytes).kind = mount.kind := by cases mount <;> rfl

namespace Chip

/-- How many bytes a copy takes. Twelve bits of the size are heeded. -/
def copyCount (chip : Chip) (src dst : Window) (size : UInt16) : Nat :=
  min (size.toNat % 4096) (min (chip.visible src).length (chip.visible dst).length)

section Bytes

variable (chip : Chip) (src dst : Window) (size : UInt16)

theorem copyCount_lt : chip.copyCount src dst size < UInt16.size :=
  Nat.lt_of_le_of_lt (Nat.min_le_left _ _)
    (Nat.lt_trans (Nat.mod_lt _ (by decide)) (by decide : 4096 < UInt16.size))

theorem copied_eq : chip.copied src dst (size.toNat % 4096) =
    (chip.visible src).take (chip.copyCount src dst size) := by
  rw [copied, copyCount, List.take_take, List.take_eq_take_iff]
  omega

theorem length_copied :
    (chip.copied src dst (size.toNat % 4096)).length = chip.copyCount src dst size := by
  rw [copied_eq, List.length_take, copyCount]
  omega

theorem copiedOver_eq : chip.copiedOver src dst (size.toNat % 4096) =
    (chip.visible src).take (chip.copyCount src dst size) ++
      (chip.visible dst).drop (chip.copyCount src dst size) := by
  rw [copiedOver, length_copied, copied_eq]

theorem length_copiedOver :
    (chip.copiedOver src dst (size.toNat % 4096)).length = (chip.visible dst).length := by
  rw [copiedOver_eq, List.length_append, List.length_take, List.length_drop, copyCount]
  omega

end Bytes

section Left

variable (chip : Chip) (timing : Timing) (w src dst : Window) (destination : Bool) (size : UInt16)

def afterCopy : Chip :=
  let move : Move := ⟨w, .copy src dst, destination, size⟩
  chip.settled timing move (chip.copyCount src dst size,
    (chip.placed move).overwrite dst (chip.copiedOver src dst (size.toNat % 4096)))

theorem carryOut_copied :
    (chip.placed ⟨w, .copy src dst, destination, size⟩).carryOut dst
      (Move.word ⟨w, .copy src dst, destination, size⟩) =
        .ok (chip.copyCount src dst size,
          (chip.placed ⟨w, .copy src dst, destination, size⟩).overwrite dst
            (chip.copiedOver src dst (size.toNat % 4096))) := by
  have visible (v : Window) :
      (chip.placed ⟨w, .copy src dst, destination, size⟩).visible v = chip.visible v :=
    visible_modifyWindow chip dst v _ rfl
  rw [carryOut_copying]
  simp only [copiedOver, copied, visible]
  rw [← copied, length_copied]

/-- The chip as a copy leaves it but for circumstances: the destination shows other bytes and is
back at its start. -/
def overlaid (chip : Chip) (src dst : Window) (size : UInt16) : Chip :=
  chip.altered dst (chip.copiedOver src dst (size.toNat % 4096)) fun old =>
    { old with count := .ofNat (chip.copyCount src dst size), cursor := 0, indexBusy := false }

theorem alike_afterCopy :
    (chip.afterCopy timing w src dst destination size).Alike (chip.overlaid src dst size) := by
  have placed : chip.placed ⟨w, .copy src dst, destination, size⟩ =
      chip.altered dst (chip.visible dst) fun old =>
        { old with count := Move.operands src dst } := by
    rw [altered_visible]
    rfl
  have merged : ((chip.placed ⟨w, .copy src dst, destination, size⟩).overwrite dst
      (chip.copiedOver src dst (size.toNat % 4096))).restart dst (chip.copyCount src dst size) =
        chip.overlaid src dst size := by
    rw [placed]
    exact altered_altered chip dst _ _ fun _ _ => rfl
  rw [← merged]
  exact chip.alike_settled timing ⟨w, .copy src dst, destination, size⟩ _

end Left

section Copy

variable (rounds : Nat) (session : Session Chip) (w src dst : Window) (destination : Bool)
  (size : UInt16)

theorem perform_copy :
    EndsIn (fun halt => session.status.timing.Allows rounds halt ∧ (halt = .clockOverflow →
        ¬session.host.HasTimeFor session.status.timing ⟨dst, .copy src dst, true, size⟩))
      (session.perform rounds (.move ⟨w, .copy src dst, destination, size⟩)) fun taken =>
        session.host.HasTimeFor session.status.timing ⟨dst, .copy src dst, true, size⟩ ∧
        taken.answer = .count (.ofNat (session.host.copyCount src dst size)) ∧
        taken.session = ⟨session.host.afterCopy session.status.timing w src dst destination size,
          session.status⟩ := by
  refine Session.perform_endsIn ?_
  rw [Operation.perform, Driver.ensures_map, Driver.issue, Driver.ensures_bind,
    Driver.ensures_get, Driver.ensures_lift]
  refine issue_timely ?_
  have carries := session.host.carryOut_copied w src dst destination size
  change EndsIn _ ((session.host.placed ⟨w, .copy src dst, destination, size⟩).carryOut dst
    (Move.word ⟨w, .copy src dst, destination, size⟩)) _
  rw [carries]
  have patient : Patient (session.status.timing.Allows rounds) rounds _ _ true :=
    Timing.patient_move
  have lacks : Halt.outOfRounds ≠ .clockOverflow := by decide
  exact ⟨fun full => ⟨trivial, fun _ => full⟩,
    fun few => ⟨patient.short few, fun same => absurd same lacks⟩,
    fun inTime log => ⟨inTime, rfl, rfl⟩⟩

structure Copied (session : Session Chip) (src dst : Window) (size : UInt16)
    (taken : Taken Chip) : Prop where
  answer : ∃ count : UInt16, taken.answer = .count count ∧
    count.toNat = session.host.copyCount src dst size
  shown : taken.session.host.visible dst =
    (session.host.visible src).take (session.host.copyCount src dst size) ++
      (session.host.visible dst).drop (session.host.copyCount src dst size)
  shared : ∀ v, (session.host.window v).mount = .scratch →
    (session.host.window dst).mount = .scratch →
      taken.session.host.visible v = taken.session.host.visible dst
  unshared : ∀ v, session.host.Apart v dst →
    taken.session.host.visible v = session.host.visible v
  elsewhere : ∀ v, v ≠ dst → taken.session.host.window v = session.host.window v
  kinds : session.host.SameKinds taken.session.host
  free : ∀ traffic, taken.session.host.free traffic = session.host.free traffic
  received : taken.session.host.received = session.host.received
  sent : taken.session.host.sent = session.host.sent
  cursor : (taken.session.host.window dst).cursor = 0
  indexBusy : (taken.session.host.window dst).indexBusy = false
  status : taken.session.status = session.status

variable {session src dst size}

theorem copied_of_alike {taken : Taken Chip}
    (answer : taken.answer = .count (.ofNat (session.host.copyCount src dst size)))
    (alike : taken.session.host.Alike (session.host.overlaid src dst size))
    (status : taken.session.status = session.status) : Copied session src dst size taken := by
  have elsewhere (v : Window) (other : v ≠ dst) :
      taken.session.host.window v = session.host.window v := by
    rw [alike.window, overlaid, window_altered_of_ne _ other]
  have kinds : session.host.SameKinds taken.session.host := fun v => by
    by_cases same : v = dst
    · rw [alike.window, same, overlaid, window_altered_self]
      exact Mount.kind_holding _ _
    · rw [elsewhere v same]
  have scratch (v : Window) (shows : (session.host.window v).mount = .scratch) :
      taken.session.host.visible v = taken.session.host.scratch := by
    have still := Mount.kind_eq_scratch.mp ((kinds v).trans (Mount.kind_eq_scratch.mpr shows))
    rw [visible, still]
  refine ⟨?answer, ?shown, ?shared, ?unshared, elsewhere, kinds, ?free, ?received, ?sent, ?cursor,
    ?indexBusy, status⟩
  case answer =>
    exact ⟨_, answer, UInt16.toNat_ofNat_of_lt' (session.host.copyCount_lt src dst size)⟩
  case shown =>
    rw [alike.visible, ← copiedOver_eq, overlaid]
    exact visible_altered_self _ (fun _ => rfl) (session.host.length_copiedOver src dst size)
  case shared => exact fun v here there => (scratch v here).trans (scratch dst there).symm
  case unshared =>
    intro v apart
    rw [alike.visible, overlaid, visible_altered_of_apart _ apart]
  case free =>
    intro traffic
    rw [alike.free, overlaid, altered_eq]
    cases traffic <;> rfl
  case received => rw [alike.received, overlaid, altered_eq]
  case sent => rw [alike.sent, overlaid, altered_eq]
  case cursor => rw [alike.window, overlaid, window_altered_self]
  case indexBusy => rw [alike.window, overlaid, window_altered_self]

end Copy

/-- A copy takes the first bytes of its source to the start of its destination, for all windows and
sizes. Which window it is asked for does not matter, and its direction is nowhere to be seen but in
the record of the move. -/
theorem copy_copies (rounds : Nat) (session : Session Chip) (w src dst : Window)
    (destination : Bool) (size : UInt16) (moving : session.status.timing.pollInterval ≠ 0)
    (enough : session.status.timing.enoughRounds ≤ rounds)
    (clock : session.perform rounds (.move ⟨w, .copy src dst, destination, size⟩) ≠
      .error .clockOverflow) :
    (∃ taken, session.perform rounds (.move ⟨w, .copy src dst, destination, size⟩) = .ok taken ∧
      Copied session src dst size taken ∧
      taken.session.host.moves = session.host.moves ++
        [(dst, .forMove (.copy src dst) destination size)] ∧
      ∀ v backward, ∃ found,
        session.perform rounds (.move ⟨v, .copy src dst, backward, size⟩) = .ok found ∧
        found.answer = taken.answer ∧
        found.session = { taken.session with host := { taken.session.host with
          moves := session.host.moves ++ [(dst, .forMove (.copy src dst) backward size)] } }) ∧
    (∀ v, session.perform rounds (.move ⟨v, .copy src dst, destination, size⟩) =
      session.perform rounds (.move ⟨w, .copy src dst, destination, size⟩)) ∧
    session.perform rounds (.copy src dst size) =
      session.perform rounds (.move ⟨dst, .copy src dst, true, size⟩) := by
  have ends (v : Window) (toward : Bool) := perform_copy rounds session v src dst toward size
  obtain ⟨taken, finished, inTime, answer, left⟩ :=
    Timing.finishes ((ends w destination).allow fun _ => And.left) moving enough clock
  have host : taken.session.host =
      session.host.afterCopy session.status.timing w src dst destination size :=
    congrArg Session.host left
  have alike := session.host.alike_afterCopy session.status.timing w src dst destination size
  rw [← host] at alike
  have status : taken.session.status = session.status := by rw [left]
  refine ⟨⟨taken, finished, copied_of_alike answer alike status, ?_, fun v backward => ?_⟩,
    fun v => rfl, rfl⟩
  · rw [host]
    exact moves_settled _ _ _ _
  · -- The wait is for the same window, so the clock has room for it as it had before.
    obtain ⟨found, ended, -, answered, other⟩ := (ends v backward).exists_ok fun halt _ halts =>
      halts.2 (halts.1.eq_clockOverflow moving enough) inTime
    refine ⟨found, ended, answered.trans answer.symm, ?_⟩
    rw [other, left]
    have same : Move.target ⟨v, .copy src dst, backward, size⟩ =
        Move.target ⟨w, .copy src dst, destination, size⟩ := rfl
    exact congrArg (Session.mk · session.status) (settled_of_target session.host
      session.status.timing ⟨w, .copy src dst, destination, size⟩ _ same)

def seeded : Session Chip :=
  match loaded.perform 4 (.writeAt .scratch 0 [1, 2, 3, 4]) with
  | .ok taken => taken.session
  | .error _ => loaded

/-- A copy into a buffer of five bytes, asked for on a third window and with a size that does not
fit into twelve bits. -/
theorem copy_copies_seeded :
    ∃ taken, seeded.perform 4 (.move ⟨.spare, .copy .scratch .dataTx, false, 4099⟩) = .ok taken ∧
      taken.answer = .count 3 ∧ taken.session.host.visible .dataTx = [1, 2, 3, 0, 0] ∧
      Copied seeded .scratch .dataTx 4099 taken ∧
      ∃ found, seeded.perform 4 (.copy .scratch .dataTx 4099) = .ok found ∧
        found.answer = taken.answer ∧
        found.session.host.moves = seeded.host.moves ++
          [(.dataTx, .forMove (.copy .scratch .dataTx) true 4099)] := by
  obtain ⟨taken, finished, answer, shown⟩ : ∃ taken,
      seeded.perform 4 (.move ⟨.spare, .copy .scratch .dataTx, false, 4099⟩) = .ok taken ∧
        taken.answer = .count 3 ∧ taken.session.host.visible .dataTx = [1, 2, 3, 0, 0] :=
    exists_ok_of_endsIn (by decide +kernel)
  obtain ⟨⟨copied, ended, copies, -, others⟩, -, instances⟩ :=
    copy_copies 4 seeded .spare .scratch .dataTx false 4099 (by decide +kernel) (by decide +kernel)
      fun halted => nomatch finished.symm.trans halted
  obtain rfl : taken = copied := Except.ok.inj (finished.symm.trans ended)
  obtain ⟨found, alike, same, left⟩ := others .dataTx true
  exact ⟨taken, finished, answer, shown, copies, found, instances.trans alike, same, by rw [left]⟩

end Chip

end RadioWindows
