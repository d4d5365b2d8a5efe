import RadioWindows.Proofs.Chip.Operating

/-! The chip as a move leaves it. The move is on record, its window is back at its start, and what
windows share is as it was: scratch memory keeps its size, and received frames wait unless one of
them is mounted. What moves and accesses keep of the chip, operations made of them keep. -/

namespace RadioWindows.Chip

/-- Of what windows share, only bytes and free counts have changed. -/
structure Steady (chip after : Chip) : Prop where
  scratch : after.scratch.length = chip.scratch.length
  received : after.received = chip.received

namespace Steady

variable {chip middle after : Chip} {w : Window}

theorem refl (chip : Chip) : chip.Steady chip := ⟨rfl, rfl⟩

theorem trans (first : chip.Steady middle) (second : middle.Steady after) : chip.Steady after :=
  ⟨second.scratch.trans first.scratch, second.received.trans first.received⟩

theorem of_alike (alike : after.Alike chip) : chip.Steady after :=
  ⟨congrArg List.length alike.scratch, alike.received⟩

theorem modifyWindow (chip : Chip) (w : Window) (change : ChipWindow → ChipWindow) :
    chip.Steady (chip.modifyWindow w change) := ⟨rfl, rfl⟩

theorem mount (chip : Chip) (w : Window) (mount : Mount) : chip.Steady (chip.mount w mount) :=
  ⟨rfl, rfl⟩

theorem overwrite (chip : Chip) (w : Window) {bytes : Bytes}
    (fits : bytes.length = (chip.visible w).length) : chip.Steady (chip.overwrite w bytes) := by
  rw [visible] at fits
  rw [Chip.overwrite]
  cases mounted : (chip.window w).mount with
  | scratch =>
    rw [mounted] at fits
    exact ⟨fits, rfl⟩
  | nothing => exact refl chip
  | segment _ _ | frame _ => exact mount chip w _

theorem placed (chip : Chip) (move : Move) : chip.Steady (chip.placed move) := by
  rw [Chip.placed]
  split
  · exact modifyWindow chip _ _
  · exact refl chip

theorem carryOut {move : Move} {out : Nat × Chip} (other : move.receives = false)
    (carried : chip.carryOut w move.word = .ok out) : chip.Steady out.2 := by
  refine carryOut_keeps chip.Steady ?_ ?_ ?_ ?_ ?_ carried (refl chip)
  · exact fun _ _ steady => steady.trans (mount _ w _)
  · exact fun _ _ _ steady => steady.trans ⟨rfl, rfl⟩
  · exact fun _ _ steady => steady.trans ⟨rfl, rfl⟩
  · exact fun receives => absurd (receives.symm.trans other) (by simp)
  · exact fun _ _ _ bytes fits => overwrite chip w fits

end Steady

theorem carryOut_receives {chip : Chip} {w : Window} {move : Move}
    (receives : move.receives = true) : chip.carryOut w move.word = .ok (chip.mountFrame w) := by
  obtain ⟨asked, pool, destination, size⟩ := move
  simp only [Move.receives, Bool.and_eq_true, decide_eq_true_eq] at receives
  obtain ⟨rfl, rfl⟩ := receives
  exact carryOut_forMove chip w size .macFrame true

theorem scratch_carryOut {chip : Chip} {w : Window} {move : Move} {out : Nat × Chip}
    (carried : chip.carryOut w move.word = .ok out) :
    out.2.scratch.length = chip.scratch.length := by
  cases receives : move.receives with
  | false => exact (Steady.carryOut receives carried).scratch
  | true =>
    rw [carryOut_receives receives] at carried
    cases carried
    rfl

theorem length_visible_congr {chip other : Chip} {w : Window}
    (mount : (other.window w).mount = (chip.window w).mount)
    (scratch : other.scratch.length = chip.scratch.length) :
    (other.visible w).length = (chip.visible w).length := by
  rw [visible, visible, mount]
  cases (chip.window w).mount with
  | scratch => exact scratch
  | nothing | segment _ _ | frame _ => rfl

section Settled

variable (chip : Chip) (timing : Timing) (move : Move) (out : Nat × Chip)

theorem moves_awaited (w : Window) : (chip.awaited timing w).moves = chip.moves := by
  have latched : chip.latch.moves = chip.moves := by rw [latch_eq]
  have acknowledged (chip : Chip) : (chip.acknowledged w).moves = chip.moves := by
    cases w <;> rfl
  rw [awaited]
  split
  · rw [acknowledged, latched]
  · exact latched

theorem moves_settled :
    (chip.settled timing move out).moves = chip.moves ++ [(move.target, move.word)] :=
  moves_awaited _ timing move.target

theorem awaited_moves (chip : Chip) (timing : Timing) (w : Window)
    (moves : List (Window × ControlWord)) :
    awaited { chip with moves } timing w = { chip.awaited timing w with moves } := by
  have acknowledged (chip : Chip) :
      acknowledged { chip with moves } w = { chip.acknowledged w with moves } := by cases w <;> rfl
  have shows (chip : Chip) : shows { chip with moves } w = chip.shows w := rfl
  rw [awaited, awaited, latch_moves, shows]
  split
  · rw [acknowledged]
  · rfl

theorem settled_of_target {other : Move} (same : other.target = move.target) :
    chip.settled timing other out =
      { chip.settled timing move out with moves := chip.moves ++ [(move.target, other.word)] } := by
  have waits : chip.waiting other out =
      { chip.waiting move out with moves := chip.moves ++ [(move.target, other.word)] } := by
    rw [waiting, waiting, listening, listening, quiet, quiet, same]
    rfl
  rw [settled, settled, same, waits, awaited_moves]
  rfl

theorem faults_settled : ∃ late, (chip.settled timing move out).faults = chip.faults ++ late ∧
    ∀ fault ∈ late, fault = .moveTimeout move.target := by
  cases heeds : chip.heeds move.target with
  | true =>
    refine ⟨[], ?_, nofun⟩
    rw [(chip.settled_of_heeds timing move out heeds).1, List.append_nil]
  | false =>
    refine ⟨[.moveTimeout move.target], (chip.settled_of_not_heeds timing move out heeds).1, ?_⟩
    simp

theorem window_settled_self : (chip.settled timing move out).window move.target =
    { out.2.window move.target with count := .ofNat out.1, cursor := 0, indexBusy := false } := by
  rw [(chip.alike_settled timing move out).window, restart, window_modifyWindow_self]

theorem steady_settled {chip : Chip} {move : Move} {out : Nat × Chip}
    (other : move.receives = false)
    (carried : (chip.placed move).carryOut move.target move.word = .ok out) :
    chip.Steady (chip.settled timing move out) := by
  have restarted : out.2.Steady (out.2.restart move.target out.1) := .modifyWindow _ _ _
  exact ((Steady.placed chip move).trans (.carryOut other carried)).trans
    (restarted.trans (.of_alike (chip.alike_settled timing move out)))

theorem length_scratch_settled {chip : Chip} {move : Move} {out : Nat × Chip}
    (carried : (chip.placed move).carryOut move.target move.word = .ok out) :
    (chip.settled timing move out).scratch.length = chip.scratch.length := by
  rw [(chip.alike_settled timing move out).scratch]
  exact (scratch_carryOut carried).trans (Steady.placed chip move).scratch

theorem ensures_settled (rounds : Nat) {chip : Chip} (room : chip.Roomy) (move : Move) :
    (move.issue timing).Ensures (timing.Allows rounds) rounds chip fun count after =>
      ∃ out, (chip.placed move).carryOut move.target move.word = .ok out ∧
        count = .ofNat out.1 ∧ after = chip.settled timing move out ∧ after.Roomy := by
  obtain ⟨out, carried, roomy⟩ := carryOut_roomy room move
  refine (issue_of_ok carried Timing.patient_move).mono fun count after ended => ?_
  obtain ⟨counted, rfl, -⟩ := ended
  refine ⟨out, carried, counted, rfl, fun traffic => ?_⟩
  rw [stock_alike (chip.alike_settled timing move out), restart, stock_modifyWindow _ _ _ rfl]
  exact roomy traffic

end Settled

theorem perform_keeps (kept : Chip → Prop) {operation : Operation} {rounds : Nat}
    {session : Session Chip} (room : session.host.Roomy)
    (moves : ∀ move ∈ operation.moves, ∀ chip out, kept chip →
      (chip.placed move).carryOut move.target move.word = .ok out →
      kept (chip.settled session.status.timing move out))
    (seeks : ∀ w ∈ operation.accesses, ∀ chip index, kept chip →
      kept (chip.sought session.status.timing w index))
    (advances : ∀ w ∈ operation.accesses, ∀ chip count, kept chip → kept (chip.advance w count))
    (overwrites : ∀ w ∈ operation.accesses, ∀ chip bytes,
      bytes.length = (chip.visible w).length → kept chip → kept (chip.overwrite w bytes))
    (reports : ∀ chip fault, kept chip → kept (chip.reported fault)) (start : kept session.host) :
    operation.perform.Ensures (session.status.timing.Allows rounds) rounds session
      fun _ after => kept after.host := by
  have spares : operation.Spares (session.status.timing.Allows rounds) rounds session.status.timing
      fun chip _ => chip.Roomy ∧ kept chip := {
    issue move issued chip states before := by
      refine (ensures_settled _ rounds before.1 move).mono fun _ after ended => ?_
      obtain ⟨out, carried, -, rfl, roomy⟩ := ended
      exact ⟨roomy, moves move issued chip out before.2 carried⟩
    seek w accessed index chip states before :=
      ensures_seek Timing.patient_index
        ⟨roomy_sought before.1 w _ index, seeks w accessed chip index before.2⟩
    readData w accessed count chip states before := by
      rw [answer_readData]
      exact ⟨roomy_advance before.1 w count, advances w accessed chip count before.2⟩
    writeData w accessed bytes chip states before := by
      rw [answer_writeData]
      have fits := Memory.length_write (chip.visible w) (chip.window w).cursor bytes
      have written := roomy_overwrite before.1 w fits
      exact ⟨roomy_advance written w _,
        advances w accessed _ _ (overwrites w accessed chip _ fits before.2)⟩
    readFree traffic chip states before := by
      rw [answer_free]
      exact before
    report fault chip states before := by
      rw [answer_report]
      exact ⟨before.1.of_alike (alike_reported chip fault), reports chip fault before.2⟩
    mark window marked state chip states before := before }
  have keeps := Operation.keeps_perform spares session rfl ⟨room, start⟩
  exact Driver.Ensures.mono keeps fun _ after established => established.2.2

end RadioWindows.Chip
