import RadioWindows.Proofs.Isolation

/-! Scratch memory across mounts. Whatever is mounted where in between, the memory itself changes
only by what is stored through a window that shows it; so a later mount, on any window, finds what
was written. -/

namespace RadioWindows

theorem Memory.read_write {memory bytes : Bytes} {start : Nat}
    (fits : start + bytes.length ≤ memory.length) :
    read (write memory start bytes) start bytes.length = bytes := by
  refine List.ext_getElem? fun k => ?_
  by_cases inside : k < bytes.length
  · rw [getElem?_read_write _ _ _ _ inside, if_neg (by omega), if_pos (by omega),
      Nat.add_sub_cancel_left]
  · rw [List.getElem?_eq_none (by rw [length_read]; omega), List.getElem?_eq_none (by omega)]

namespace Chip

variable {rounds : Nat} {session : Session Chip}

theorem scratch_adjust (change : Change) (chip : Chip) :
    (adjust change chip).scratch = chip.scratch := by
  cases change with
  | setFree traffic free => cases traffic <;> rfl
  | _ => rfl

theorem perform_length_scratch (operation : Operation) (room : session.host.Roomy) :
    EndsIn (session.status.timing.Allows rounds) (session.perform rounds operation) fun taken =>
      taken.session.host.scratch.length = session.host.scratch.length := by
  let kept (chip : Chip) : Prop := chip.scratch.length = session.host.scratch.length
  have keeps : operation.perform.Ensures (session.status.timing.Allows rounds) rounds session
      fun _ after => kept after.host := by
    refine perform_keeps kept room ?moves ?seeks ?advances ?overwrites ?reports rfl
    case moves =>
      exact fun move _ chip out before carried => (length_scratch_settled _ carried).trans before
    case seeks =>
      intro w _ chip index before
      exact (congrArg List.length (alike_sought chip _ w index).scratch).trans before
    case advances => exact fun w _ chip count before => before
    case overwrites =>
      exact fun w _ chip bytes fits before => (Steady.overwrite chip w fits).scratch.trans before
    case reports => exact fun chip fault before => before
  exact Session.perform_endsIn (keeps.mono fun _ _ same _ => same)

theorem Reachable.length_scratch (reachable : Reachable session) :
    session.host.scratch.length = scratchSize := by
  induction reachable with
  | start timing => exact List.length_replicate
  | perform before finished ih =>
    exact ((perform_length_scratch _ before.roomy).of_ok finished).trans ih
  | adjust before room ih => exact (congrArg List.length (scratch_adjust _ _)).trans ih

/-- A step that stores nothing in a window that shows scratch memory at the time. Free counts are
set from outside only where what windows hold still has room. -/
def SparesScratch (session : Session Chip) : Step Change → Prop
  | .perform operation => ∀ w ∈ operation.stores, (session.host.window w).mount ≠ .scratch
  | .adjust (.setFree traffic free) => free.toNat + session.host.held traffic < UInt16.size
  | .adjust _ => True

instance (session : Session Chip) (step : Step Change) : Decidable (SparesScratch session step) :=
  match step with
  | .perform operation => inferInstanceAs
      (Decidable (∀ w ∈ operation.stores, (session.host.window w).mount ≠ .scratch))
  | .adjust (.setFree traffic free) => inferInstanceAs
      (Decidable (free.toNat + session.host.held traffic < UInt16.size))
  | .adjust (.receive _) | .adjust (.setReceived _) | .adjust (.setInterrupt _)
  | .adjust (.setInterrupt2 _) | .adjust (.setInterruptEnabled _) | .adjust (.setClock _)
  | .adjust (.setStalled _) | .adjust (.setFailing _) => .isTrue trivial

theorem scratch_after {timing : Timing} {steps : List (Step Change)} {taken : List (Taken Chip)}
    (reachable : Reachable session) (same : session.status.timing = timing)
    (ran : session.run rounds steps = .ok taken)
    (spared : Session.Along (fun session step _ => SparesScratch session step) session steps
      taken) :
    Reachable (session.after taken) ∧ (session.after taken).status.timing = timing ∧
      (session.after taken).host.scratch = session.host.scratch := by
  let kept (now : Session Chip) : Prop :=
    Reachable now ∧ now.status.timing = timing ∧ now.host.scratch = session.host.scratch
  have along := (Session.run_takes ran).and spared
  have ended : kept (session.after taken) := by
    refine along.keeps (fun before step taken ⟨took, spares⟩ now => ?_) ⟨reachable, same, rfl⟩
    obtain ⟨reached, timed, scratch⟩ := now
    cases step with
    | perform operation =>
      have room := reached.roomy
      have framed := (perform_frame operation rounds room).of_ok took
      have stored := (perform_scratch room spares).of_ok took
      exact ⟨reached.perform took, framed.2.timing.trans timed, stored.trans scratch⟩
    | adjust change =>
      cases took
      refine ⟨reached.adjust fun traffic free set => ?_, timed, ?_⟩
      · subst set
        exact spares
      · exact (scratch_adjust change before.host).trans scratch
  exact ended

theorem perform_mountScratch (rounds : Nat) (session : Session Chip) (w : Window) :
    EndsIn (session.status.timing.Allows rounds) (session.perform rounds (.mountScratch w))
      fun taken => taken.answer = .count (.ofNat session.host.scratch.length) ∧
        (taken.session.host.window w).mount = .scratch ∧
        taken.session.host.scratch = session.host.scratch ∧
        taken.session.status = session.status := by
  refine Session.perform_endsIn ?_
  rw [Operation.perform, Driver.ensures_map, Driver.mountScratch, Driver.issue, Driver.ensures_bind,
    Driver.ensures_get, Driver.ensures_lift]
  refine ensures_carried ?_
  have carries : (session.host.placed ⟨w, .scratchPool, true, 0⟩).carryOut w
      (Move.word ⟨w, .scratchPool, true, 0⟩) =
        .ok (session.host.scratch.length, session.host.mount w .scratch) :=
    carryOut_forMove session.host w 0 .scratchPool true
  change EndsIn _ ((session.host.placed ⟨w, .scratchPool, true, 0⟩).carryOut w
    (Move.word ⟨w, .scratchPool, true, 0⟩)) _
  rw [carries]
  intro last ended log
  refine ⟨rfl, ?_, ended.scratch, rfl⟩
  rw [ended.window]
  change (((session.host.mount w .scratch).restart w _).window w).mount = _
  rw [mount_restart, window_mount_self]

theorem scratch_writeAt {w : Window} {index : UInt16} {bytes : Bytes} {taken : Taken Chip}
    (mounted : (session.host.window w).mount = .scratch)
    (accessed : Accessed session w (.writeAt w index bytes) taken) :
    taken.session.host.scratch = Memory.write session.host.scratch index.toNat bytes := by
  have still : (taken.session.host.window w).mount = .scratch := by
    rw [accessed.ended]
    change ((touched (touched session w (.seek index)) w (.write bytes)).host.window w).mount = _
    rw [mount_touched, if_pos rfl, Mount.holding_eq_scratch, mount_touched, if_pos rfl,
      Mount.holding_eq_scratch]
    exact mounted
  have before : session.host.visible w = session.host.scratch := by rw [visible, mounted]
  have after : taken.session.host.visible w = taken.session.host.scratch := by rw [visible, still]
  have found : taken.session.host.visible w =
      Memory.write (session.host.visible w) index.toNat bytes :=
    congrArg View.bytes accessed.view_self
  rw [← after, found, before]

/-- What is written to scratch memory is found again after any steps that spare it, by way of a
mount on any window. -/
theorem scratch_persists (rounds : Nat) {session : Session Chip} (reachable : Reachable session)
    {w : Window} (mounted : (session.host.window w).mount = .scratch) {index : UInt16}
    {bytes : Bytes} (fits : index.toNat + bytes.length ≤ scratchSize) {first : Taken Chip}
    (written : session.perform rounds (.writeAt w index bytes) = .ok first)
    {steps : List (Step Change)} {taken : List (Taken Chip)}
    (ran : first.session.run rounds steps = .ok taken)
    (spared : Session.Along (fun session step _ => SparesScratch session step) first.session steps
      taken) (v : Window) :
    (∀ halt, (first.session.after taken).run rounds
        [.perform (.mountScratch v), .perform (.readAt v index bytes.length)] = .error halt →
      session.status.timing.Allows rounds halt) ∧
    ∀ found, (first.session.after taken).run rounds
        [.perform (.mountScratch v), .perform (.readAt v index bytes.length)] = .ok found →
      found.map (·.answer) = [.count 400, .bytes bytes] := by
  have accessed : Accessed session w (.writeAt w index bytes) first :=
    EndsIn.of_ok (perform_access session rfl) written
  obtain ⟨reached, timed, kept⟩ :=
    scratch_after (reachable.perform written) accessed.timing ran spared
  -- What is stored from the write on is still there when the mount begins.
  have stored := kept.trans (scratch_writeAt mounted accessed)
  have ends : EndsIn (session.status.timing.Allows rounds) ((first.session.after taken).run rounds
      [.perform (.mountScratch v), .perform (.readAt v index bytes.length)]) fun found =>
        found.map (·.answer) = [.count 400, .bytes bytes] := by
    have mounting := perform_mountScratch rounds (first.session.after taken) v
    rw [timed] at mounting
    simp only [Session.run, Session.take, endsIn_bind, endsIn_pure]
    refine EndsIn.mono mounting ?_
    rintro mount ⟨counted, shown, same, status⟩
    have reading : EndsIn (Overruns mount.session rounds _) _
        (Accessed mount.session v (.readAt v index bytes.length)) := perform_access _ rfl
    have timing : mount.session.status.timing = session.status.timing := by rw [status, timed]
    refine EndsIn.mono (reading.allow fun halt overruns => timing ▸ overruns.1)
      fun read answered => ?_
    have visible : mount.session.host.visible v =
        Memory.write session.host.scratch index.toNat bytes := by
      rw [Chip.visible, shown, ← stored, ← same]
    have answer : read.answer =
        .bytes (Memory.read (mount.session.host.visible v) index.toNat bytes.length) :=
      answered.answer
    rw [visible, Memory.read_write (by rw [reachable.length_scratch]; exact fits)] at answer
    have size : (first.session.after taken).host.scratch.length = 400 := reached.length_scratch
    simp [counted, answer, size]
  exact ⟨fun halt halted => ends.of_error halted, fun found finished => ends.of_ok finished⟩

/-- Scratch memory is unmounted and mounted elsewhere while completions are held back; buffers come
and go, one of them filled from scratch memory, and the windows are set up again. -/
def remountingSteps : List (Step Change) :=
  [.perform (.unmountScratch .scratch), .adjust (.setStalled true),
    .perform (.mountScratch .spare), .adjust (.setStalled false),
    .perform (.allocate .management 4), .perform (.copy .spare .mgmtTx 4),
    .perform (.writeAt .mgmtTx 1 [9]), .perform (.send .management 4), .adjust (.setFailing true),
    .perform (.allocate .data 8), .adjust (.receive [5, 6]), .perform (.mountRx .dataRx),
    .perform .setUp, .perform (.mountRx .spare)]

theorem scratch_persists_remountingSteps :
    ∃ first taken found,
      readied.perform 4 (.writeAt .scratch 397 [1, 2, 3]) = .ok first ∧
      first.session.run 4 remountingSteps = .ok taken ∧
      (first.session.after taken).host.sent = [(.mgmtTx, [0, 9, 0, 0])] ∧
      (first.session.after taken).host.faults =
        [.moveTimeout .spare, .allocationFailed .dataTx 8 2048, .emptyRxMount .spare] ∧
      (first.session.after taken).run 4
        [.perform (.mountScratch .mgmtRx), .perform (.readAt .mgmtRx 397 3)] = .ok found ∧
      found.map (·.answer) = [.count 400, .bytes [1, 2, 3]] := by
  obtain ⟨first, written, rest⟩ : ∃ first,
      readied.perform 4 (.writeAt .scratch 397 [1, 2, 3]) = .ok first ∧
        EndsIn (fun _ => False) (first.session.run 4 remountingSteps) fun taken =>
          Session.Along (fun session step _ => SparesScratch session step) first.session
            remountingSteps taken ∧
          ((first.session.after taken).host.sent = [(.mgmtTx, [0, 9, 0, 0])] ∧
            (first.session.after taken).host.faults =
              [.moveTimeout .spare, .allocationFailed .dataTx 8 2048, .emptyRxMount .spare]) ∧
          EndsIn (fun _ => False) ((first.session.after taken).run 4
            [.perform (.mountScratch .mgmtRx), .perform (.readAt .mgmtRx 397 3)]) fun _ => True :=
    exists_ok_of_endsIn (by decide +kernel)
  obtain ⟨taken, ran, spared, ⟨sent, faults⟩, last⟩ := exists_ok_of_endsIn rest
  obtain ⟨found, finished, -⟩ := exists_ok_of_endsIn last
  have persists := (scratch_persists 4 reachable_readied (by decide +kernel) (by decide) written ran
    spared .mgmtRx).2
  exact ⟨first, taken, found, written, ran, sent, faults, finished, persists found finished⟩

end Chip

end RadioWindows
