import RadioWindows.Proofs.Chip.Accessing
import RadioWindows.Proofs.Chip.Allocating
import RadioWindows.Proofs.Chip.Settling
import RadioWindows.Proofs.Transmission

/-! Allocation on the chip, to the byte. What the driver is told of the free bytes is what the chip
has, so it refuses exactly what the chip would not grant, but for an empty buffer and a chip that
fails. Then the chip has mounted an empty buffer or nothing at all, and the release that follows
gives back whatever the window held before. -/

namespace RadioWindows.Chip

/-- The window holds a fresh buffer of so many bytes, taken from its pool. Its end is where setting
an index flags it. -/
structure Buffered (traffic : Traffic) (size : UInt16) (rounds : Nat)
    (before after : Session Chip) : Prop where
  mount : (after.host.window traffic.txWindow).mount =
    .segment traffic (List.replicate size.toNat 0)
  cursor : (after.host.window traffic.txWindow).cursor = 0
  free : (after.host.free traffic).toNat + size.toNat = (before.host.free traffic).toNat
  bounds : ∀ index,
    after.perform rounds (.setIndex traffic.txWindow index) ≠ .error .clockOverflow →
      ∃ next, after.perform rounds (.setIndex traffic.txWindow index) = .ok next ∧
        (next.session.status.outOfBounds.contains traffic.txWindow = true ↔ size < index)

/-- What an allocation comes to, by what is free and whether the chip fails. -/
structure Portions (traffic : Traffic) (needed : UInt16) (rounds : Nat) (before : Session Chip)
    (answer : Answer) (after : Session Chip) : Prop where
  insufficient : answer = .refused
      (.insufficientPoolMemory (before.host.free traffic) needed) ↔
    before.host.free traffic < needed
  unchanged : before.host.free traffic < needed → after = before
  granted : answer = .granted ↔
    1 ≤ needed ∧ needed ≤ before.host.free traffic ∧ before.host.failing = false
  buffered : answer = .granted → Buffered traffic needed rounds before after
  failed : needed ≤ before.host.free traffic → needed = 0 ∨ before.host.failing = true →
    answer = .refused (.allocationFailed traffic.txWindow) ∧
      (after.host.window traffic.txWindow).mount = .nothing
  /-- What the window held before is given back. -/
  returned : needed ≤ before.host.free traffic → 1 ≤ needed → before.host.failing = true →
    ∀ bytes, (before.host.window traffic.txWindow).mount = .segment traffic bytes →
      (after.host.free traffic).toNat = (before.host.free traffic).toNat + bytes.length

section Portions

variable {traffic : Traffic} {needed : UInt16} {rounds : Nat} {before after : Session Chip}

theorem Portions.of_few (few : before.host.free traffic < needed) :
    Portions traffic needed rounds before
      (.refused (.insufficientPoolMemory (before.host.free traffic) needed)) before where
  insufficient := iff_of_true rfl few
  unchanged _ := rfl
  granted := iff_of_false nofun fun fits => UInt16.not_le.mpr few fits.2.1
  buffered := nofun
  failed enough := absurd enough (UInt16.not_le.mpr few)
  returned enough := absurd enough (UInt16.not_le.mpr few)

theorem Portions.of_buffered (some : 1 ≤ needed) (enough : needed ≤ before.host.free traffic)
    (steady : before.host.failing = false)
    (buffered : Buffered traffic needed rounds before after) :
    Portions traffic needed rounds before .granted after where
  insufficient := iff_of_false nofun (UInt16.not_lt.mpr enough)
  unchanged few := absurd few (UInt16.not_lt.mpr enough)
  granted := iff_of_true rfl ⟨some, enough, steady⟩
  buffered _ := buffered
  failed _ refused := by
    rcases refused with rfl | fails
    · exact absurd some (by decide)
    · exact absurd (steady.symm.trans fails) (by decide)
  returned _ _ fails := absurd (steady.symm.trans fails) (by decide)

theorem Portions.of_failed (enough : needed ≤ before.host.free traffic)
    (refused : needed = 0 ∨ before.host.failing = true)
    (mount : (after.host.window traffic.txWindow).mount = .nothing)
    (returned : before.host.failing = true → (after.host.free traffic).toNat =
      (before.host.free traffic).toNat +
        (before.host.window traffic.txWindow).mount.share traffic) :
    Portions traffic needed rounds before (.refused (.allocationFailed traffic.txWindow))
      after where
  insufficient := iff_of_false nofun (UInt16.not_lt.mpr enough)
  unchanged few := absurd few (UInt16.not_lt.mpr enough)
  granted := iff_of_false nofun fun fits => by
    rcases refused with rfl | fails
    · exact absurd fits.1 (by decide)
    · exact absurd (fits.2.2.symm.trans fails) (by decide)
  buffered := nofun
  failed _ _ := ⟨rfl, mount⟩
  returned _ _ fails bytes held := by
    rw [returned fails, held, Mount.share_segment, if_pos rfl]

end Portions

section Moves

variable {timing : Timing} {rounds : Nat} {allowed : Halt → Prop} {chip : Chip}

theorem free_settled (chip : Chip) (timing : Timing) (move : Move) (out : Nat × Chip)
    (traffic : Traffic) : (chip.settled timing move out).free traffic = out.2.free traffic := by
  rw [(chip.alike_settled timing move out).free, restart, free_modifyWindow]

theorem ensures_mounting (traffic : Traffic) {size : UInt16}
    (whole : size &&& ControlWord.sizeMask = size) (moving : timing.pollInterval ≠ 0)
    (enough : timing.enoughRounds ≤ rounds) (late : allowed .clockOverflow) :
    (Move.issue timing ⟨traffic.txWindow, traffic.pool, true, size⟩).Ensures allowed rounds chip
      fun count after => count = .ofNat (chip.allocate traffic.txWindow traffic size).1 ∧
        after = chip.settled timing ⟨traffic.txWindow, traffic.pool, true, size⟩
          (chip.allocate traffic.txWindow traffic size) := by
  have carried := carryOut_mounting chip traffic.txWindow traffic size
  rw [whole] at carried
  refine (issue_of_ok carried (Timing.patient_of_enough moving enough fun _ => late)).mono ?_
  exact fun _ _ ended => ⟨ended.1, ended.2.1⟩

theorem ensures_mounting_failing (traffic : Traffic) {size : UInt16}
    (whole : size &&& ControlWord.sizeMask = size) (moving : timing.pollInterval ≠ 0)
    (enough : timing.enoughRounds ≤ rounds) (late : allowed .clockOverflow)
    (fails : chip.failing = true) :
    (Move.issue timing ⟨traffic.txWindow, traffic.pool, true, size⟩).Ensures allowed rounds chip
      fun count after => count = 0 ∧
        (after.window traffic.txWindow).mount = (chip.window traffic.txWindow).mount ∧
        ∀ pool, after.free pool = chip.free pool := by
  have none : chip.allocate traffic.txWindow traffic size = (0, chip) := by
    rw [allocate, if_neg fun both => both.2 fails]
  refine (ensures_mounting traffic whole moving enough late).mono ?_
  rintro count after ⟨counted, rfl⟩
  have window := window_settled_self chip timing
    ⟨traffic.txWindow, traffic.pool, true, size⟩ (0, chip)
  rw [target_pool] at window
  rw [none] at counted ⊢
  exact ⟨counted, by rw [window], fun pool => free_settled chip timing _ _ pool⟩

theorem ensures_mounting_steady (traffic : Traffic) {size : UInt16}
    (whole : size &&& ControlWord.sizeMask = size) (moving : timing.pollInterval ≠ 0)
    (enough : timing.enoughRounds ≤ rounds) (late : allowed .clockOverflow)
    (steady : chip.failing = false) (fits : size ≤ chip.free traffic) :
    (Move.issue timing ⟨traffic.txWindow, traffic.pool, true, size⟩).Ensures allowed rounds chip
      fun count after => count = size ∧
        (after.window traffic.txWindow).mount =
          .segment traffic (List.replicate size.toNat 0) ∧
        (after.window traffic.txWindow).cursor = 0 ∧
        ∀ pool, after.free pool =
          if pool = traffic then chip.free traffic - size else chip.free pool := by
  have granted : chip.allocate traffic.txWindow traffic size = (size.toNat,
      (chip.mount traffic.txWindow (.segment traffic (List.replicate size.toNat 0))).setFree
        traffic (chip.free traffic - size)) := by
    rw [allocate, if_pos ⟨fits, by simp [steady]⟩]
  refine (ensures_mounting traffic whole moving enough late).mono ?_
  rintro count after ⟨counted, rfl⟩
  have window := window_settled_self chip timing ⟨traffic.txWindow, traffic.pool, true, size⟩
    (chip.allocate traffic.txWindow traffic size)
  rw [target_pool] at window
  refine ⟨?_, ?_, by rw [window], fun pool => ?_⟩
  · rw [counted, granted, UInt16.ofNat_toNat]
  · rw [window, granted, window_setFree, window_mount_self]
  · rw [free_settled, granted, free_setFree, free_mount]

theorem ensures_releasing (traffic : Traffic) (moving : timing.pollInterval ≠ 0)
    (enough : timing.enoughRounds ≤ rounds) (late : allowed .clockOverflow)
    (full : ∀ pool, chip.overfull? traffic.txWindow = some pool →
      allowed (.freeCountOverflow pool)) :
    (Move.issue timing ⟨traffic.txWindow, traffic.pool, false, 0⟩).Ensures allowed rounds chip
      fun _ after => (after.window traffic.txWindow).mount = .nothing ∧
        (after.free traffic).toNat = (chip.free traffic).toNat +
          (chip.window traffic.txWindow).mount.share traffic := by
  refine ensures_issue ?_
  rw [carryOut_releasing, endsIn_map]
  have ends := release_overfull chip traffic.txWindow
  cases released : chip.release traffic.txWindow with
  | error halt =>
    obtain ⟨pool, overfull, rfl⟩ := ends.of_error released
    exact full pool overfull
  | ok after =>
    refine ⟨Timing.patient_of_enough moving enough fun _ => late, fun _ => ⟨?_, ?_⟩⟩
    · have settled := window_settled_self chip timing
        ⟨traffic.txWindow, traffic.pool, false, 0⟩ (0, after)
      rw [target_pool] at settled
      rw [settled, window_release released, window_mount_self]
    · rw [free_settled]
      exact (release_eq released).2 traffic

end Moves

section Allocate

variable {traffic : Traffic} {needed : UInt16} {rounds : Nat} {session : Session Chip}

/-- What may cut an allocation short: the end of the clock, or a free count that has no room for
what the window gives back. -/
def Cuts (session : Session Chip) (w : Window) (halt : Halt) : Prop :=
  halt = .clockOverflow ∨
    ∃ pool, session.host.overfull? w = some pool ∧ halt = .freeCountOverflow pool

theorem perform_setIndex_flags (moving : session.status.timing.pollInterval ≠ 0)
    (enough : session.status.timing.enoughRounds ≤ rounds) (w : Window) (index : UInt16) :
    EndsIn (· = .clockOverflow) (session.perform rounds (.setIndex w index)) fun next =>
      next.session.status.outOfBounds.contains w =
        decide ((session.host.visible w).length < index.toNat) := by
  have flags : EndsIn (session.status.timing.Allows rounds)
      (session.perform rounds (.setIndex w index)) fun next =>
        next.session.status.outOfBounds.contains w =
          decide ((session.host.visible w).length < index.toNat) := by
    refine Session.perform_endsIn ?_
    rw [Operation.perform, Driver.ensures_bind]
    refine (ensures_setIndex index).mono ?_
    rintro _ _ rfl log
    exact contains_indexed session w index
  exact flags.allow fun _ allows => allows.eq_clockOverflow moving enough

theorem buffered_of_mounted {after : Session Chip}
    (moving : session.status.timing.pollInterval ≠ 0)
    (enough : session.status.timing.enoughRounds ≤ rounds)
    (fits : needed ≤ session.host.free traffic)
    (timing : after.status.timing = session.status.timing)
    (mount : (after.host.window traffic.txWindow).mount =
      .segment traffic (List.replicate needed.toNat 0))
    (cursor : (after.host.window traffic.txWindow).cursor = 0)
    (free : after.host.free traffic = session.host.free traffic - needed) :
    Buffered traffic needed rounds session after := by
  have visible : (after.host.visible traffic.txWindow).length = needed.toNat := by
    rw [Chip.visible, mount, List.length_replicate]
  refine ⟨mount, cursor, ?_, fun index inTime => ?_⟩
  · rw [free, UInt16.toNat_sub_of_le _ _ fits]
    exact Nat.sub_add_cancel (UInt16.le_iff_toNat_le.mp fits)
  · have flags := perform_setIndex_flags (timing ▸ moving) (timing ▸ enough) traffic.txWindow index
    obtain ⟨next, finished, flagged⟩ := flags.exists_ok fun halt halted overflow =>
      inTime (overflow ▸ halted)
    refine ⟨next, finished, ?_⟩
    rw [flagged, visible, decide_eq_true_eq]
    exact UInt16.lt_iff_toNat_lt.symm

theorem overfull?_congr {chip other : Chip} {w : Window}
    (mount : (other.window w).mount = (chip.window w).mount)
    (free : ∀ pool, other.free pool = chip.free pool) : other.overfull? w = chip.overfull? w := by
  rw [overfull?, overfull?, mount]
  simp only [free]

theorem ensures_givingUp {host : Chip} (moving : session.status.timing.pollInterval ≠ 0)
    (enough : session.status.timing.enoughRounds ≤ rounds)
    (le : needed ≤ session.host.free traffic) (refused : needed = 0 ∨ session.host.failing = true)
    (free : ∀ pool, host.free pool = session.host.free pool)
    (mount : (host.window traffic.txWindow).mount = if session.host.failing then
      (session.host.window traffic.txWindow).mount else .segment traffic []) (fault : Fault) :
    (do
      Program.raise fault
      discard (Driver.issue ⟨traffic.txWindow, traffic.pool, false, 0⟩)
      return .error (.allocationFailed traffic.txWindow) : Driver (Except Refusal Unit)).Ensures
        (Cuts session traffic.txWindow) rounds ⟨host, session.status⟩
        fun verdict after =>
          Portions traffic needed rounds session (.ofVerdict verdict) after := by
  have alike := alike_reported host fault
  have full (pool : Traffic) (overfull : (host.reported fault).overfull? traffic.txWindow =
      some pool) : Cuts session traffic.txWindow (.freeCountOverflow pool) := by
    have same : (host.reported fault).overfull? traffic.txWindow =
        host.overfull? traffic.txWindow := rfl
    rw [same] at overfull
    cases fails : session.host.failing with
    | true =>
      rw [fails, if_pos rfl] at mount
      rw [overfull?_congr mount free] at overfull
      exact .inr ⟨pool, overfull, rfl⟩
    | false =>
      rw [fails, if_neg Bool.false_ne_true] at mount
      have fits : (host.free traffic).toNat + ([] : Bytes).length < UInt16.size :=
        (host.free traffic).toNat_lt
      rw [overfull?, mount] at overfull
      dsimp only at overfull
      rw [if_pos fits] at overfull
      cases overfull
  simp only [Driver.ensures_bind, Driver.ensures_lift, Program.ensures_raise, answer_report,
    endsIn_ok, Driver.ensures_discard, Driver.issue, Driver.ensures_get, Driver.ensures_pure]
  refine (ensures_releasing traffic moving enough (.inl rfl) full).mono fun _ last released => ?_
  refine .of_failed le refused released.1 fun fails => ?_
  rw [fails, if_pos rfl] at mount
  rw [released.2, alike.free, alike.window, free, mount]

theorem ensures_portions (moving : session.status.timing.pollInterval ≠ 0)
    (enough : session.status.timing.enoughRounds ≤ rounds)
    (valid : (session.host.free traffic).toNat ≤ 4095) :
    (Driver.allocate traffic needed).Ensures (Cuts session traffic.txWindow) rounds session
      fun verdict after =>
        Portions traffic needed rounds session (.ofVerdict verdict) after := by
  have masked : session.host.free traffic &&& Register.freeCountMask = session.host.free traffic :=
    ControlWord.and_sizeMask_of_lt (Nat.lt_succ_of_le valid)
  rw [Driver.allocate]
  simp only [Driver.ensures_bind, Driver.ensures_lift, Program.read16, Program.ensures_ask,
    answer_free, endsIn_ok, Program.ensures_done, noise_or_and, masked]
  rw [Driver.ensures_ite]
  split
  · next few => exact .of_few few
  · next notFew =>
    have le : needed ≤ session.host.free traffic := UInt16.not_lt.mp notFew
    have whole := (fits_of_le_valid (masked.symm ▸ le)).1
    rw [Driver.ensures_bind, Driver.issue, Driver.ensures_bind, Driver.ensures_get,
      Driver.ensures_lift]
    cases fails : session.host.failing with
    | true =>
      refine (ensures_mounting_failing traffic whole moving enough (.inl rfl) fails).mono ?_
      rintro _ after ⟨rfl, mount, free⟩
      rw [Driver.ensures_ite, if_pos rfl]
      refine ensures_givingUp moving enough le (.inr fails) free ?_ _
      rw [mount, fails, if_pos rfl]
    | false =>
      refine (ensures_mounting_steady traffic whole moving enough (.inl rfl) fails le).mono ?_
      rintro count after ⟨rfl, mount, cursor, free⟩
      rw [Driver.ensures_ite]
      split
      · next none =>
        -- An empty buffer has been mounted, over whatever the window held.
        subst none
        refine ensures_givingUp moving enough le (.inl rfl) (fun pool => ?_) ?_ _
        · rw [free]
          split
          · next same => rw [same, UInt16.sub_zero]
          · rfl
        · rw [mount, fails, if_neg Bool.false_ne_true]
          rfl
      · next some =>
        have one : 1 ≤ count := UInt16.le_iff_toNat_le.mpr (Nat.pos_of_ne_zero fun zero =>
          some (UInt16.toNat_inj.mp zero))
        have freed : after.free traffic = session.host.free traffic - count := by
          rw [free, if_pos rfl]
        have portion (status : Status) (timing : status.timing = session.status.timing) :
            Portions traffic count rounds session .granted ⟨after, status⟩ :=
          .of_buffered one le fails
            (buffered_of_mounted moving enough le timing mount cursor freed)
        cases traffic <;> exact portion _ rfl

/-- Whatever a window holds, an allocation comes to its portion, unless the clock runs out or a
free count has no room for what the window gives back. What has come about on the chip always has
room. -/
theorem allocate_portions (traffic : Traffic) (needed : UInt16) (rounds : Nat)
    (session : Session Chip) (moving : session.status.timing.pollInterval ≠ 0)
    (enough : session.status.timing.enoughRounds ≤ rounds)
    (valid : (session.host.free traffic).toNat ≤ 4095) :
    EndsIn (Cuts session traffic.txWindow) (session.perform rounds (.allocate traffic needed))
      (fun taken => Portions traffic needed rounds session taken.answer taken.session) ∧
    (Reachable session →
      session.perform rounds (.allocate traffic needed) ≠ .error .clockOverflow →
        ∃ taken, session.perform rounds (.allocate traffic needed) = .ok taken ∧
          Portions traffic needed rounds session taken.answer taken.session) := by
  have ends : EndsIn (Cuts session traffic.txWindow)
      (session.perform rounds (.allocate traffic needed))
      fun taken => Portions traffic needed rounds session taken.answer taken.session := by
    refine Session.perform_endsIn ?_
    rw [Operation.perform, Driver.ensures_map]
    exact (ensures_portions moving enough valid).mono fun _ _ portion _ => portion
  refine ⟨ends, fun reachable inTime => ?_⟩
  have framed := perform_frame (.allocate traffic needed) rounds reachable.roomy
  obtain ⟨taken, finished, -⟩ := framed.exists_ok fun halt halted allows =>
    inTime (allows.eq_clockOverflow moving enough ▸ halted)
  exact ⟨taken, finished, ends.of_ok finished⟩

end Allocate

def strained : Session Chip :=
  match readied.perform 4 (.allocate .data 5) with
  | .ok taken => { taken.session with host := adjust (.setFailing true) taken.session.host }
  | .error _ => readied

theorem reachable_strained : Reachable strained := by
  rw [strained]
  split
  · next taken finished =>
    exact (reachable_readied.perform finished).adjust fun _ _ same => by cases same
  · exact reachable_readied

/-- One allocation is granted; one fails and costs the window the five bytes it held; one asks for
too much. -/
theorem allocate_portions_strained :
    (∃ taken, readied.perform 4 (.allocate .data 5) = .ok taken ∧ taken.answer = .granted ∧
      Buffered .data 5 4 readied taken.session) ∧
    (strained.host.window .dataTx).mount = .segment .data (List.replicate 5 0) ∧
    (∃ taken, strained.perform 4 (.allocate .data 7) = .ok taken ∧
      taken.answer = .refused (.allocationFailed .dataTx) ∧
      (taken.session.host.window .dataTx).mount = .nothing ∧
      (taken.session.host.free .data).toNat = (strained.host.free .data).toNat + 5) ∧
    ∃ taken, strained.perform 4 (.allocate .data 4000) = .ok taken ∧
      taken.answer = .refused (.insufficientPoolMemory 2043 4000) ∧ taken.session = strained := by
  have free : strained.host.free .data = 2043 := by decide +kernel
  have held : (strained.host.window .dataTx).mount = .segment .data (List.replicate 5 0) := by
    decide +kernel
  have fails : strained.host.failing = true := by decide +kernel
  have allocates (needed : UInt16) := (allocate_portions .data needed 4 strained (by decide +kernel)
    (by decide +kernel) (by decide +kernel)).2 reachable_strained
  obtain ⟨first, granting, grant⟩ := (allocate_portions .data 5 4 readied (by decide +kernel)
    (by decide +kernel) (by decide +kernel)).2 reachable_readied fun halted =>
      absurd (congrArg Except.isOk halted) (by decide +kernel)
  obtain ⟨second, failing, failure⟩ := allocates 7 fun halted =>
    absurd (congrArg Except.isOk halted) (by decide +kernel)
  obtain ⟨third, refusing, refusal⟩ := allocates 4000 fun halted =>
    absurd (congrArg Except.isOk halted) (by decide +kernel)
  have granted : first.answer = .granted := grant.granted.mpr (by decide +kernel)
  have few : strained.host.free .data < 4000 := by rw [free]; decide
  have plenty : 7 ≤ strained.host.free .data := by rw [free]; decide
  have failed := failure.failed plenty (.inr fails)
  have refused := refusal.insufficient.mpr few
  rw [free] at refused
  have returned := failure.returned plenty (by decide) fails _ held
  rw [List.length_replicate] at returned
  exact ⟨⟨first, granting, granted, grant.buffered granted⟩, held,
    ⟨second, failing, failed.1, failed.2, returned⟩,
    ⟨third, refusing, refused, refusal.unchanged few⟩⟩

end RadioWindows.Chip
