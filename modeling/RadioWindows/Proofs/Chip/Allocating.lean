import RadioWindows.Proofs.Chip.Operating

/-! Buffers for outgoing frames: what an allocation comes to. -/

namespace RadioWindows.Chip

theorem noise_or_and (free : UInt16) :
    (freeCountNoise ||| free) &&& Register.freeCountMask = free &&& Register.freeCountMask := by
  have apart : freeCountNoise.toBitVec &&& Register.freeCountMask.toBitVec = 0#16 := by decide
  apply UInt16.toBitVec_inj.mp
  rw [UInt16.toBitVec_and, UInt16.toBitVec_or, BitVec.and_or_distrib_right, apart, BitVec.zero_or,
    UInt16.toBitVec_and]

inductive Allocated (traffic : Traffic) (needed : UInt16) (before : Session Chip) :
    Except Refusal Unit → Session Chip → Prop where
  /-- Refused at a look at the pool. -/
  | insufficient (lacking : before.host.free traffic &&& Register.freeCountMask < needed) :
      Allocated traffic needed before (.error (.insufficientPoolMemory
        (before.host.free traffic &&& Register.freeCountMask) needed)) before
  /-- Refused by the chip. What the window held is released. -/
  | failed (after : Session Chip) (refused : needed = 0 ∨ before.host.failing)
      (mount : (after.host.window traffic.txWindow).mount = .nothing)
      (status : after.status = before.status) :
      Allocated traffic needed before (.error (.allocationFailed traffic.txWindow)) after
  | granted (after : Session Chip) (fits : needed ≤ before.host.free traffic)
      (mount : (after.host.window traffic.txWindow).mount =
        .segment traffic (List.replicate needed.toNat 0))
      (free : after.host.free traffic = before.host.free traffic - needed)
      (sent : after.host.sent = before.host.sent)
      (state : traffic = .data → after.status.dataStates.tx = .mounted) :
      Allocated traffic needed before (.ok ()) after

section Allocate

variable {traffic : Traffic} {needed free : UInt16} {rounds : Nat} {session : Session Chip}

theorem fits_of_le_valid (le : needed ≤ free &&& Register.freeCountMask) :
    needed &&& ControlWord.sizeMask = needed ∧ needed ≤ free := by
  have valid : (free &&& Register.freeCountMask).toNat = free.toNat % 4096 :=
    ControlWord.toNat_and_sizeMask free
  have small := UInt16.le_iff_toNat_le.mp le
  rw [valid] at small
  have below := Nat.mod_lt free.toNat (show 4096 > 0 by decide)
  have within := Nat.mod_le free.toNat 4096
  exact ⟨ControlWord.and_sizeMask_of_lt (by omega), UInt16.le_iff_toNat_le.mpr (by omega)⟩

theorem ensures_allocate (room : session.host.Roomy) :
    (Driver.allocate traffic needed).Ensures (session.status.timing.Allows rounds) rounds session
      (Allocated traffic needed session) := by
  rw [Driver.allocate]
  simp only [Driver.ensures_bind, Driver.ensures_lift, Program.read16, Program.ensures_ask,
    answer_free, endsIn_ok, Program.ensures_done, noise_or_and]
  rw [Driver.ensures_ite]
  split
  · next lacking => exact .insufficient lacking
  · next enough =>
    have le := UInt16.not_lt.mp enough
    obtain ⟨whole, fits⟩ := fits_of_le_valid le
    rw [Driver.ensures_bind, Driver.issue, Driver.ensures_bind, Driver.ensures_get,
      Driver.ensures_lift]
    have granted := ensures_grant session.status.timing rounds session.host traffic.txWindow traffic
      needed
    have moved := ensures_issue_confined session.status.timing rounds
      ⟨traffic.txWindow, traffic.pool, true, needed⟩ room
    rw [whole] at granted
    refine (granted.and moved).mono fun count after established => ?_
    obtain ⟨grant, afterRoom, -⟩ := established
    rw [Driver.ensures_ite]
    split
    · next none =>
      -- The chip grants nothing, or a segment without bytes.
      have refused : needed = 0 ∨ session.host.failing := by
        by_cases fails : session.host.failing = true
        · exact .inr fails
        · rw [if_pos ⟨fits, fails⟩] at grant
          exact .inl (grant.1.symm.trans none)
      simp only [Driver.ensures_bind, Driver.ensures_lift, Program.ensures_raise, answer_report,
        endsIn_ok, Driver.ensures_discard, Driver.issue, Driver.ensures_get, Driver.ensures_pure]
      have reported := alike_reported after (.allocationFailed traffic.txWindow needed
        (session.host.free traffic &&& Register.freeCountMask))
      have releases := ensures_release session.status.timing rounds traffic.txWindow traffic 0
        (Roomy.of_alike afterRoom reported)
      exact releases.mono fun _ last released => .failed _ refused released rfl
    · next some_bytes =>
      by_cases fails : session.host.failing = true
      · rw [if_neg (fun both => both.2 fails)] at grant
        exact absurd grant.1 some_bytes
      · rw [if_pos ⟨fits, fails⟩] at grant
        cases traffic with
        | management => exact .granted _ fits grant.2.1 grant.2.2.1 grant.2.2.2 (by simp)
        | data => exact .granted _ fits grant.2.1 grant.2.2.1 grant.2.2.2 fun _ => rfl

end Allocate

end RadioWindows.Chip
