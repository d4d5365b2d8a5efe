import RadioWindows.Proofs.Chip.Locality

/-! Operations by the accesses that they make. What an operation returns and leaves at its window is
what its accesses return and leave there; it takes the time that its indices past the end take, and
no clock that has room for that ends it. -/

namespace RadioWindows

def Fault.isIndexOutOfBounds : Fault → Bool
  | indexOutOfBounds .. => true
  | _ => false

def Timing.spentOn (timing : Timing) (faults : List Fault) : Nat :=
  faults.countP Fault.isIndexOutOfBounds * overdue timing.indexTimeout timing.pollInterval

theorem Timing.spentOn_append (timing : Timing) (faults more : List Fault) :
    timing.spentOn (faults ++ more) = timing.spentOn faults + timing.spentOn more := by
  rw [spentOn, List.countP_append, Nat.add_mul, spentOn, spentOn]

namespace Chip

section Performing

variable (session : Session Chip) (w : Window)

/-- A halt for lack of rounds, or because the clock has no room for the time to be spent. -/
def Overruns (rounds spent : Nat) (halt : Halt) : Prop :=
  session.status.timing.Allows rounds halt ∧
    (halt = .clockOverflow → UInt64.size ≤ session.host.clock.toNat + spent)

theorem Overruns.mono {session : Session Chip} {rounds spent more : Nat} {halt : Halt}
    (overruns : Overruns session rounds spent halt) (le : spent ≤ more) :
    Overruns session rounds more halt :=
  ⟨overruns.1, fun ends => Nat.le_trans (overruns.2 ends) (Nat.add_le_add_left le _)⟩

theorem not_overruns {session : Session Chip} {rounds spent : Nat} {halt : Halt}
    (moving : session.status.timing.pollInterval ≠ 0)
    (enough : session.status.timing.enoughRounds ≤ rounds)
    (room : session.host.clock.toNat + spent < UInt64.size) :
    ¬Overruns session rounds spent halt := fun overruns =>
  Nat.not_le_of_lt room (overruns.2 (overruns.1.eq_clockOverflow moving enough))

/-- This part of the driver makes the accesses, returns what the last of them returns and takes the
time that the reported indices take. -/
def Makes (rounds : Nat) (accesses : List Access) (driver : Driver Answer) : Prop :=
  ∀ session : Session Chip,
    let reports := Access.reportsOf w accesses (view session w)
    let spent := session.status.timing.spentOn reports
    driver.Ensures (Overruns session rounds spent) rounds session fun answer after =>
      answer = Access.lastAnswer accesses (view session w) ∧
        after = reporting (treated session w accesses) reports ∧
        after.host.clock.toNat = session.host.clock.toNat + spent

variable {w} {rounds : Nat}

theorem clock_touched (access : Access) (inTime : access.past? (view session w) = some true →
      session.host.HasTime session.status.timing.indexTimeout session.status.timing.pollInterval) :
    (touched session w access).host.clock.toNat = session.host.clock.toNat +
      session.status.timing.spentOn (access.reports w (view session w)) := by
  have spent : session.status.timing.spentOn (access.reports w (view session w)) =
      if access.past? (view session w) = some true then
        overdue session.status.timing.indexTimeout session.status.timing.pollInterval else 0 := by
    cases access with
    | seek index =>
      simp only [Access.reports, Access.past?, Option.some.injEq, decide_eq_true_eq]
      split <;> simp [Timing.spentOn, Fault.isIndexOutOfBounds]
    | read _ | write _ =>
      simp only [Access.reports, Access.past?, reduceCtorEq, if_false]
      split <;> simp [Timing.spentOn, Fault.isIndexOutOfBounds]
  rw [spent, touched, lingering, altered_eq]
  by_cases past : access.past? (view session w) = some true
  · rw [if_pos past, if_pos past]
    exact clock_delayed (inTime past)
  · rw [if_neg past, if_neg past]
    rfl

theorem touched_checked {access : Access} (transfers : access.past? (view session w) = none) :
    touched (checked session w) w access =
      reporting (touched session w access) (access.reports w (view session w)) := by
  rw [checked_eq, touched_reporting]
  cases access with
  | seek index => cases transfers
  | read count | write bytes => rfl

theorem makes_nothing : Makes w rounds [] (pure .nothing) :=
  fun session => ⟨rfl, (reporting_nil session).symm, by simp [Access.reportsOf, Timing.spentOn]⟩

theorem makes_transfer {access : Access} {driver : Driver Answer}
    (transfers : ∀ found, access.past? found = none)
    (ends : ∀ (allowed : Halt → Prop) session, driver.Ensures allowed rounds session
      fun answer after => answer = access.answer (view session w) ∧
        after = touched (checked session w) w access) :
    Makes w rounds [access] driver := by
  intro session
  have reports : Access.reportsOf w [access] (view session w) =
      access.reports w (view session w) := List.append_nil _
  dsimp only
  rw [reports]
  refine (ends _ session).mono fun answer after ⟨answered, left⟩ => ⟨answered, ?_⟩
  rw [left, touched_checked session (transfers _)]
  exact ⟨rfl, clock_touched session access fun past => nomatch (transfers _).symm.trans past⟩

theorem makes_read (count : Nat) :
    Makes w rounds [.read count] (.bytes <$> Driver.read w count) := by
  refine makes_transfer (fun _ => rfl) fun allowed session => ?_
  rw [Driver.ensures_map]
  refine (ensures_read count).mono fun bytes after ended => ?_
  obtain ⟨rfl, rfl⟩ := ended
  exact ⟨rfl, (touched_read _ w count).symm⟩

theorem makes_write (bytes : Bytes) :
    Makes w rounds [.write bytes] (do Driver.write w bytes; return .nothing) := by
  refine makes_transfer (fun _ => rfl) fun allowed session => ?_
  rw [Driver.ensures_bind]
  refine (ensures_write bytes).mono fun _ after ended => ?_
  rw [ended, Driver.ensures_pure, touched_write, (alike_checked session w).visible,
    (alike_checked session w).window]
  exact ⟨rfl, rfl⟩

theorem makes_seek (index : UInt16) {rest : List Access} {driver : Driver Answer}
    (makes : Makes w rounds rest driver) :
    Makes w rounds (.seek index :: rest) (do Driver.setIndex w index; driver) := by
  intro session
  let timing := session.status.timing
  let found := view session w
  let left := indexed session w index
  have leaves : left = reporting (touched session w (.seek index))
      ((Access.seek index).reports w found) := indexed_eq session w index
  have finds : view left w = (Access.seek index).next found := by
    rw [leaves, view_reporting, view_touched_self]
  have sameTiming : left.status.timing = timing := timing_indexed session w index
  have total : timing.spentOn (Access.reportsOf w (.seek index :: rest) found) =
      timing.spentOn ((Access.seek index).reports w found) +
        timing.spentOn (Access.reportsOf w rest (view left w)) := by
    rw [finds, ← Timing.spentOn_append]
    rfl
  rw [Driver.ensures_bind]
  refine (setIndex_timely index ?late fun short => ⟨short, nofun⟩).mono
    fun _ after ⟨same, inTime⟩ => ?_
  case late =>
    intro past full
    refine ⟨trivial, fun _ => Nat.le_trans (Nat.le_of_not_lt full) (Nat.add_le_add_left ?_ _)⟩
    have reported : (Access.seek index).reports w found = [.indexOutOfBounds w index] := if_pos past
    have spent : timing.spentOn [.indexOutOfBounds w index] =
        overdue timing.indexTimeout timing.pollInterval := Nat.one_mul _
    rw [total, reported, spent]
    exact Nat.le_add_right _ _
  rw [same]
  have clock : left.host.clock.toNat = session.host.clock.toNat +
      timing.spentOn ((Access.seek index).reports w found) := by
    rw [leaves]
    exact clock_touched session _ fun past =>
      inTime (of_decide_eq_true (Option.some.inj past))
  have rests := makes left
  simp only [sameTiming] at rests
  have allow (halt : Halt) (overruns : Overruns left rounds
      (timing.spentOn (Access.reportsOf w rest (view left w))) halt) :
      Overruns session rounds
        (timing.spentOn (Access.reportsOf w (.seek index :: rest) found)) halt := by
    rw [Overruns, sameTiming, clock, Nat.add_assoc, ← total] at overruns
    exact overruns
  refine EndsIn.mono (EndsIn.allow rests allow) fun out ⟨answered, ended, time⟩ => ⟨?_, ?_, ?_⟩
  · rw [answered, finds, Access.lastAnswer_seek]
  · rw [ended, finds, leaves, treated_reporting, ← reporting_append]
    rfl
  · rw [time, clock, Nat.add_assoc, ← total]

theorem makes_perform {operation : Operation} (accesses : operation.accesses = [w]) :
    Makes w rounds operation.parts operation.perform := by
  cases operation with
  | setIndex v index =>
    cases accesses
    exact makes_seek index makes_nothing
  | read v count =>
    cases accesses
    exact makes_read count
  | readAt v index count =>
    cases accesses
    rw [Operation.perform, Driver.readAt, map_bind]
    exact makes_seek index (makes_read count)
  | write v bytes =>
    cases accesses
    exact makes_write bytes
  | writeAt v index bytes =>
    cases accesses
    rw [Operation.perform, Driver.writeAt, bind_assoc]
    exact makes_seek index (makes_write bytes)
  | _ => cases accesses

structure Accessed (session : Session Chip) (w : Window) (operation : Operation)
    (taken : Taken Chip) : Prop where
  answer : taken.answer = Access.lastAnswer operation.parts (view session w)
  ended : taken.session = reporting (treated session w operation.parts)
    (Access.reportsOf w operation.parts (view session w))
  time : taken.session.host.clock.toNat = session.host.clock.toNat +
    session.status.timing.spentOn (Access.reportsOf w operation.parts (view session w))

theorem perform_access {operation : Operation} (accesses : operation.accesses = [w]) :
    EndsIn (Overruns session rounds
        (session.status.timing.spentOn (Access.reportsOf w operation.parts (view session w))))
      (session.perform rounds operation) (Accessed session w operation) :=
  Session.perform_endsIn ((makes_perform accesses session).mono
    fun _ _ ⟨answered, ended, time⟩ _ => ⟨answered, ended, time⟩)

namespace Accessed

variable {session : Session Chip} {v w : Window} {operation : Operation} {taken : Taken Chip}
  (accessed : Accessed session w operation taken)
include accessed

theorem timing : taken.session.status.timing = session.status.timing := by
  rw [accessed.ended]
  exact timing_treated session w operation.parts

theorem view_self : view taken.session w = Access.leave operation.parts (view session w) := by
  rw [accessed.ended, view_reporting, view_treated_self]

theorem view_of_apart (apart : session.host.Apart v w) : view taken.session v = view session v := by
  rw [accessed.ended, view_reporting, view_treated_of_apart apart]

theorem apart {x : Window} (apart : session.host.Apart v x) : taken.session.host.Apart v x := by
  have left : (reporting (treated session w operation.parts) []).host.Apart v x := by
    rw [reporting_nil]
    exact apart.treated w operation.parts
  rw [accessed.ended]
  exact ⟨left.other, left.unshared⟩

end Accessed

theorem run_access {operation : Operation} (accesses : operation.accesses = [w])
    {steps : List (Step Change)} {spent : Nat} {post : List (Taken Chip) → Prop}
    (rest : ∀ first : Taken Chip, Accessed session w operation first →
      EndsIn (Overruns first.session rounds spent) (first.session.run rounds steps)
        fun others => post (first :: others)) :
    EndsIn (Overruns session rounds (session.status.timing.spentOn
        (Access.reportsOf w operation.parts (view session w)) + spent))
      (session.run rounds (.perform operation :: steps)) post := by
  have first : EndsIn (Overruns session rounds _) (session.take rounds (.perform operation))
    (Accessed session w operation) := perform_access session accesses
  rw [Session.run, endsIn_bind]
  refine EndsIn.mono (first.allow fun halt overruns => overruns.mono (Nat.le_add_right _ spent))
    fun taken accessed => ?_
  rw [endsIn_bind]
  refine EndsIn.allow (rest taken accessed) fun halt overruns => ?_
  rw [Overruns, accessed.timing, accessed.time, Nat.add_assoc] at overruns
  exact overruns

end Performing

end Chip

end RadioWindows
