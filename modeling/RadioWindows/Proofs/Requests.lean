import RadioWindows.Proofs.Logic

/-! Requests of a program, whatever it is a program for. `Always` follows one run and looks at the
host each time something is asked. A property of the host that answers keep is kept by every run. -/

namespace RadioWindows

variable {σ α : Type}

/-- A request that a wait can make: a look at a register or at the clock, or a delay. -/
def Request.IsLook : Request → Prop
  | read8 _ | read16 _ | now | delay _ => True
  | _ => False

namespace Program

/-- Every request outside waits is met by a host with the property. -/
def Always [Host σ] (property : Request → σ → Prop) (rounds : Nat) : Program α → σ → Prop
  | done _, _ => True
  | ask request next, host => property request host ∧
      EndsIn (fun _ => True) (Host.answer request host) fun answered =>
        (next answered.1).Always property rounds answered.2
  | note _ next, host => next.Always property rounds host
  | await timeout interval condition next, host =>
      EndsIn (fun _ => True) (poll rounds timeout interval condition host) fun held =>
        (next held.1).Always property rounds held.2

instance decidableAlways [Host σ] (property : Request → σ → Prop)
    [∀ request host, Decidable (property request host)] (rounds : Nat) :
    (program : Program α) → (host : σ) → Decidable (program.Always property rounds host)
  | done _, _ => .isTrue trivial
  | ask request next, host =>
    have := fun answered : request.Reply × σ =>
      decidableAlways property rounds (next answered.1) answered.2
    inferInstanceAs (Decidable (property request host ∧
      EndsIn (fun _ => True) (Host.answer request host) fun answered =>
        (next answered.1).Always property rounds answered.2))
  | note _ next, host => decidableAlways property rounds next host
  | await timeout interval condition next, host =>
    have := fun held : Bool × σ => decidableAlways property rounds (next held.1) held.2
    inferInstanceAs (Decidable (EndsIn (fun _ => True)
      (poll rounds timeout interval condition host) fun held =>
        (next held.1).Always property rounds held.2))

theorem always_of_forall [Host σ] {rounds : Nat} {property : Request → σ → Prop}
    (all : ∀ request host, property request host) (program : Program α) (host : σ) :
    program.Always property rounds host := by
  induction program generalizing host with
  | done value => trivial
  | ask request next ih =>
    exact ⟨all request host, endsIn_true_iff.mpr fun answered _ => ih answered.1 answered.2⟩
  | note record next ih => exact ih host
  | await timeout interval condition next ih =>
    exact endsIn_true_iff.mpr fun held _ => ih held.1 held.2

end Program

section Invariant

variable [Host σ] {allowed : Halt → Prop} {rounds : Nat} {kept : σ → Prop}
  {property : Request → σ → Prop}

theorem Condition.check_keeps (condition : Condition)
    (looks : ∀ request host, request.IsLook → kept host →
      EndsIn allowed (Host.answer request host) fun answered => kept answered.2)
    {host : σ} (before : kept host) :
    EndsIn allowed (condition.check host) fun checked => kept checked.2 := by
  induction condition generalizing host with
  | settled holds => exact before
  | read8 register next ih =>
    simp only [Condition.check, endsIn_bind]
    exact EndsIn.mono (looks (.read8 register) host trivial before) fun answered =>
      ih answered.1
  | read16 register next ih =>
    simp only [Condition.check, endsIn_bind]
    exact EndsIn.mono (looks (.read16 register) host trivial before) fun answered =>
      ih answered.1

theorem pollFrom_keeps {start timeout : UInt64} {interval : UInt32} {condition : Condition}
    (endless : allowed .outOfRounds)
    (looks : ∀ request host, request.IsLook → kept host →
      EndsIn allowed (Host.answer request host) fun answered => kept answered.2)
    {host : σ} (before : kept host) :
    EndsIn allowed (pollFrom start timeout interval condition rounds host)
      fun held => kept held.2 := by
  induction rounds generalizing host with
  | zero => exact endless
  | succ rounds ih =>
    simp only [pollFrom, endsIn_bind]
    refine EndsIn.mono (condition.check_keeps looks before) fun looked afterLook => ?_
    by_cases holds : looked.1 = true
    · simpa [holds] using afterLook
    · simp only [holds, Bool.false_eq_true, if_false, endsIn_bind]
      refine EndsIn.mono (looks .now looked.2 trivial afterLook) fun timed afterTime => ?_
      by_cases late : elapsed start timed.1 > timeout
      · simpa [late] using afterTime
      · simp only [late, if_false, endsIn_bind]
        exact EndsIn.mono (looks (.delay interval) timed.2 trivial afterTime) fun waited => ih

theorem poll_keeps {timeout : UInt64} {interval : UInt32} {condition : Condition}
    (endless : allowed .outOfRounds)
    (looks : ∀ request host, request.IsLook → kept host →
      EndsIn allowed (Host.answer request host) fun answered => kept answered.2)
    {host : σ} (before : kept host) :
    EndsIn allowed (poll rounds timeout interval condition host) fun held => kept held.2 := by
  simp only [poll, endsIn_bind]
  exact EndsIn.mono (looks .now host trivial before) fun timed => pollFrom_keeps endless looks

theorem Program.run_keeps {program : Program α} (endless : allowed .outOfRounds)
    (looks : ∀ request host, request.IsLook → kept host →
      EndsIn allowed (Host.answer request host) fun answered => kept answered.2)
    (asks : ∀ request host, property request host → kept host →
      EndsIn allowed (Host.answer request host) fun answered => kept answered.2)
    {host : σ} (always : program.Always property rounds host) (before : kept host) :
    program.Ensures allowed rounds host fun _ => kept := by
  induction program generalizing host with
  | done value => exact before
  | ask request next ih =>
    have answers := asks request host always.1 before
    rw [Program.ensures_ask]
    cases answered : Host.answer request host with
    | error halt => exact answers.of_error answered
    | ok out => exact ih out.1 (always.2.of_ok answered) (answers.of_ok answered)
  | note record next ih =>
    rw [Program.ensures_note]
    exact ih always before
  | await timeout interval condition next ih =>
    have waits : EndsIn allowed (poll rounds timeout interval condition host)
        fun held => kept held.2 := poll_keeps endless looks before
    rw [Program.ensures_await]
    cases waited : poll rounds timeout interval condition host with
    | error halt => exact waits.of_error waited
    | ok held => exact ih held.1 (always.of_ok waited) (waits.of_ok waited)

end Invariant

end RadioWindows
