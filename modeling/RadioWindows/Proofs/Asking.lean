import RadioWindows.Proofs.Asked
import RadioWindows.Proofs.Composition

/-! Requests that a program can make at all, whatever it is told. What looks and these requests keep
of a host holds at every request of a run, those inside waits among them, however the run ends. -/

namespace RadioWindows

variable {σ χ α β : Type}

/-- Every request outside waits is permitted, whatever the program is told. -/
def Program.Asks (permitted : Request → Prop) : Program α → Prop
  | done _ => True
  | ask request next => permitted request ∧ ∀ reply, (next reply).Asks permitted
  | note _ next => next.Asks permitted
  | await _ _ _ next => ∀ held, (next held).Asks permitted

namespace Program

variable {permitted : Request → Prop}

theorem asks_bind {program : Program α} {next : α → Program β} (first : program.Asks permitted)
    (rest : ∀ value, (next value).Asks permitted) : (program >>= next).Asks permitted := by
  change (program.bind next).Asks permitted
  induction program with
  | done value => exact rest value
  | ask request others ih => exact ⟨first.1, fun reply => ih reply (first.2 reply)⟩
  | note record others ih => exact ih first
  | await timeout interval condition others ih => exact fun held => ih held (first held)

theorem asks_tell {request : Request} (asked : permitted request) :
    (tell request).Asks permitted := ⟨asked, fun _ => trivial⟩

theorem asks_raiseIf (reports : ∀ fault, permitted (.report fault)) (condition : Bool)
    (fault : Fault) : (raiseIf condition fault).Asks permitted := by
  cases condition
  · exact trivial
  · exact asks_tell (reports fault)

theorem always_of_asks [Host σ] {rounds : Nat} {program : Program α}
    (asks : program.Asks permitted) (host : σ) :
    program.Always (fun request _ => permitted request) rounds host := by
  induction program generalizing host with
  | done value => trivial
  | ask request next ih =>
    exact ⟨asks.1, endsIn_true_iff.mpr fun answered _ => ih _ (asks.2 answered.1) answered.2⟩
  | note record next ih => exact ih asks host
  | await timeout interval condition next ih =>
    exact endsIn_true_iff.mpr fun held _ => ih _ (asks held.1) held.2

end Program

theorem Session.always_of_asks [Host σ] [Adjustable σ χ] {rounds : Nat}
    {permitted : Request → Prop}
    (permits : ∀ operation : Operation,
      Driver.Meets (fun _ program => program.Asks permitted) operation.perform)
    (steps : List (Step χ)) (session : Session σ) :
    Always (fun request _ => permitted request) rounds steps session := by
  induction steps generalizing session with
  | nil => trivial
  | cons step steps ih =>
    cases step with
    | adjust change => exact ih _
    | perform operation =>
      exact ⟨Program.always_of_asks (permits operation session.status) session.host,
        endsIn_true_iff.mpr fun taken _ => ih taken.session⟩

section Kept

variable [Host σ] {rounds : Nat} {kept : σ → Prop} {permitted : Request → Prop}

theorem forall_mem_onward {result : Except Halt α} {rest : α → List β} {property : β → Prop} :
    (∀ made ∈ onward result rest, property made) ↔
      EndsIn (fun _ => True) result fun value => ∀ made ∈ rest value, property made := by
  cases result with
  | ok value => rfl
  | error halt => exact iff_of_true nofun trivial

theorem forall_mem_asking {request : Request} {host : σ}
    {rest : request.Reply × σ → List (Request × σ)}
    (answers : EndsIn (fun _ => True) (Host.answer request host) fun answered => kept answered.2)
    (before : kept host)
    (others : ∀ answered, kept answered.2 → ∀ made ∈ rest answered, kept made.2) :
    ∀ made ∈ asking request host rest, kept made.2 :=
  List.forall_mem_cons.mpr ⟨before, forall_mem_onward.mpr (answers.mono others)⟩

section Looks

variable (looks : ∀ request host, request.IsLook → kept host →
  EndsIn (fun _ => True) (Host.answer request host) fun answered => kept answered.2)
include looks

theorem Condition.asked_keeps (condition : Condition) {host : σ} (before : kept host) :
    ∀ made ∈ condition.asked host, kept made.2 := by
  induction condition generalizing host with
  | settled holds => exact nofun
  | read8 register next ih =>
    exact forall_mem_asking (looks _ host trivial before) before fun answered => ih answered.1
  | read16 register next ih =>
    exact forall_mem_asking (looks _ host trivial before) before fun answered => ih answered.1

theorem askedFrom_keeps {start timeout : UInt64} {interval : UInt32} {condition : Condition}
    {host : σ} (before : kept host) :
    ∀ made ∈ askedFrom start timeout interval condition rounds host, kept made.2 := by
  induction rounds generalizing host with
  | zero => exact List.forall_mem_nil _
  | succ rounds ih =>
    have looked := condition.check_keeps looks before
    rw [askedFrom]
    refine List.forall_mem_append.mpr ⟨condition.asked_keeps looks before, ?_⟩
    refine forall_mem_onward.mpr (looked.mono ?_)
    rintro ⟨holds, host⟩ before
    cases holds with
    | true => exact List.forall_mem_nil _
    | false =>
      refine forall_mem_asking (looks _ host trivial before) before fun timed before => ?_
      split
      · exact List.forall_mem_nil _
      · exact forall_mem_asking (looks _ _ trivial before) before fun waited => ih

theorem polled_keeps {timeout : UInt64} {interval : UInt32} {condition : Condition} {host : σ}
    (before : kept host) : ∀ made ∈ polled rounds timeout interval condition host, kept made.2 :=
  forall_mem_asking (looks _ host trivial before) before fun _ => askedFrom_keeps looks

variable (asks : ∀ request host, permitted request → kept host →
  EndsIn (fun _ => True) (Host.answer request host) fun answered => kept answered.2)
include asks

/-- What permitted requests keep holds at every request of a program that makes no other. -/
theorem Program.asked_keeps {program : Program α} (made : program.Asks permitted) {host : σ}
    (before : kept host) : ∀ made ∈ program.asked rounds host, kept made.2 := by
  induction program generalizing host with
  | done value => exact nofun
  | ask request next ih =>
    exact forall_mem_asking (asks request host made.1 before) before fun answered =>
      ih answered.1 (made.2 answered.1)
  | note record next ih => exact ih made before
  | await timeout interval condition next ih =>
    refine List.forall_mem_append.mpr ⟨polled_keeps looks before, ?_⟩
    have waits : EndsIn (fun _ => True) (poll rounds timeout interval condition host) _ :=
      poll_keeps trivial looks before
    exact forall_mem_onward.mpr (waits.mono fun held => ih held.1 (made held.1))

variable [Adjustable σ χ] {steps : List (Step χ)}
  (permits : ∀ operation : Operation,
    Driver.Meets (fun _ program => program.Asks permitted) operation.perform)
  (adjusts : ∀ change, .adjust change ∈ steps → ∀ host, kept host →
    kept (Adjustable.adjust change host))
include permits adjusts

theorem Session.asked_keeps {session : Session σ} (before : kept session.host) :
    ∀ made ∈ session.asked rounds steps, kept made.2 := by
  induction steps generalizing session with
  | nil => exact nofun
  | cons step steps ih =>
    have later (after : Session σ) (now : kept after.host) :=
      ih (fun change member => adjusts change (List.mem_cons_of_mem _ member)) now
    cases step with
    | adjust change => exact later _ (adjusts change List.mem_cons_self session.host before)
    | perform operation =>
      have asked := permits operation session.status
      have ends : EndsIn (fun _ => True) (session.perform rounds operation)
          fun taken => kept taken.session.host :=
        perform_endsIn ((Program.run_keeps trivial looks asks (Program.always_of_asks asked _)
          before).mono fun _ _ after _ => after)
      refine List.forall_mem_append.mpr ⟨Program.asked_keeps looks asks asked before, ?_⟩
      exact forall_mem_onward.mpr (ends.mono fun taken => later taken.session)

theorem Session.taken_keeps {session : Session σ} (before : kept session.host) :
    EndsIn (fun _ => True) (session.run rounds steps) fun taken =>
      ∀ one ∈ taken, kept one.session.host :=
  run_keeps kept (fun request _ => permitted request) trivial looks asks adjusts
    (always_of_asks permits steps session) before

end Looks

end Kept

end RadioWindows
