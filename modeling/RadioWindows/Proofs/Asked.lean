import RadioWindows.Proofs.Runs

/-! The requests that a run makes, each with the host that it is made to, those inside waits among
them. A run passes over a request only if it is answered, so whatever may not halt the run may not
be the answer to any of its requests. -/

namespace RadioWindows

variable {σ χ α β : Type}

/-- What is asked once a computation has ended; nothing, if it halts. -/
def onward (result : Except Halt α) (rest : α → List β) : List β :=
  match result with
  | .ok value => rest value
  | .error _ => []

section Asked

variable [Host σ]

def asking (request : Request) (host : σ) (rest : request.Reply × σ → List (Request × σ)) :
    List (Request × σ) :=
  (request, host) :: onward (Host.answer request host) rest

def Condition.asked : Condition → σ → List (Request × σ)
  | settled _, _ => []
  | read8 register next, host =>
    asking (.read8 register) host fun answered => (next answered.1).asked answered.2
  | read16 register next, host =>
    asking (.read16 register) host fun answered => (next answered.1).asked answered.2

def askedFrom (start timeout : UInt64) (interval : UInt32) (condition : Condition) :
    Nat → σ → List (Request × σ)
  | 0, _ => []
  | rounds + 1, host =>
    condition.asked host ++ onward (condition.check host) fun looked =>
      if looked.1 then []
      else asking .now looked.2 fun timed =>
        if elapsed start timed.1 > timeout then []
        else asking (.delay interval) timed.2 fun waited =>
          askedFrom start timeout interval condition rounds waited.2

def polled (rounds : Nat) (timeout : UInt64) (interval : UInt32) (condition : Condition)
    (host : σ) : List (Request × σ) :=
  asking .now host fun timed => askedFrom timed.1 timeout interval condition rounds timed.2

def Program.asked (rounds : Nat) : Program α → σ → List (Request × σ)
  | done _, _ => []
  | ask request next, host =>
    asking request host fun answered => (next answered.1).asked rounds answered.2
  | note _ next, host => next.asked rounds host
  | await timeout interval condition next, host =>
    polled rounds timeout interval condition host ++
      onward (poll rounds timeout interval condition host) fun held =>
        (next held.1).asked rounds held.2

def Session.asked [Adjustable σ χ] (rounds : Nat) :
    List (Step χ) → Session σ → List (Request × σ)
  | [], _ => []
  | .perform operation :: steps, session =>
    (operation.perform.run session.status).asked rounds session.host ++
      onward (session.perform rounds operation) fun taken => asked rounds steps taken.session
  | .adjust change :: steps, session =>
    asked rounds steps { session with host := Adjustable.adjust change session.host }

end Asked

section Answered

variable [Host σ] {allowed : Halt → Prop} {rounds : Nat}

def Answered (allowed : Halt → Prop) (asked : List (Request × σ)) : Prop :=
  ∀ made ∈ asked, EndsIn allowed (Host.answer made.1 made.2) fun _ => True

theorem answered_nil : Answered allowed ([] : List (Request × σ)) := nofun

theorem answered_append {first second : List (Request × σ)} :
    Answered allowed (first ++ second) ↔ Answered allowed first ∧ Answered allowed second :=
  List.forall_mem_append

theorem endsIn_onward {result : Except Halt α} {next : α → Except Halt β}
    {rest : α → List (Request × σ)}
    (others : ∀ value, EndsIn allowed (next value) (fun _ => True) ↔
      Answered allowed (rest value)) :
    EndsIn allowed (result >>= next) (fun _ => True) ↔
      EndsIn allowed result (fun _ => True) ∧ Answered allowed (onward result rest) := by
  cases result with
  | error halt => exact ⟨fun ends => ⟨ends, answered_nil⟩, And.left⟩
  | ok value => exact ⟨fun ends => ⟨trivial, (others value).mp ends⟩, fun both =>
      (others value).mpr both.2⟩

theorem endsIn_asking {request : Request} {host : σ} {next : request.Reply × σ → Except Halt β}
    {rest : request.Reply × σ → List (Request × σ)}
    (others : ∀ answered, EndsIn allowed (next answered) (fun _ => True) ↔
      Answered allowed (rest answered)) :
    EndsIn allowed (Host.answer request host >>= next) (fun _ => True) ↔
      Answered allowed (asking request host rest) := by
  rw [endsIn_onward others, asking, Answered, Answered, List.forall_mem_cons]

theorem Condition.answered_iff {condition : Condition} {host : σ} :
    EndsIn allowed (condition.check host) (fun _ => True) ↔
      Answered allowed (condition.asked host) := by
  induction condition generalizing host with
  | settled holds => exact iff_of_true trivial answered_nil
  | read8 register next ih => exact endsIn_asking fun answered => ih answered.1
  | read16 register next ih => exact endsIn_asking fun answered => ih answered.1

theorem answered_askedFrom (endless : allowed .outOfRounds) {start timeout : UInt64}
    {interval : UInt32} {condition : Condition} {host : σ} :
    EndsIn allowed (pollFrom start timeout interval condition rounds host) (fun _ => True) ↔
      Answered allowed (askedFrom start timeout interval condition rounds host) := by
  induction rounds generalizing host with
  | zero => exact iff_of_true endless answered_nil
  | succ rounds ih =>
    rw [pollFrom, askedFrom, answered_append, ← condition.answered_iff]
    refine endsIn_onward ?_
    rintro ⟨holds, host⟩
    cases holds with
    | true => exact iff_of_true trivial answered_nil
    | false =>
      refine endsIn_asking ?_
      rintro ⟨time, host⟩
      dsimp only
      by_cases late : elapsed start time > timeout
      · rw [if_pos late, if_pos late]
        exact iff_of_true trivial answered_nil
      · rw [if_neg late, if_neg late]
        exact endsIn_asking fun waited => ih

theorem answered_polled (endless : allowed .outOfRounds) {timeout : UInt64} {interval : UInt32}
    {condition : Condition} {host : σ} :
    EndsIn allowed (poll rounds timeout interval condition host) (fun _ => True) ↔
      Answered allowed (polled rounds timeout interval condition host) :=
  endsIn_asking fun _ => answered_askedFrom endless

/-- The requests that a program makes account for how it halts, up to waits without end. -/
theorem Program.answered_iff (endless : allowed .outOfRounds) {program : Program α} {host : σ} :
    EndsIn allowed (program.run rounds host) (fun _ => True) ↔
      Answered allowed (program.asked rounds host) := by
  induction program generalizing host with
  | done value => exact iff_of_true trivial answered_nil
  | ask request next ih => exact endsIn_asking fun answered => ih answered.1
  | note record next ih => exact endsIn_bind.trans ih
  | await timeout interval condition next ih =>
    rw [asked, answered_append, ← answered_polled endless]
    exact endsIn_onward fun held => ih held.1

theorem Session.answered_iff [Adjustable σ χ] (endless : allowed .outOfRounds)
    {steps : List (Step χ)} {session : Session σ} :
    EndsIn allowed (session.run rounds steps) (fun _ => True) ↔
      Answered allowed (session.asked rounds steps) := by
  induction steps generalizing session with
  | nil => exact iff_of_true trivial answered_nil
  | cons step steps ih =>
    cases step with
    | perform operation =>
      have performs : EndsIn allowed (session.perform rounds operation) (fun _ => True) ↔
          EndsIn allowed ((operation.perform.run session.status).run rounds session.host)
            fun _ => True := endsIn_bind
      rw [asked, answered_append, ← Program.answered_iff endless, ← performs]
      exact endsIn_onward fun taken => endsIn_bind.trans ih
    | adjust change =>
      change EndsIn _ (run rounds steps _ >>= _) _ ↔ _
      exact endsIn_bind.trans ih

end Answered

end RadioWindows
