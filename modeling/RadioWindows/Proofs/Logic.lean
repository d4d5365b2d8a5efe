import RadioWindows.Session

/-! What programs ensure. A run may be cut short, by a wait without end or by a host that gives
up; which halts are put up with is a parameter. Everything else is a rule for each way of putting
programs together, so that an operation is followed statement by statement. -/

namespace RadioWindows

variable {σ χ α β : Type}

/-- The computation ends in a value with the property, unless an allowed halt cuts it short. -/
def EndsIn (allowed : Halt → Prop) (result : Except Halt α) (post : α → Prop) : Prop :=
  match result with
  | .ok value => post value
  | .error halt => allowed halt

instance (allowed : Halt → Prop) (result : Except Halt α) (post : α → Prop)
    [DecidablePred allowed] [DecidablePred post] : Decidable (EndsIn allowed result post) :=
  match result with
  | .ok value => inferInstanceAs (Decidable (post value))
  | .error halt => inferInstanceAs (Decidable (allowed halt))

section EndsIn

variable {allowed : Halt → Prop}

@[simp] theorem endsIn_ok {value : α} {post : α → Prop} :
    EndsIn allowed (.ok value) post ↔ post value := Iff.rfl

@[simp] theorem endsIn_pure {value : α} {post : α → Prop} :
    EndsIn allowed (pure value) post ↔ post value := Iff.rfl

@[simp] theorem endsIn_error {halt : Halt} {post : α → Prop} :
    EndsIn allowed (.error halt) post ↔ allowed halt := Iff.rfl

@[simp] theorem endsIn_bind {first : Except Halt α} {next : α → Except Halt β} {post : β → Prop} :
    EndsIn allowed (first >>= next) post ↔
      EndsIn allowed first fun value => EndsIn allowed (next value) post := by
  cases first <;> rfl

@[simp] theorem endsIn_map {change : α → β} {result : Except Halt α} {post : β → Prop} :
    EndsIn allowed (change <$> result) post ↔
      EndsIn allowed result fun value => post (change value) := by
  cases result <;> rfl

theorem EndsIn.mono {result : Except Halt α} {post weaker : α → Prop}
    (ends : EndsIn allowed result post) (le : ∀ value, post value → weaker value) :
    EndsIn allowed result weaker := by
  cases result with
  | ok value => exact le value ends
  | error halt => exact ends

theorem EndsIn.allow {wider : Halt → Prop} {result : Except Halt α} {post : α → Prop}
    (ends : EndsIn allowed result post) (le : ∀ halt, allowed halt → wider halt) :
    EndsIn wider result post := by
  cases result with
  | ok value => exact ends
  | error halt => exact le halt ends

theorem EndsIn.and {result : Except Halt α} {post other : α → Prop}
    (left : EndsIn allowed result post) (right : EndsIn allowed result other) :
    EndsIn allowed result fun value => post value ∧ other value := by
  cases result with
  | ok value => exact ⟨left, right⟩
  | error halt => exact left

theorem EndsIn.and_partial {result : Except Halt α} {post other : α → Prop}
    (left : EndsIn allowed result post) (right : EndsIn (fun _ => True) result other) :
    EndsIn allowed result fun value => post value ∧ other value := by
  cases result with
  | ok value => exact ⟨left, right⟩
  | error halt => exact left

theorem EndsIn.of_ok {result : Except Halt α} {post : α → Prop} {value : α}
    (ends : EndsIn allowed result post) (finished : result = .ok value) : post value := by
  subst finished
  exact ends

theorem EndsIn.of_error {result : Except Halt α} {post : α → Prop} {halt : Halt}
    (ends : EndsIn allowed result post) (halted : result = .error halt) : allowed halt := by
  subst halted
  exact ends

theorem endsIn_true_iff {result : Except Halt α} {post : α → Prop} :
    EndsIn (fun _ => True) result post ↔ ∀ value, result = .ok value → post value := by
  cases result <;> simp

theorem endsIn_eq_error {result : Except Halt α} {halt : Halt} :
    EndsIn (· = halt) result (fun _ => False) ↔ result = .error halt := by
  cases result <;> simp

theorem EndsIn.exists_ok {result : Except Halt α} {post : α → Prop}
    (ends : EndsIn allowed result post) (runs : ∀ halt, result = .error halt → ¬allowed halt) :
    ∃ value, result = .ok value ∧ post value := by
  cases result with
  | ok value => exact ⟨value, rfl, ends⟩
  | error halt => exact absurd ends (runs halt rfl)

theorem exists_ok_of_endsIn {result : Except Halt α} {post : α → Prop}
    (ends : EndsIn (fun _ => False) result post) : ∃ value, result = .ok value ∧ post value :=
  ends.exists_ok fun _ _ never => never

end EndsIn

namespace Program

variable [Host σ] {allowed : Halt → Prop} {rounds : Nat} {host : σ}

/-- What a program has established when it ends on this host. -/
def Ensures (allowed : Halt → Prop) (rounds : Nat) (program : Program α) (host : σ)
    (post : α → σ → Prop) : Prop :=
  EndsIn allowed (program.run rounds host) fun out => post out.value out.host

theorem Ensures.mono {program : Program α} {post weaker : α → σ → Prop}
    (ensures : program.Ensures allowed rounds host post)
    (le : ∀ value host, post value host → weaker value host) :
    program.Ensures allowed rounds host weaker :=
  EndsIn.mono ensures fun out => le out.value out.host

theorem Ensures.and {program : Program α} {post other : α → σ → Prop}
    (left : program.Ensures allowed rounds host post)
    (right : program.Ensures allowed rounds host other) :
    program.Ensures allowed rounds host fun value host => post value host ∧ other value host :=
  EndsIn.and left right

@[simp] theorem ensures_done {value : α} {post : α → σ → Prop} :
    (done value).Ensures allowed rounds host post ↔ post value host := Iff.rfl

@[simp] theorem ensures_pure {value : α} {post : α → σ → Prop} :
    (pure value : Program α).Ensures allowed rounds host post ↔ post value host := Iff.rfl

@[simp] theorem ensures_ask {request : Request} {next : request.Reply → Program α}
    {post : α → σ → Prop} :
    (ask request next).Ensures allowed rounds host post ↔
      EndsIn allowed (Host.answer request host) fun answered =>
        (next answered.1).Ensures allowed rounds answered.2 post := by
  simp only [Ensures, run, endsIn_bind]

@[simp] theorem ensures_note {record : LogRecord} {next : Program α} {post : α → σ → Prop} :
    (note record next).Ensures allowed rounds host post ↔
      next.Ensures allowed rounds host post := by
  simp only [Ensures, run, endsIn_bind, endsIn_pure]

@[simp] theorem ensures_await {timeout : UInt64} {interval : UInt32} {condition : Condition}
    {next : Bool → Program α} {post : α → σ → Prop} :
    (await timeout interval condition next).Ensures allowed rounds host post ↔
      EndsIn allowed (poll rounds timeout interval condition host) fun held =>
        (next held.1).Ensures allowed rounds held.2 post := by
  simp only [Ensures, run, endsIn_bind]

@[simp] theorem ensures_bind {program : Program α} {next : α → Program β}
    {post : β → σ → Prop} :
    (program >>= next).Ensures allowed rounds host post ↔
      program.Ensures allowed rounds host fun value host =>
        (next value).Ensures allowed rounds host post := by
  change EndsIn allowed ((program.bind next).run rounds host) _ ↔ _
  simp only [run_bind, Ensures, endsIn_bind, endsIn_pure]

@[simp] theorem ensures_map {change : α → β} {program : Program α} {post : β → σ → Prop} :
    (change <$> program).Ensures allowed rounds host post ↔
      program.Ensures allowed rounds host fun value => post (change value) := by
  rw [← bind_pure_comp, ensures_bind]
  simp only [ensures_pure]

@[simp] theorem ensures_tell {request : Request} {post : Unit → σ → Prop} :
    (tell request).Ensures allowed rounds host post ↔
      EndsIn allowed (Host.answer request host) fun answered => post () answered.2 := by
  simp only [tell, ensures_ask, ensures_done]

@[simp] theorem ensures_log {record : LogRecord} {post : Unit → σ → Prop} :
    (log record).Ensures allowed rounds host post ↔ post () host := by
  simp only [log, ensures_note, ensures_done]

@[simp] theorem ensures_raise {fault : Fault} {post : Unit → σ → Prop} :
    (raise fault).Ensures allowed rounds host post ↔
      EndsIn allowed (Host.answer (.report fault) host) fun answered => post () answered.2 := by
  simp only [raise, ensures_bind, ensures_log, ensures_tell]

theorem ensures_raiseIf {condition : Bool} {fault : Fault} {post : Unit → σ → Prop} :
    (raiseIf condition fault).Ensures allowed rounds host post ↔
      if condition then
        EndsIn allowed (Host.answer (.report fault) host) fun answered => post () answered.2
      else post () host := by
  cases condition <;> simp [raiseIf]

end Program

namespace Driver

variable [Host σ] {allowed : Halt → Prop} {rounds : Nat} {session : Session σ}

def Ensures (allowed : Halt → Prop) (rounds : Nat) (driver : Driver α) (session : Session σ)
    (post : α → Session σ → Prop) : Prop :=
  (driver.run session.status).Ensures allowed rounds session.host fun out host =>
    post out.1 ⟨host, out.2⟩

theorem Ensures.mono {driver : Driver α} {post weaker : α → Session σ → Prop}
    (ensures : driver.Ensures allowed rounds session post)
    (le : ∀ value session, post value session → weaker value session) :
    driver.Ensures allowed rounds session weaker :=
  Program.Ensures.mono ensures fun out host => le out.1 ⟨host, out.2⟩

theorem Ensures.and {driver : Driver α} {post other : α → Session σ → Prop}
    (left : driver.Ensures allowed rounds session post)
    (right : driver.Ensures allowed rounds session other) :
    driver.Ensures allowed rounds session fun value session =>
      post value session ∧ other value session := Program.Ensures.and left right

theorem Ensures.and_partial {driver : Driver α} {post other : α → Session σ → Prop}
    (left : driver.Ensures allowed rounds session post)
    (right : driver.Ensures (fun _ => True) rounds session other) :
    driver.Ensures allowed rounds session fun value session =>
      post value session ∧ other value session := EndsIn.and_partial left right

@[simp] theorem ensures_pure {value : α} {post : α → Session σ → Prop} :
    (pure value : Driver α).Ensures allowed rounds session post ↔ post value session := Iff.rfl

@[simp] theorem ensures_bind {driver : Driver α} {next : α → Driver β}
    {post : β → Session σ → Prop} :
    (driver >>= next).Ensures allowed rounds session post ↔
      driver.Ensures allowed rounds session fun value session =>
        (next value).Ensures allowed rounds session post := by
  simp only [Ensures, StateT.run_bind, Program.ensures_bind]

@[simp] theorem ensures_map {change : α → β} {driver : Driver α} {post : β → Session σ → Prop} :
    (change <$> driver).Ensures allowed rounds session post ↔
      driver.Ensures allowed rounds session fun value => post (change value) := by
  simp only [Ensures, StateT.run_map, Program.ensures_map]

@[simp] theorem ensures_discard {driver : Driver α} {post : Unit → Session σ → Prop} :
    (discard driver : Driver Unit).Ensures allowed rounds session post ↔
      driver.Ensures allowed rounds session fun _ => post () := ensures_map

@[simp] theorem ensures_get {post : Status → Session σ → Prop} :
    (get : Driver Status).Ensures allowed rounds session post ↔ post session.status session :=
  Iff.rfl

@[simp] theorem ensures_modify {change : Status → Status} {post : Unit → Session σ → Prop} :
    (modify change : Driver Unit).Ensures allowed rounds session post ↔
      post () { session with status := change session.status } := Iff.rfl

@[simp] theorem ensures_lift {program : Program α} {post : α → Session σ → Prop} :
    (liftM program : Driver α).Ensures allowed rounds session post ↔
      program.Ensures allowed rounds session.host fun value host =>
        post value { session with host } := by
  simp only [Ensures, StateT.run_monadLift, monadLift_self, Program.ensures_bind,
    Program.ensures_pure]

theorem ensures_ite {condition : Prop} [Decidable condition] {yes no : Driver α}
    {post : α → Session σ → Prop} :
    (if condition then yes else no).Ensures allowed rounds session post ↔
      if condition then yes.Ensures allowed rounds session post
      else no.Ensures allowed rounds session post := by
  split <;> rfl

end Driver

namespace Session

variable [Host σ] {allowed : Halt → Prop} {rounds : Nat}

theorem perform_endsIn {operation : Operation} {session : Session σ} {post : Taken σ → Prop}
    (ensures : operation.perform.Ensures allowed rounds session fun answer session =>
      ∀ log, post ⟨answer, log, session⟩) :
    EndsIn allowed (session.perform rounds operation) post := by
  simp only [perform, endsIn_bind, endsIn_pure]
  exact EndsIn.mono ensures fun out established => established out.log

end Session

end RadioWindows
