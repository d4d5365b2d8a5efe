import RadioWindows.Scripted.Host
import RadioWindows.Proofs.Runs

/-! What a scripted host records. It refuses nothing, so a program only ever adds to the record,
and what it adds is put together from what its parts add. -/

namespace RadioWindows

variable {α β : Type}

def Call.interruptAfter (enabled : Bool) : Call → Bool
  | enable _ => true
  | disable _ => false
  | _ => enabled

def interruptAfter (enabled : Bool) (calls : List Call) : Bool :=
  calls.foldl Call.interruptAfter enabled

@[simp] theorem interruptAfter_nil (enabled : Bool) : interruptAfter enabled [] = enabled := rfl

@[simp] theorem interruptAfter_cons (enabled : Bool) (call : Call) (rest : List Call) :
    interruptAfter enabled (call :: rest) = interruptAfter (call.interruptAfter enabled) rest := rfl

@[simp] theorem interruptAfter_append (enabled : Bool) (first rest : List Call) :
    interruptAfter enabled (first ++ rest) = interruptAfter (interruptAfter enabled first) rest :=
  List.foldl_append

/-- What a request leaves in the record. A host may leave out faults. -/
def Request.recorded (records : Bool) : (request : Request) → request.Reply → List Call
  | read8 register, value => [.read8 register value]
  | write8 register value, _ => [.write8 register value]
  | read16 register, value => [.read16 register value]
  | write16 register value, _ => [.write16 register value]
  | readBytes register count, _ => [.readBytes register count]
  | writeBytes register bytes, _ => [.writeBytes register bytes]
  | now, time => [.now time]
  | delay microseconds, _ => [.delay microseconds]
  | enableInterrupt, wasEnabled => [.enable wasEnabled]
  | disableInterrupt, wasEnabled => [.disable wasEnabled]
  | report fault, _ => if records then [.fault fault] else []

namespace ScriptedHost

/-- The host has got from one state to the other by these calls. -/
structure Adds (before after : ScriptedHost) (calls : List Call) : Prop where
  calls_eq : after.calls.toList = before.calls.toList ++ calls
  interruptEnabled_eq : after.interruptEnabled = interruptAfter before.interruptEnabled calls
  recordsFaults_eq : after.recordsFaults = before.recordsFaults

theorem Adds.refl (host : ScriptedHost) : Adds host host [] :=
  ⟨(List.append_nil _).symm, rfl, rfl⟩

theorem Adds.trans {before middle after : ScriptedHost} {calls more : List Call}
    (first : Adds before middle calls) (second : Adds middle after more) :
    Adds before after (calls ++ more) where
  calls_eq := by rw [second.calls_eq, first.calls_eq, List.append_assoc]
  interruptEnabled_eq := by
    rw [second.interruptEnabled_eq, first.interruptEnabled_eq, interruptAfter_append]
  recordsFaults_eq := second.recordsFaults_eq.trans first.recordsFaults_eq

@[simp] theorem host_answer (request : Request) (host : ScriptedHost) :
    Host.answer request host = .ok (host.answer request) := rfl

theorem adds_answer (request : Request) (host : ScriptedHost) :
    Adds host (host.answer request).2
      (request.recorded host.recordsFaults (host.answer request).1) := by
  cases request with
  | report fault =>
    cases recorded : host.recordsFaults with
    | true =>
      have answered : (host.answer (.report fault)).2 = host.record (.fault fault) := by
        simp [answer, recorded]
      rw [answered]
      exact ⟨by simp [record, Request.recorded], rfl, rfl⟩
    | false =>
      have answered : (host.answer (.report fault)).2 = host := by simp [answer, recorded]
      rw [answered]
      exact Adds.refl host
  | _ => exact ⟨by simp [answer, record, Request.recorded], rfl, rfl⟩

end ScriptedHost

/-- The calls by which a condition may be evaluated, and with what result. -/
def Condition.Looks : Condition → List Call → Bool → Prop
  | settled holds, calls, held => calls = [] ∧ held = holds
  | read8 register next, calls, held =>
    ∃ value rest, calls = .read8 register value :: rest ∧ (next value).Looks rest held
  | read16 register next, calls, held =>
    ∃ value rest, calls = .read16 register value :: rest ∧ (next value).Looks rest held

/-- The calls by which a condition is waited for from the time `start` on, round after round, and
whether it came to hold. The wait is given up in a round that ends after the timeout. -/
inductive Condition.Waits (condition : Condition) (timeout : UInt64) (interval : UInt32)
    (start : UInt64) : List Call → Bool → Prop where
  | held {calls : List Call} (looked : condition.Looks calls true) :
      Waits condition timeout interval start calls true
  | late {calls : List Call} {time : UInt64} (looked : condition.Looks calls false)
      (late : elapsed start time > timeout) :
      Waits condition timeout interval start (calls ++ [.now time]) false
  | again {calls rest : List Call} {time : UInt64} {held : Bool}
      (looked : condition.Looks calls false) (early : ¬elapsed start time > timeout)
      (later : Waits condition timeout interval start rest held) :
      Waits condition timeout interval start (calls ++ .now time :: .delay interval :: rest) held

theorem Condition.Waits.forall_mem {condition : Condition} {timeout start : UInt64}
    {interval : UInt32} {calls : List Call} {held : Bool} {property : Call → Prop}
    (waits : condition.Waits timeout interval start calls held)
    (looks : ∀ calls held, condition.Looks calls held → ∀ call ∈ calls, property call)
    (now : ∀ time, property (.now time)) (delay : ∀ interval, property (.delay interval)) :
    ∀ call ∈ calls, property call := by
  induction waits with
  | held looked => exact looks _ _ looked
  | late looked _ =>
    intro call member
    rcases List.mem_append.mp member with inside | last
    · exact looks _ _ looked call inside
    · rw [List.mem_singleton.mp last]
      exact now _
  | again looked _ _ ih =>
    intro call member
    simp only [List.mem_append, List.mem_cons] at member
    rcases member with inside | rfl | rfl | later
    · exact looks _ _ looked call inside
    · exact now _
    · exact delay _
    · exact ih call later

section Polling

variable {allowed : Halt → Prop}

theorem check_records (condition : Condition) (host : ScriptedHost) :
    EndsIn allowed (condition.check host) fun looked =>
      ∃ calls, host.Adds looked.2 calls ∧ condition.Looks calls looked.1 := by
  induction condition generalizing host with
  | settled holds => exact ⟨[], .refl host, rfl, rfl⟩
  | read8 register next ih =>
    have asked := ScriptedHost.adds_answer (.read8 register) host
    refine EndsIn.mono (ih (host.answer (.read8 register)).1 (host.answer (.read8 register)).2) ?_
    rintro looked ⟨calls, adds, looks⟩
    exact ⟨_, asked.trans adds, _, calls, rfl, looks⟩
  | read16 register next ih =>
    have asked := ScriptedHost.adds_answer (.read16 register) host
    refine EndsIn.mono (ih (host.answer (.read16 register)).1 (host.answer (.read16 register)).2) ?_
    rintro looked ⟨calls, adds, looks⟩
    exact ⟨_, asked.trans adds, _, calls, rfl, looks⟩

theorem pollFrom_records (endless : allowed .outOfRounds) (start timeout : UInt64)
    (interval : UInt32) (condition : Condition) (rounds : Nat) (host : ScriptedHost) :
    EndsIn allowed (pollFrom start timeout interval condition rounds host) fun held =>
      ∃ calls, host.Adds held.2 calls ∧
        condition.Waits timeout interval start calls held.1 := by
  induction rounds generalizing host with
  | zero => exact endless
  | succ rounds ih =>
    rw [pollFrom, endsIn_bind]
    refine EndsIn.mono (check_records condition host) ?_
    rintro ⟨holds, looked⟩ ⟨calls, adds, looks⟩
    cases holds with
    | true => exact ⟨calls, adds, .held looks⟩
    | false =>
      have timed := adds.trans (ScriptedHost.adds_answer .now looked)
      by_cases late : elapsed start (looked.answer .now).1 > timeout
      · simp only [ScriptedHost.host_answer, Bool.false_eq_true, if_false, endsIn_bind, endsIn_ok,
          if_pos late, endsIn_pure]
        exact ⟨_, timed, .late looks late⟩
      · simp only [ScriptedHost.host_answer, Bool.false_eq_true, if_false, endsIn_bind, endsIn_ok,
          if_neg late]
        have waited := timed.trans
          (ScriptedHost.adds_answer (.delay interval) (looked.answer .now).2)
        refine EndsIn.mono (ih _) ?_
        rintro held ⟨rest, more, waits⟩
        refine ⟨_, waited.trans more, ?_⟩
        simpa [Request.recorded] using Condition.Waits.again looks late waits

end Polling

namespace Program

variable {rounds : Nat} {host : ScriptedHost}

def Records (rounds : Nat) (program : Program α) (host : ScriptedHost)
    (post : α → List Call → Prop) : Prop :=
  program.Ensures (fun _ => True) rounds host fun value after =>
    ∃ calls, host.Adds after calls ∧ post value calls

theorem Records.mono {program : Program α} {post weaker : α → List Call → Prop}
    (records : program.Records rounds host post)
    (le : ∀ value calls, post value calls → weaker value calls) :
    program.Records rounds host weaker := by
  refine Ensures.mono records ?_
  rintro value after ⟨calls, adds, established⟩
  exact ⟨calls, adds, le value calls established⟩

theorem records_pure {value : α} {post : α → List Call → Prop} (none : post value []) :
    (pure value : Program α).Records rounds host post := ⟨[], .refl host, none⟩

theorem records_log {record : LogRecord} {post : Unit → List Call → Prop} (none : post () []) :
    (log record).Records rounds host post := by
  rw [Records, ensures_log]
  exact ⟨[], .refl host, none⟩

theorem records_ask {request : Request} {next : request.Reply → Program α}
    {post : α → List Call → Prop}
    (rest : ∀ after, host.Adds after (request.recorded host.recordsFaults (host.answer request).1) →
      (next (host.answer request).1).Records rounds after fun value more =>
        post value (request.recorded host.recordsFaults (host.answer request).1 ++ more)) :
    (ask request next).Records rounds host post := by
  have asked := ScriptedHost.adds_answer request host
  rw [Records, ensures_ask, ScriptedHost.host_answer, endsIn_ok]
  refine Ensures.mono (rest _ asked) ?_
  rintro value after ⟨more, adds, established⟩
  exact ⟨_, asked.trans adds, established⟩

theorem records_bind {program : Program α} {next : α → Program β}
    {middle : α → List Call → Prop} {post : β → List Call → Prop}
    (first : program.Records rounds host middle)
    (rest : ∀ value calls after, host.Adds after calls → middle value calls →
      (next value).Records rounds after fun out more => post out (calls ++ more)) :
    (program >>= next).Records rounds host post := by
  rw [Records, ensures_bind]
  refine Ensures.mono first ?_
  rintro value between ⟨calls, adds, established⟩
  refine Ensures.mono (rest value calls between adds established) ?_
  rintro out after ⟨more, others, reached⟩
  exact ⟨calls ++ more, adds.trans others, reached⟩

theorem records_tell (request : Request) :
    (tell request).Records rounds host fun _ calls =>
      calls = request.recorded host.recordsFaults (host.answer request).1 :=
  records_ask fun _ _ => records_pure (List.append_nil _)

theorem records_read16 (register : UInt8) :
    (read16 register).Records rounds host fun value calls => calls = [.read16 register value] :=
  records_ask fun _ _ => records_pure (List.append_nil _)

theorem records_raise (fault : Fault) :
    (raise fault).Records rounds host fun _ calls =>
      calls = if host.recordsFaults then [.fault fault] else [] := by
  have silent : (log (.fault fault)).Records rounds host fun _ calls => calls = [] :=
    records_log rfl
  refine records_bind silent ?_
  intro _ _ after adds told
  subst told
  rw [← adds.recordsFaults_eq]
  exact records_tell (.report fault)

theorem records_raiseIf (condition : Bool) (fault : Fault) :
    (raiseIf condition fault).Records rounds host fun _ calls =>
      calls = if condition && host.recordsFaults then [.fault fault] else [] := by
  cases condition with
  | true => exact records_raise fault
  | false => exact records_pure rfl

theorem records_waitFor (timeout : UInt64) (interval : UInt32) (condition : Condition) :
    (waitFor timeout interval condition).Records rounds host fun held calls =>
      ∃ start waited, calls = .now start :: waited ∧
        condition.Waits timeout interval start waited held := by
  have asked := ScriptedHost.adds_answer .now host
  rw [Records, waitFor, ensures_await, poll]
  simp only [ScriptedHost.host_answer, endsIn_bind, endsIn_ok, ensures_done]
  refine EndsIn.mono (pollFrom_records trivial _ timeout interval condition rounds _) ?_
  rintro held ⟨waited, adds, waits⟩
  exact ⟨_, asked.trans adds, _, waited, rfl, waits⟩

end Program

end RadioWindows
