import RadioWindows.Proofs.Logic
import RadioWindows.Proofs.Parts

/-! Two runs side by side. Each may be on a host of its own, and a halt that is allowed may cut
either short; apart from that they end alike or halt alike. A comparison says which sessions are
related. Once the few things that operations are made of do the same to related sessions, whole
operations do, and so do runs. -/

namespace RadioWindows

variable {σ τ χ α β γ δ : Type}

/-- Both computations end in related values or both halt alike, unless a halt that is allowed cuts
one of them short. -/
def Together (allowed allowed' : Halt → Prop) (first : Except Halt α) (second : Except Halt β)
    (post : α → β → Prop) : Prop :=
  match first, second with
  | .ok value, .ok other => post value other
  | .error halt, .error halt' => halt = halt' ∨ allowed halt ∨ allowed' halt'
  | .error halt, .ok _ => allowed halt
  | .ok _, .error halt' => allowed' halt'

section Together

variable {allowed allowed' : Halt → Prop} {first : Except Halt α} {second : Except Halt β}

@[simp] theorem together_ok {value : α} {other : β} {post : α → β → Prop} :
    Together allowed allowed' (.ok value) (.ok other) post ↔ post value other := Iff.rfl

@[simp] theorem together_pure {value : α} {other : β} {post : α → β → Prop} :
    Together allowed allowed' (pure value) (pure other) post ↔ post value other := Iff.rfl

theorem together_error (halt : Halt) {post : α → β → Prop} :
    Together allowed allowed' (.error halt) (.error halt) post := .inl rfl

theorem together_of_left {halt : Halt} (allows : allowed halt) (second : Except Halt β)
    {post : α → β → Prop} : Together allowed allowed' (.error halt) second post := by
  cases second with
  | ok other => exact allows
  | error halt' => exact .inr (.inl allows)

theorem together_of_right {halt : Halt} (allows : allowed' halt) (first : Except Halt α)
    {post : α → β → Prop} : Together allowed allowed' first (.error halt) post := by
  cases first with
  | ok value => exact allows
  | error halt' => exact .inr (.inr allows)

theorem Together.mono {post weaker : α → β → Prop}
    (together : Together allowed allowed' first second post)
    (le : ∀ value other, post value other → weaker value other) :
    Together allowed allowed' first second weaker := by
  cases first with
  | ok value =>
    cases second with
    | ok other => exact le value other together
    | error halt => exact together
  | error halt =>
    cases second with
    | ok other => exact together
    | error halt' => exact together

theorem Together.bind {next : α → Except Halt γ} {next' : β → Except Halt δ}
    {middle : α → β → Prop} {post : γ → δ → Prop}
    (together : Together allowed allowed' first second middle)
    (rest : ∀ value other, middle value other →
      Together allowed allowed' (next value) (next' other) post) :
    Together allowed allowed' (first >>= next) (second >>= next') post := by
  cases first with
  | ok value =>
    cases second with
    | ok other => exact rest value other together
    | error halt => exact together_of_right together _
  | error halt =>
    cases second with
    | ok other => exact together_of_left together _
    | error halt' => exact together

theorem together_of_endsIn {pre : α → Prop} {pre' : β → Prop} {post : α → β → Prop}
    (left : EndsIn allowed first pre) (right : EndsIn allowed' second pre')
    (both : ∀ value other, pre value → pre' other → post value other) :
    Together allowed allowed' first second post := by
  cases first with
  | ok value =>
    cases second with
    | ok other => exact both value other left right
    | error halt => exact right
  | error halt => exact together_of_left left second

theorem Together.ok_or_error {post : α → β → Prop}
    (together : Together allowed allowed' first second post)
    (runs : ∀ halt, first = .error halt → ¬allowed halt)
    (runs' : ∀ halt, second = .error halt → ¬allowed' halt) :
    (∃ value other, first = .ok value ∧ second = .ok other ∧ post value other) ∨
      ∃ halt, first = .error halt ∧ second = .error halt := by
  cases first with
  | ok value =>
    cases second with
    | ok other => exact .inl ⟨value, other, rfl, rfl, together⟩
    | error halt => exact absurd together (runs' halt rfl)
  | error halt =>
    cases second with
    | ok other => exact absurd together (runs halt rfl)
    | error halt' =>
      obtain rfl | allows | allows' := together
      · exact .inr ⟨halt, rfl, rfl⟩
      · exact absurd allows (runs halt rfl)
      · exact absurd allows' (runs' halt' rfl)

theorem Together.of_ok {post : α → β → Prop} {value : α}
    (together : Together (fun _ => False) (fun _ => False) first second post)
    (finished : first = .ok value) : ∃ other, second = .ok other ∧ post value other := by
  subst finished
  cases second with
  | ok other => exact ⟨other, rfl, together⟩
  | error halt => exact together.elim

end Together

section Lockstep

variable [Host σ] [Host τ] {allowed allowed' : Halt → Prop} {related : σ → τ → Prop}
    (answers : ∀ request host peer, related host peer →
      Together allowed allowed' (Host.answer request host) (Host.answer request peer)
        fun answered answered' => answered.1 = answered'.1 ∧ related answered.2 answered'.2)
include answers

theorem Condition.check_lockstep (condition : Condition) {host : σ} {peer : τ}
    (before : related host peer) :
    Together allowed allowed' (condition.check host) (condition.check peer)
      fun looked looked' => looked.1 = looked'.1 ∧ related looked.2 looked'.2 := by
  induction condition generalizing host peer with
  | settled holds => exact ⟨rfl, before⟩
  | read8 register next ih =>
    refine Together.bind (answers (.read8 register) host peer before) ?_
    rintro ⟨value, host⟩ ⟨_, peer⟩ ⟨rfl, after⟩
    exact ih value after
  | read16 register next ih =>
    refine Together.bind (answers (.read16 register) host peer before) ?_
    rintro ⟨value, host⟩ ⟨_, peer⟩ ⟨rfl, after⟩
    exact ih value after

theorem pollFrom_lockstep (start timeout : UInt64) (interval : UInt32) (condition : Condition)
    (rounds : Nat) {host : σ} {peer : τ} (before : related host peer) :
    Together allowed allowed' (pollFrom start timeout interval condition rounds host)
      (pollFrom start timeout interval condition rounds peer)
      fun held held' => held.1 = held'.1 ∧ related held.2 held'.2 := by
  induction rounds generalizing host peer with
  | zero => exact together_error _
  | succ rounds ih =>
    refine Together.bind (condition.check_lockstep answers before) ?_
    rintro ⟨holds, host⟩ ⟨_, peer⟩ ⟨rfl, looked⟩
    cases holds with
    | true => exact ⟨rfl, looked⟩
    | false =>
      refine Together.bind (answers .now host peer looked) ?_
      rintro ⟨time, host⟩ ⟨_, peer⟩ ⟨rfl, timed⟩
      dsimp only
      split
      · exact ⟨rfl, timed⟩
      · refine Together.bind (answers (.delay interval) host peer timed) ?_
        rintro ⟨_, host⟩ ⟨_, peer⟩ ⟨_, waited⟩
        exact ih waited

theorem poll_lockstep (rounds : Nat) (timeout : UInt64) (interval : UInt32)
    (condition : Condition) {host : σ} {peer : τ} (before : related host peer) :
    Together allowed allowed' (poll rounds timeout interval condition host)
      (poll rounds timeout interval condition peer)
      fun held held' => held.1 = held'.1 ∧ related held.2 held'.2 := by
  refine Together.bind (answers .now host peer before) ?_
  rintro ⟨start, host⟩ ⟨_, peer⟩ ⟨rfl, timed⟩
  exact pollFrom_lockstep answers start timeout interval condition rounds timed

/-- Hosts that answer alike and stay related are the same to every program. -/
theorem Program.run_lockstep (rounds : Nat) (program : Program α) {host : σ} {peer : τ}
    (before : related host peer) :
    Together allowed allowed' (program.run rounds host) (program.run rounds peer)
      fun out out' => out.value = out'.value ∧ related out.host out'.host := by
  induction program generalizing host peer with
  | done value => exact ⟨rfl, before⟩
  | ask request next ih =>
    refine Together.bind (answers request host peer before) ?_
    rintro ⟨reply, host⟩ ⟨_, peer⟩ ⟨rfl, after⟩
    exact ih reply after
  | note record next ih => exact Together.bind (ih before) fun _ _ established => established
  | await timeout interval condition next ih =>
    refine Together.bind (poll_lockstep answers rounds timeout interval condition before) ?_
    rintro ⟨held, host⟩ ⟨_, peer⟩ ⟨rfl, after⟩
    exact ih held after

end Lockstep

def Untimed (change : Status → Status) : Prop :=
  ∀ status timing, change { status with timing } = { change status with timing }

theorem Untimed.timing_eq {change : Status → Status} (untimed : Untimed change) (status : Status) :
    (change status).timing = status.timing :=
  (congrArg Status.timing (untimed status status.timing) :)

/-- Two runs to be compared: for each how many rounds its waits have and which halts may cut it
short, and how sessions in the one and in the other have to be related. -/
structure Comparison (σ τ : Type) where
  rounds : Nat
  rounds' : Nat
  allowed : Halt → Prop
  allowed' : Halt → Prop
  related : Session σ → Session τ → Prop

namespace Comparison

variable [Host σ] [Host τ] {comparison : Comparison σ τ}

def Beside (comparison : Comparison σ τ) (driver : Driver α) (other : Driver β)
    (session : Session σ) (peer : Session τ) (post : α → β → Session σ → Session τ → Prop) : Prop :=
  Together comparison.allowed comparison.allowed'
    ((driver.run session.status).run comparison.rounds session.host)
    ((other.run peer.status).run comparison.rounds' peer.host)
    fun out out' => post out.value.1 out'.value.1 ⟨out.host, out.value.2⟩ ⟨out'.host, out'.value.2⟩

/-- A part of the driver returns the same in related sessions and leaves them related. -/
def Same (comparison : Comparison σ τ) (driver : Driver α) : Prop :=
  ∀ session peer, comparison.related session peer →
    comparison.Beside driver driver session peer fun value other session peer =>
      value = other ∧ comparison.related session peer

section Rules

theorem Beside.bind {driver : Driver α} {other : Driver β} {next : α → Driver γ}
    {next' : β → Driver δ} {session : Session σ} {peer : Session τ}
    {middle : α → β → Session σ → Session τ → Prop} {post : γ → δ → Session σ → Session τ → Prop}
    (beside : comparison.Beside driver other session peer middle)
    (rest : ∀ value value' session peer, middle value value' session peer →
      comparison.Beside (next value) (next' value') session peer post) :
    comparison.Beside (driver >>= next) (other >>= next') session peer post := by
  simp only [Beside, StateT.run_bind]
  change Together _ _ (((driver.run session.status).bind _).run _ _)
    (((other.run peer.status).bind _).run _ _) _
  rw [Program.run_bind, Program.run_bind]
  refine Together.bind beside fun out out' established => ?_
  refine Together.bind (rest _ _ _ _ established) fun last last' reached => ?_
  exact reached

theorem beside_lift {program : Program α} {other : Program β} {session : Session σ}
    {peer : Session τ} {post : α → β → Session σ → Session τ → Prop}
    (runs : Together comparison.allowed comparison.allowed'
      (program.run comparison.rounds session.host) (other.run comparison.rounds' peer.host)
      fun out out' => post out.value out'.value { session with host := out.host }
        { peer with host := out'.host }) :
    comparison.Beside (liftM program : Driver α) (liftM other : Driver β) session peer post := by
  simp only [Beside, StateT.run_monadLift, monadLift_self]
  change Together _ _ ((program.bind _).run _ _) ((other.bind _).run _ _) _
  rw [Program.run_bind, Program.run_bind]
  exact Together.bind runs fun _ _ established => established

theorem beside_get {next : Status → Driver α} {next' : Status → Driver β} {session : Session σ}
    {peer : Session τ} {post : α → β → Session σ → Session τ → Prop}
    (rest : comparison.Beside (next session.status) (next' peer.status) session peer post) :
    comparison.Beside (get >>= next) (get >>= next') session peer post := rest

theorem same_pure (value : α) : comparison.Same (pure value : Driver α) :=
  fun _ _ related => ⟨rfl, related⟩

theorem same_bind {driver : Driver α} {next : α → Driver β} (first : comparison.Same driver)
    (rest : ∀ value, comparison.Same (next value)) : comparison.Same (driver >>= next) := by
  intro session peer related
  refine Beside.bind (first session peer related) ?_
  rintro value _ session peer ⟨rfl, related⟩
  exact rest value session peer related

theorem same_log (record : LogRecord) :
    comparison.Same (liftM (Program.log record) : Driver Unit) :=
  fun _ _ related => beside_lift ⟨rfl, related⟩

end Rules

/-- Related sessions stay related under all that operations are made of, and cannot be told apart
by it. -/
structure Keeps (comparison : Comparison σ τ) : Prop where
  issue : ∀ move, comparison.Same (Driver.issue move)
  setIndex : ∀ w index, comparison.Same (Driver.setIndex w index)
  checkAccess : ∀ w, comparison.Same (Driver.checkAccess w)
  readData : ∀ (w : Window) count,
    comparison.Same (liftM (Program.readBytes w.registers.data count) : Driver Bytes)
  writeData : ∀ (w : Window) bytes,
    comparison.Same (liftM (Program.writeBytes w.registers.data bytes) : Driver Unit)
  readFree : ∀ traffic : Traffic,
    comparison.Same (liftM (Program.read16 traffic.freeRegister) : Driver UInt16)
  raise : ∀ fault, comparison.Same (liftM (Program.raise fault) : Driver Unit)
  modify : ∀ change : Status → Status, Untimed change →
    comparison.Same (modify change : Driver Unit)

namespace Keeps

variable (keeps : comparison.Keeps)
include keeps

theorem read (w : Window) (count : Nat) : comparison.Same (Driver.read w count) :=
  same_bind (keeps.checkAccess w) fun _ => keeps.readData w count

theorem write (w : Window) (bytes : Bytes) : comparison.Same (Driver.write w bytes) :=
  same_bind (keeps.checkAccess w) fun _ => keeps.writeData w bytes

end Keeps

end Comparison

def Operation.recalled (status : Status) : Operation → Answer
  | scratchLength => .length status.scratchLength
  | isOutOfBounds w => .flag (status.outOfBounds.contains w)
  | dataState window => .state (status.dataStates.get window)
  | timing => .timing status.timing
  | _ => .nothing

namespace Comparison

variable [Host σ] [Host τ] {comparison : Comparison σ τ}

theorem Keeps.perform (keeps : comparison.Keeps) {operation : Operation}
    (acts : ¬operation.IsQuery) : comparison.Same operation.perform := by
  have parts : operation.Parts fun _ => comparison.Same := {
    pure := same_pure
    bind := same_bind
    query asks := absurd asks acts
    issue move _ := keeps.issue move
    setIndex w _ := keeps.setIndex w
    read w _ := keeps.read w
    write w _ := keeps.write w
    readFree := keeps.readFree
    raise fault _ := keeps.raise fault
    settingUp := same_log _
    scratchSized _ := same_log _
    unflag _ := keeps.modify _ fun _ _ => rfl
    mark _ _ _ := keeps.modify _ fun _ _ => rfl
    recordSetUp _ _ := keeps.modify _ fun _ _ => rfl }
  exact parts.perform

theorem beside_query {operation : Operation} (asks : operation.IsQuery) {session : Session σ}
    {peer : Session τ} {post : Answer → Answer → Session σ → Session τ → Prop}
    (recalled : post (operation.recalled session.status) (operation.recalled peer.status)
      session peer) :
    comparison.Beside operation.perform operation.perform session peer post := by
  cases operation with
  | scratchLength | isOutOfBounds _ | dataState _ | timing => exact recalled
  | _ => exact asks.elim

end Comparison

namespace Session

/-- A relation between a step and what was taken for it in one run and in another, at each step. -/
def Matching (relation : Step χ → Taken σ → Taken τ → Prop) :
    List (Step χ) → List (Taken σ) → List (Taken τ) → Prop
  | [], [], [] => True
  | step :: steps, one :: taken, other :: others =>
    relation step one other ∧ Matching relation steps taken others
  | _, _, _ => False

theorem perform_together [Host σ] [Host τ] (comparison : Comparison σ τ) {operation : Operation}
    {session : Session σ} {peer : Session τ} {post : Taken σ → Taken τ → Prop}
    (beside : comparison.Beside operation.perform operation.perform session peer
      fun answer answer' session peer =>
        ∀ log log', post ⟨answer, log, session⟩ ⟨answer', log', peer⟩) :
    Together comparison.allowed comparison.allowed' (session.perform comparison.rounds operation)
      (peer.perform comparison.rounds' operation) post :=
  Together.bind beside fun _ _ established => established _ _

theorem run_together [Host σ] [Host τ] [Adjustable σ χ] [Adjustable τ χ]
    {allowed allowed' : Halt → Prop} {rounds rounds' : Nat}
    {related : Session σ → Session τ → Prop} {relation : Step χ → Taken σ → Taken τ → Prop}
    {steps : List (Step χ)}
    (step : ∀ step ∈ steps, ∀ session peer, related session peer →
      Together allowed allowed' (session.take rounds step) (peer.take rounds' step)
        fun one other => related one.session other.session ∧ relation step one other)
    {session : Session σ} {peer : Session τ} (before : related session peer) :
    Together allowed allowed' (session.run rounds steps) (peer.run rounds' steps)
      (Matching relation steps) := by
  induction steps generalizing session peer with
  | nil => exact trivial
  | cons first steps ih =>
    refine Together.bind (step first List.mem_cons_self session peer before) ?_
    rintro one other ⟨after, established⟩
    have rest := ih (fun later member => step later (List.mem_cons_of_mem first member)) after
    exact Together.bind rest fun _ _ following => ⟨established, following⟩

end Session

end RadioWindows
