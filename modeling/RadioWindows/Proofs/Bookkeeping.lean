import RadioWindows.Proofs.History
import RadioWindows.Scripted.Host

/-! What operations leave remembered, on whatever host. Moves, transfers and reports leave no trace;
what does is the outcome of an operation. So the mount states of the data windows and the size of
the scratch memory are what the latest operations that bear on them have made them. -/

namespace RadioWindows

def Status.markFor (status : Status) (traffic : Traffic) (window : DataWindow)
    (state : MountState) : Status :=
  match traffic with
  | .management => status
  | .data => status.mark window state

section Status

variable (status : Status)

@[simp] theorem Status.markFor_management (window : DataWindow) (state : MountState) :
    status.markFor .management window state = status := rfl

@[simp] theorem Status.markFor_data (window : DataWindow) (state : MountState) :
    status.markFor .data window state = status.mark window state := rfl

@[simp] theorem Status.flag_dataStates (w : Window) :
    (status.flag w).dataStates = status.dataStates := rfl

@[simp] theorem Status.unflag_dataStates (w : Window) :
    (status.unflag w).dataStates = status.dataStates := rfl

@[simp] theorem Status.mark_outOfBounds (window : DataWindow) (state : MountState) :
    (status.mark window state).outOfBounds = status.outOfBounds := rfl

@[simp] theorem Status.markFor_outOfBounds (traffic : Traffic) (window : DataWindow)
    (state : MountState) :
    (status.markFor traffic window state).outOfBounds = status.outOfBounds := by
  cases traffic <;> rfl

@[simp] theorem Status.mark_get (v w : DataWindow) (state : MountState) :
    (status.mark v state).dataStates.get w = if w = v then state else status.dataStates.get w :=
  MountStates.get_set ..

end Status

def Operation.Leaves (operation : Operation) (answer : Answer) (before after : Status) : Prop :=
  match operation with
  | setUp => ∃ length, answer = .count length ∧ after =
      { ((before.mark .tx .unmounted).mark .rx .unmounted) with scratchLength := some length }
  | allocate traffic _ => after = if answer = .granted then
      (before.unflag traffic.txWindow).markFor traffic .tx .mounted else before
  | discardTx traffic | send traffic _ => after = before.markFor traffic .tx .unmounted
  | discardRx traffic => after = before.markFor traffic .rx .unmounted
  | mountRx w => after = if w = .dataRx then before.mark .rx .mounted else before
  | setIndex w _ | readAt w _ _ | writeAt w _ _ => after = before.flag w ∨ after = before.unflag w
  | _ => after = before

def Operation.Flags (operation : Operation) (answer : Answer) (before after : WindowMask) : Prop :=
  match operation with
  | allocate traffic _ =>
    after = if answer = .granted then before.erase traffic.txWindow else before
  | setIndex w _ | readAt w _ _ | writeAt w _ _ => after = before.insert w ∨ after = before.erase w
  | _ => after = before

theorem Operation.Leaves.flags {operation : Operation} {answer : Answer} {before after : Status}
    (leaves : operation.Leaves answer before after) :
    operation.Flags answer before.outOfBounds after.outOfBounds := by
  cases operation with
  | setUp =>
    obtain ⟨length, -, rfl⟩ := leaves
    rfl
  | allocate traffic size =>
    rw [Leaves] at leaves
    rw [Flags, leaves]
    split
    · exact Status.markFor_outOfBounds ..
    · rfl
  | discardTx traffic | discardRx traffic | send traffic size =>
    change after.outOfBounds = before.outOfBounds
    rw [leaves]
    exact Status.markFor_outOfBounds ..
  | mountRx w =>
    change after.outOfBounds = before.outOfBounds
    rw [leaves]
    split <;> rfl
  | setIndex w index | readAt w index count | writeAt w index bytes =>
    exact leaves.imp (congrArg Status.outOfBounds) (congrArg Status.outOfBounds)
  | _ => exact congrArg Status.outOfBounds leaves

variable {σ χ α β : Type}

section Operations

variable [Host σ] {rounds : Nat}

namespace Driver

/-- Where this part of the driver ends, nothing else is remembered than before. -/
def Still (σ : Type) [Host σ] (rounds : Nat) (driver : Driver α) : Prop :=
  ∀ session : Session σ, driver.Ensures (fun _ => True) rounds session fun _ after =>
    after.status = session.status

theorem still_lift (program : Program α) : Still σ rounds (liftM program) := by
  intro session
  rw [ensures_lift]
  exact endsIn_true_iff.mpr fun _ _ => rfl

theorem still_get {next : Status → Driver α} (rest : ∀ status, Still σ rounds (next status)) :
    Still σ rounds (get >>= next) := by
  intro session
  rw [ensures_bind, ensures_get]
  exact rest session.status session

theorem Still.before {driver : Driver α} {next : α → Driver β} {session : Session σ}
    {post : β → Session σ → Prop} (still : Still σ rounds driver)
    (rest : ∀ value after, after.status = session.status →
      (next value).Ensures (fun _ => True) rounds after post) :
    (driver >>= next).Ensures (fun _ => True) rounds session post := by
  rw [ensures_bind]
  exact Ensures.mono (still session) rest

theorem still_bind {driver : Driver α} {next : α → Driver β} (first : Still σ rounds driver)
    (rest : ∀ value, Still σ rounds (next value)) : Still σ rounds (driver >>= next) := by
  intro session
  refine first.before fun value after same => Ensures.mono (rest value after) ?_
  exact fun _ _ still => still.trans same

theorem still_map (change : α → β) {driver : Driver α} (still : Still σ rounds driver) :
    Still σ rounds (change <$> driver) := by
  intro session
  rw [ensures_map]
  exact still session

theorem still_issue (move : Move) : Still σ rounds (issue move) :=
  still_get fun _ => still_lift _

theorem still_discard_issue (move : Move) : Still σ rounds (discard (issue move)) :=
  still_map _ (still_issue move)

theorem still_checkAccess (w : Window) : Still σ rounds (checkAccess w) :=
  still_get fun _ => still_lift _

theorem still_read (w : Window) (count : Nat) : Still σ rounds (read w count) :=
  still_bind (still_checkAccess w) fun _ => still_lift _

theorem still_write (w : Window) (bytes : Bytes) : Still σ rounds (write w bytes) :=
  still_bind (still_checkAccess w) fun _ => still_lift _

section Effects

variable {session : Session σ}

@[simp] theorem ensures_markData {allowed : Halt → Prop} {traffic : Traffic} {window : DataWindow}
    {state : MountState} {post : Unit → Session σ → Prop} :
    (markData traffic window state).Ensures allowed rounds session post ↔
      post () { session with status := session.status.markFor traffic window state } := by
  cases traffic <;> rfl

theorem setIndex_leaves (w : Window) (index : UInt16) :
    (setIndex w index).Ensures (fun _ => True) rounds session fun _ after =>
      after.status = session.status.flag w ∨ after.status = session.status.unflag w := by
  rw [setIndex, ensures_bind, ensures_get]
  refine (still_lift _).before fun settled sought same => ?_
  cases settled with
  | true => exact .inr (congrArg (·.unflag w) same)
  | false =>
    rw [if_neg Bool.false_ne_true, ensures_bind, ensures_modify]
    refine Ensures.mono (still_lift _ _) fun _ after still => .inl ?_
    rw [still, same]

theorem setUp_leaves :
    setUp.Ensures (fun _ => True) rounds session fun length after =>
      after.status = { ((session.status.mark .tx .unmounted).mark .rx .unmounted) with
        scratchLength := some length } := by
  refine (still_lift _).before fun _ logged sameLogged => ?_
  refine (still_discard_issue _).before fun _ released sameReleased => ?_
  refine (still_issue _).before fun length mounted sameMounted => ?_
  rw [ensures_bind, ensures_modify]
  refine (still_lift _).before fun _ after sameAfter => ?_
  rw [ensures_pure, sameAfter]
  dsimp only
  rw [sameMounted, sameReleased, sameLogged]

theorem allocate_leaves (traffic : Traffic) (size : UInt16) :
    (allocate traffic size).Ensures (fun _ => True) rounds session fun verdict after =>
      (Operation.allocate traffic size).Leaves (.ofVerdict verdict) session.status
        after.status := by
  refine (still_lift _).before fun free looked sameLooked => ?_
  rw [ensures_ite]
  split
  · exact sameLooked
  · refine (still_issue _).before fun count issued sameIssued => ?_
    rw [ensures_ite]
    split
    · refine (still_lift _).before fun _ raised sameRaised => ?_
      refine (still_discard_issue _).before fun _ after sameAfter => ?_
      exact ((sameAfter.trans sameRaised).trans sameIssued).trans sameLooked
    · rw [ensures_bind, ensures_modify, ensures_bind, ensures_markData, ensures_pure]
      dsimp only [Operation.Leaves, Answer.ofVerdict]
      rw [if_pos rfl, sameIssued, sameLooked]

theorem mountRx_leaves (w : Window) :
    (mountRx w).Ensures (fun _ => True) rounds session fun _ after =>
      after.status = if w = .dataRx then session.status.mark .rx .mounted else session.status := by
  refine (still_issue _).before fun length issued sameIssued => ?_
  refine (still_lift _).before fun _ raised sameRaised => ?_
  have same := sameRaised.trans sameIssued
  split
  · exact congrArg (·.mark .rx .mounted) same
  · exact same

theorem discard_leaves (traffic : Traffic) (window : DataWindow) (state : MountState)
    (move : Move) :
    (do markData traffic window state; discard (issue move) : Driver Unit).Ensures (fun _ => True)
      rounds session fun _ after =>
        after.status = session.status.markFor traffic window state := by
  rw [ensures_bind, ensures_markData]
  exact still_discard_issue move _

theorem send_leaves (traffic : Traffic) (length : UInt16) :
    (send traffic length).Ensures (fun _ => True) rounds session fun _ after =>
      after.status = session.status.markFor traffic .tx .unmounted := by
  refine (still_discard_issue _).before fun _ after same => ?_
  rw [ensures_markData, same]

theorem setIndex_still_leaves (w : Window) (index : UInt16) {driver : Driver α}
    (still : Still σ rounds driver) :
    (do setIndex w index; driver : Driver α).Ensures (fun _ => True) rounds session fun _ after =>
      after.status = session.status.flag w ∨ after.status = session.status.unflag w := by
  rw [ensures_bind]
  refine (setIndex_leaves w index).mono fun _ middle leaves => ?_
  refine Ensures.mono (still middle) fun _ after same => ?_
  rw [same]
  exact leaves

end Effects

end Driver

/-- Every operation leaves remembered what its answer says. -/
theorem Operation.perform_leaves (operation : Operation) (rounds : Nat) (session : Session σ) :
    operation.perform.Ensures (fun _ => True) rounds session fun answer after =>
      operation.Leaves answer session.status after.status := by
  cases operation with
  | setUp =>
    rw [perform, Driver.ensures_map]
    exact Driver.setUp_leaves.mono fun length _ leaves => ⟨length, rfl, leaves⟩
  | scratchLength | isOutOfBounds _ | dataState _ | timing => exact rfl
  | mountScratch _ | copy _ _ _ | move _ =>
    exact Driver.still_map _ (Driver.still_issue _) session
  | unmountScratch w => exact Driver.ensures_bind.mpr (Driver.still_discard_issue _ session)
  | allocate traffic size =>
    rw [perform, Driver.ensures_map]
    exact Driver.allocate_leaves traffic size
  | discardTx traffic | discardRx traffic =>
    exact Driver.ensures_bind.mpr (Driver.discard_leaves _ _ _ _)
  | mountRx w =>
    rw [perform, Driver.ensures_map]
    exact Driver.mountRx_leaves w
  | send traffic size => exact Driver.ensures_bind.mpr (Driver.send_leaves traffic size)
  | setIndex w index => exact Driver.ensures_bind.mpr (Driver.setIndex_leaves w index)
  | read w count => exact Driver.still_map _ (Driver.still_read w count) session
  | write w bytes => exact Driver.ensures_bind.mpr (Driver.still_write w bytes session)
  | readAt w index count =>
    rw [perform, Driver.ensures_map]
    exact Driver.setIndex_still_leaves w index (Driver.still_read w count)
  | writeAt w index bytes =>
    refine Driver.ensures_bind.mpr ?_
    exact Driver.setIndex_still_leaves w index (Driver.still_write w bytes)

end Operations

def Step.Leaves (before : Session σ) (step : Step χ) (taken : Taken σ) : Prop :=
  match step with
  | .perform operation => operation.Leaves taken.answer before.status taken.session.status
  | .adjust _ => taken.session.status = before.status

namespace Performed

/-- The operation was one after which it is known whether a data window holds a frame. -/
def bearsOn (window : DataWindow) (one : Performed σ) : Bool :=
  match window, one.operation with
  | _, .setUp => true
  | .rx, .discardRx .data => true
  | .rx, .mountRx w => w = .dataRx
  | .tx, .discardTx .data | .tx, .send .data _ => true
  | .tx, .allocate .data _ => one.taken.answer = .granted
  | _, _ => false

/-- The operation put a frame into a data window. -/
def Fills (window : DataWindow) (one : Performed σ) : Prop :=
  match window with
  | .rx => one.operation = .mountRx .dataRx
  | .tx => ∃ size, one.operation = .allocate .data size

def setsUp (one : Performed σ) : Bool := one.operation = .setUp

def allocates (w : Window) (one : Performed σ) : Bool :=
  match one.operation with
  | .allocate traffic _ => traffic.txWindow = w ∧ one.taken.answer = .granted
  | _ => false

def Leaves (one : Performed σ) : Prop :=
  one.operation.Leaves one.taken.answer one.before.status one.taken.session.status

variable {one : Performed σ} {window : DataWindow}

theorem Leaves.mounted_of_bearsOn (leaves : one.Leaves) (bears : one.bearsOn window = true) :
    one.taken.session.status.dataStates.get window = .mounted ↔ one.Fills window := by
  obtain ⟨before, operation, taken⟩ := one
  dsimp only [Leaves] at leaves ⊢
  cases operation with
  | setUp =>
    obtain ⟨length, -, after⟩ := leaves
    cases window <;> simp [after, Fills]
  | allocate traffic size =>
    cases traffic <;> cases window <;> simp_all [bearsOn, Operation.Leaves, Fills]
  | discardTx traffic | discardRx traffic | send traffic size =>
    cases traffic <;> cases window <;> simp_all [bearsOn, Operation.Leaves, Fills]
  | mountRx w => cases window <;> simp_all [bearsOn, Operation.Leaves, Fills]
  | _ => simp [bearsOn] at bears

theorem Leaves.get_of_not_bearsOn (leaves : one.Leaves) (bears : one.bearsOn window = false) :
    one.taken.session.status.dataStates.get window = one.before.status.dataStates.get window := by
  obtain ⟨before, operation, taken⟩ := one
  dsimp only [Leaves] at leaves ⊢
  cases operation with
  | setUp => simp [bearsOn] at bears
  | allocate traffic size =>
    rw [Operation.Leaves] at leaves
    split at leaves
    · cases traffic <;> cases window <;> simp_all [bearsOn]
    · rw [leaves]
  | discardTx traffic | discardRx traffic | send traffic size =>
    rw [leaves]
    cases traffic <;> cases window <;> simp_all [bearsOn]
  | mountRx w =>
    rw [leaves]
    cases window <;> simp_all [bearsOn]
    all_goals split <;> simp
  | setIndex w index | readAt w index count | writeAt w index bytes =>
    rcases leaves with flagged | unflagged
    · rw [flagged, Status.flag_dataStates]
    · rw [unflagged, Status.unflag_dataStates]
  | _ => rw [leaves]

theorem Leaves.scratchLength_of_setsUp (leaves : one.Leaves) (setsUp : one.setsUp = true) :
    one.taken.session.status.scratchLength.map .count = some one.taken.answer := by
  obtain ⟨before, operation, taken⟩ := one
  obtain rfl : operation = .setUp := of_decide_eq_true setsUp
  obtain ⟨length, answered, after⟩ := leaves
  dsimp only at answered after ⊢
  rw [after, answered]
  rfl

theorem Leaves.scratchLength_of_not_setsUp (leaves : one.Leaves) (setsUp : one.setsUp = false) :
    one.taken.session.status.scratchLength = one.before.status.scratchLength := by
  obtain ⟨before, operation, taken⟩ := one
  dsimp only [Leaves] at leaves ⊢
  cases operation with
  | setUp => simp [Performed.setsUp] at setsUp
  | allocate traffic size =>
    rw [Operation.Leaves] at leaves
    split at leaves
    · rw [leaves]
      cases traffic <;> rfl
    · rw [leaves]
  | discardTx traffic | discardRx traffic | send traffic size =>
    rw [leaves]
    cases traffic <;> rfl
  | mountRx w =>
    rw [leaves]
    split <;> rfl
  | setIndex w index | readAt w index count | writeAt w index bytes =>
    rcases leaves with flagged | unflagged
    · rw [flagged]
      rfl
    · rw [unflagged]
      rfl
  | _ => rw [leaves]

theorem Leaves.contains_eq (leaves : one.Leaves) (w : Window) (other : one.sets w = false) :
    one.taken.session.status.outOfBounds.contains w =
      (!one.allocates w && one.before.status.outOfBounds.contains w) := by
  obtain ⟨before, operation, taken⟩ := one
  have flags : operation.Flags taken.answer before.status.outOfBounds
      taken.session.status.outOfBounds := Operation.Leaves.flags leaves
  dsimp only
  cases operation with
  | allocate traffic size =>
    rw [Operation.Flags] at flags
    rw [flags]
    split
    · next granted =>
      by_cases same : w = traffic.txWindow
      · simp [allocates, granted, WindowMask.contains_erase, same]
      · simp [allocates, granted, WindowMask.contains_erase, same, Ne.symm same]
    · next refused => simp [allocates, refused]
  | setIndex v index | readAt v index count | writeAt v index bytes =>
    have apart : w ≠ v := by
      rintro rfl
      simp [sets, Operation.setting?] at other
    rcases flags with flagged | unflagged
    · simp [flagged, allocates, WindowMask.contains_insert, apart]
    · simp [unflagged, allocates, WindowMask.contains_erase, apart]
  | _ =>
    rw [show taken.session.status.outOfBounds = before.status.outOfBounds from flags]
    rfl

end Performed

namespace Session

section Along

variable {session : Session σ} {steps : List (Step χ)} {taken : List (Taken σ)}

theorem Along.mounted_iff (along : Along Step.Leaves session steps taken) (window : DataWindow)
    (start : session.status.dataStates.get window ≠ .mounted) :
    (session.after taken).status.dataStates.get window = .mounted ↔
      ∃ one, session.latest (·.bearsOn window) steps taken = some one ∧ one.Fills window := by
  let Mounted (session : Session σ) : Prop := session.status.dataStates.get window = .mounted
  have decided : Along (Decides Mounted (·.bearsOn window) (·.Fills window)) session steps
      taken := along.mono ?_
  · exact decided.iff_latest start
  intro before step taken leaves
  cases step with
  | adjust change => exact iff_of_eq (congrArg (·.dataStates.get window = .mounted) leaves)
  | perform operation =>
    have leaves : Performed.Leaves ⟨before, operation, taken⟩ := leaves
    rw [Decides]
    split
    · next bears => exact leaves.mounted_of_bearsOn bears
    · next spares =>
      have unchanged := leaves.get_of_not_bearsOn (Bool.eq_false_iff.mpr spares)
      exact iff_of_eq (congrArg (· = .mounted) unchanged)

theorem Along.scratchLength_eq (along : Along Step.Leaves session steps taken)
    (start : session.status.scratchLength = none) :
    (session.after taken).status.scratchLength.map Answer.count =
      (session.latest Performed.setsUp steps taken).map (·.taken.answer) := by
  let kept (found : Option (Performed σ)) (session : Session σ) : Prop :=
    session.status.scratchLength.map Answer.count = found.map (·.taken.answer)
  have none_found : kept none session := by simp [kept, start]
  have ended : kept ((session.latest Performed.setsUp steps taken).or none)
      (session.after taken) := along.latest_keeps ?performs ?adjusts none_found
  case performs =>
    intro found before operation taken leaves same
    have leaves : Performed.Leaves ⟨before, operation, taken⟩ := leaves
    split
    · next setsUp => exact leaves.scratchLength_of_setsUp setsUp
    · next spares =>
      have unchanged := leaves.scratchLength_of_not_setsUp (Bool.eq_false_iff.mpr spares)
      exact (congrArg (Option.map Answer.count) unchanged).trans same
  case adjusts =>
    intro found before change taken leaves same
    exact (congrArg (·.scratchLength.map Answer.count) leaves).trans same
  simpa only [kept, Option.or_none] using ended

end Along

variable [Host σ] [Adjustable σ χ] {rounds : Nat} {steps : List (Step χ)}

theorem run_leaves (session : Session σ) :
    EndsIn (fun _ => True) (session.run rounds steps) fun taken =>
      Along Step.Leaves session steps taken := by
  refine run_along (fun step _ before => ?_) session
  cases step with
  | adjust change => exact rfl
  | perform operation =>
    refine perform_endsIn ((operation.perform_leaves rounds before).mono ?_)
    exact fun answer after leaves log => leaves

/-- What a step spares: the state of a data window on which its operation does not bear, and the
size of the scratch memory if it does not set up. -/
def Spared (before : Session σ) (step : Step χ) (taken : Taken σ) : Prop :=
  match step with
  | .adjust _ => taken.session.status = before.status
  | .perform operation =>
    (∀ window, Performed.bearsOn window ⟨before, operation, taken⟩ = false →
      taken.session.status.dataStates.get window = before.status.dataStates.get window) ∧
    (operation ≠ .setUp → taken.session.status.scratchLength = before.status.scratchLength)

/-- What is remembered at the end of a run is what the latest operations that bear on it made it. -/
structure AsLatest (session : Session σ) (steps : List (Step χ)) (taken : List (Taken σ)) :
    Prop where
  /-- The latest operation that bears on the data window has filled it. -/
  mounted_iff (window : DataWindow) :
    (session.after taken).status.dataStates.get window = .mounted ↔
      ∃ one, session.latest (·.bearsOn window) steps taken = some one ∧ one.Fills window
  /-- The size that the latest set-up has returned. -/
  scratchLength_eq : (session.after taken).status.scratchLength.map Answer.count =
    (session.latest Performed.setsUp steps taken).map (·.taken.answer)

/-- From the start, at every moment of a run, a data window is remembered as mounted if and only
if the latest operation that bears on it filled it, and the size of the scratch memory is the one
that the latest set-up returned. No other operation changes them. -/
theorem states_as_latest {host : σ} {timing : Timing} {taken : List (Taken σ)}
    (finished : (start host timing).run rounds steps = .ok taken) :
    (∀ k, AsLatest (start host timing) (steps.take k) (taken.take k)) ∧
      Along Spared (start host timing) steps taken := by
  have along := (run_leaves (start host timing)).of_ok finished
  refine ⟨fun k => ⟨fun window => ?_, ?_⟩, along.mono fun before step taken leaves => ?_⟩
  · exact (along.take k).mounted_iff window (by cases window <;> nofun)
  · exact (along.take k).scratchLength_eq rfl
  · cases step with
    | adjust change => exact leaves
    | perform operation =>
      have leaves : Performed.Leaves ⟨before, operation, taken⟩ := leaves
      exact ⟨fun window => leaves.get_of_not_bearsOn,
        fun other => leaves.scratchLength_of_not_setsUp (decide_eq_false other)⟩

/-- Frames come and go while every move is late; in between the pool for data has no room. -/
def trafficSteps : List (Step ScriptedHost.Setting) :=
  [.perform .setUp, .perform (.mountRx .dataRx), .perform (.allocate .data 4),
    .adjust { tapes16 := [(Register.dataFree, [0])] }, .perform (.allocate .data 4),
    .perform (.move ⟨.dataTx, .dataPool, false, 0⟩), .perform (.discardRx .data),
    .perform (.mountRx .mgmtRx), .perform (.send .data 4)]

def trafficHost : ScriptedHost :=
  .ofSetting { tapes16 := [(0x0b, [64]), (Register.dataFree, [8]), (0x2a, [0, 4])],
               clockStep := some 30000 } true

theorem states_as_latest_trafficSteps :
    ∃ taken, (start trafficHost {}).run 2 trafficSteps = .ok taken ∧
      taken.map (·.session.status.dataStates) =
        [⟨.unmounted, .unmounted⟩, ⟨.mounted, .unmounted⟩, ⟨.mounted, .mounted⟩,
          ⟨.mounted, .mounted⟩, ⟨.mounted, .mounted⟩, ⟨.mounted, .mounted⟩,
          ⟨.unmounted, .mounted⟩, ⟨.unmounted, .mounted⟩, ⟨.unmounted, .unmounted⟩] ∧
      ((start trafficHost {}).after taken).status.scratchLength = some 64 ∧
      (∀ k, AsLatest (start trafficHost {}) (trafficSteps.take k) (taken.take k)) ∧
      Along Spared (start trafficHost {}) trafficSteps taken := by
  obtain ⟨taken, finished, states, size⟩ : ∃ taken,
      (start trafficHost {}).run 2 trafficSteps = .ok taken ∧
        taken.map (·.session.status.dataStates) =
          [⟨.unmounted, .unmounted⟩, ⟨.mounted, .unmounted⟩, ⟨.mounted, .mounted⟩,
            ⟨.mounted, .mounted⟩, ⟨.mounted, .mounted⟩, ⟨.mounted, .mounted⟩,
            ⟨.unmounted, .mounted⟩, ⟨.unmounted, .mounted⟩, ⟨.unmounted, .unmounted⟩] ∧
        ((start trafficHost {}).after taken).status.scratchLength = some 64 :=
    exists_ok_of_endsIn (by decide +kernel)
  exact ⟨taken, finished, states, size, states_as_latest finished⟩

end Session

end RadioWindows
