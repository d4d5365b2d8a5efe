import RadioWindows.Proofs.Chip.Allocating
import RadioWindows.Proofs.Runs

/-! What the driver remembers of the data windows against what the chip has in them. The window for
received data agrees after every step. The window for outgoing data agrees until an allocation
fails on the chip while the window holds a frame: the frame is released, and the driver goes on
remembering it. -/

namespace RadioWindows

/-- The operations that keep to the roles of the windows. -/
def Operation.InRole : Operation → Prop
  | setUp | mountScratch _ | unmountScratch _ | move _ => False
  | mountRx w => w = .dataRx ∨ w = .mgmtRx
  | _ => True

def DataWindow.filling : DataWindow → MountKind
  | rx => .frame
  | tx => .segment .data

namespace Session

def Holds (session : Session Chip) (window : DataWindow) : Prop :=
  (session.host.window window.window).mount.kind = window.filling

instance (session : Session Chip) (window : DataWindow) : Decidable (session.Holds window) :=
  inferInstanceAs (Decidable ((session.host.window window.window).mount.kind = window.filling))

/-- A data window is remembered as mounted just when it holds a frame. -/
def Agrees (session : Session Chip) (window : DataWindow) : Prop :=
  session.status.dataStates.get window = .mounted ↔ session.Holds window

instance (session : Session Chip) (window : DataWindow) : Decidable (session.Agrees window) :=
  inferInstanceAs (Decidable (_ ↔ session.Holds window))

end Session

namespace Chip

/-- A step drops a remembered frame: an allocation of a data buffer fails on the chip. -/
def Drops (before : Session Chip) (step : Step Change) (taken : Taken Chip) : Prop :=
  (∃ size, step = .perform (.allocate .data size)) ∧
    taken.answer = .refused (.allocationFailed .dataTx) ∧
    before.status.dataStates.get .tx = .mounted

/-- The invariant: the window for received data agrees, and what the window for outgoing data holds
is remembered. -/
structure Remembers (session : Session Chip) : Prop where
  room : session.host.Roomy
  rx : session.Agrees .rx
  tx : session.Holds .tx → session.status.dataStates.get .tx = .mounted

/-- How a step bears on the window for outgoing data. -/
structure Settles (before : Session Chip) (step : Step Change) (taken : Taken Chip) : Prop where
  dropped : Drops before step taken → ¬taken.session.Agrees .tx
  spared : ¬Drops before step taken → before.Agrees .tx → taken.session.Agrees .tx

section Frames

variable {operation : Operation} {before after : Session Chip} {window : DataWindow}

def Still (window : DataWindow) (before after : Session Chip) : Prop :=
  after.status.dataStates.get window = before.status.dataStates.get window ∧
    (after.host.window window.window).mount.kind = (before.host.window window.window).mount.kind

theorem Still.holds_iff (still : Still window before after) :
    after.Holds window ↔ before.Holds window := by
  rw [Session.Holds, still.2, Session.Holds]

theorem Still.agrees_iff (still : Still window before after) :
    after.Agrees window ↔ before.Agrees window := by
  rw [Session.Agrees, still.1, still.holds_iff, Session.Agrees]

theorem Frame.still_of_apart (frame : Frame operation before after)
    (unmarked : window ∉ operation.marks) (apart : window.window ∉ operation.targets) :
    Still window before after :=
  ⟨frame.state window unmarked, by rw [frame.window window.window apart]⟩

theorem Frame.still_of_copies (frame : Frame operation before after)
    (unmarked : window ∉ operation.marks)
    (copies : ∀ move ∈ operation.moves, ∃ src dst, move.pool = .copy src dst) :
    Still window before after :=
  ⟨frame.state window unmarked, frame.kinds copies window.window⟩

theorem Remembers.of_still (remembers : Remembers before) (room : after.host.Roomy)
    (still : ∀ window, Still window before after) : Remembers after where
  room := room
  rx := (still .rx).agrees_iff.mpr remembers.rx
  tx holds := (still .tx).1.trans (remembers.tx ((still .tx).holds_iff.mp holds))

end Frames

section Steps

variable {rounds : Nat} {session : Session Chip}

def Upholds (rounds : Nat) (session : Session Chip) (operation : Operation) : Prop :=
  operation.perform.Ensures (session.status.timing.Allows rounds) rounds session
    fun answer after => after.status.timing = session.status.timing ∧ Remembers after ∧
      ∀ log, Settles session (.perform operation) ⟨answer, log, after⟩

theorem upholds_of_still {operation : Operation} (remembers : Remembers session)
    (other : ∀ size, operation ≠ .allocate .data size)
    (still : ∀ after, Frame operation session after → ∀ window, Still window session after) :
    Upholds rounds session operation := by
  have frames := ensures_frame operation rounds remembers.room
  refine frames.mono fun answer after framed => ?_
  have kept := still after framed.2
  refine ⟨framed.2.timing, remembers.of_still framed.1 kept, fun log => ⟨fun drops => ?_, ?_⟩⟩
  · obtain ⟨⟨size, same⟩, -⟩ := drops
    exact absurd (Step.perform.inj same) (other size)
  · exact fun _ agreed => (kept .tx).agrees_iff.mpr agreed

theorem not_holds_of_nothing {after : Session Chip} {window : DataWindow}
    (mount : (after.host.window window.window).mount = .nothing) : ¬after.Holds window := by
  rw [Session.Holds, mount]
  cases window <;> decide

theorem upholds_of_emptied {operation : Operation} (remembers : Remembers session)
    (other : ∀ size, operation ≠ .allocate .data size) (unmarked : .rx ∉ operation.marks)
    (apart : .dataRx ∉ operation.targets)
    (empties : operation.perform.Ensures (session.status.timing.Allows rounds) rounds session
      fun _ after => after.status.dataStates.get .tx = .unmounted ∧
        (after.host.window .dataTx).mount = .nothing) :
    Upholds rounds session operation := by
  have framed := ensures_frame operation rounds remembers.room
  refine (framed.and empties).mono fun answer after established => ?_
  obtain ⟨⟨room, frame⟩, unmounted, mount⟩ := established
  have empty : ¬after.Holds .tx := not_holds_of_nothing mount
  have rx := frame.still_of_apart unmarked apart
  refine ⟨frame.timing, ⟨room, rx.agrees_iff.mpr remembers.rx, fun holds => absurd holds empty⟩,
    fun log => ⟨fun drops => ?_, fun _ _ => ?_⟩⟩
  · obtain ⟨⟨size, same⟩, -⟩ := drops
    exact absurd (Step.perform.inj same) (other size)
  · refine iff_of_false (fun mounted => ?_) empty
    rw [unmounted] at mounted
    cases mounted

theorem upholds_discardTx (remembers : Remembers session) :
    Upholds rounds session (.discardTx .data) := by
  refine upholds_of_emptied remembers (by simp) (by decide) (by decide) ?_
  simp only [Operation.perform, Driver.discardTx, Driver.markData, Driver.issue,
    Driver.ensures_bind, Driver.ensures_modify, Driver.ensures_discard, Driver.ensures_get,
    Driver.ensures_lift, Driver.ensures_pure]
  exact (ensures_release _ _ .dataTx .data 0 remembers.room).mono fun _ after mount => ⟨rfl, mount⟩

theorem upholds_send (remembers : Remembers session) (size : UInt16) :
    Upholds rounds session (.send .data size) := by
  refine upholds_of_emptied remembers (by simp) (by simp [Operation.marks])
    (by simp [Traffic.txWindow]) ?_
  simp only [Operation.perform, Driver.send, Driver.markData, Driver.issue,
    Driver.ensures_bind, Driver.ensures_modify, Driver.ensures_discard, Driver.ensures_get,
    Driver.ensures_lift, Driver.ensures_pure]
  exact (ensures_send _ _ .dataTx size remembers.room).mono fun _ after sent => ⟨rfl, sent.1⟩

theorem upholds_allocate (remembers : Remembers session) (size : UInt16) :
    Upholds rounds session (.allocate .data size) := by
  have framed := ensures_frame (.allocate .data size) rounds remembers.room
  have allocates : (Operation.perform (.allocate .data size)).Ensures
      (session.status.timing.Allows rounds) rounds session fun answer after =>
        ∃ verdict, answer = .ofVerdict verdict ∧ Allocated .data size session verdict after := by
    rw [Operation.perform, Driver.ensures_map]
    exact (ensures_allocate remembers.room).mono fun verdict after outcome =>
      ⟨verdict, rfl, outcome⟩
  refine (framed.and allocates).mono fun answer after established => ?_
  obtain ⟨⟨room, frame⟩, verdict, rfl, outcome⟩ := established
  have rx : Still .rx session after := frame.still_of_apart (by simp [Operation.marks])
    (by simp [Traffic.txWindow, DataWindow.window])
  suffices tx : (after.Holds .tx → after.status.dataStates.get .tx = .mounted) ∧
      ∀ log, Settles session (.perform (.allocate .data size)) ⟨.ofVerdict verdict, log, after⟩ from
    ⟨frame.timing, ⟨room, rx.agrees_iff.mpr remembers.rx, tx.1⟩, tx.2⟩
  cases outcome with
  | insufficient lacking =>
    refine ⟨remembers.tx, fun log => ⟨fun drops => ?_, fun _ agreed => agreed⟩⟩
    exact absurd drops.2.1 (by simp [Answer.ofVerdict])
  | failed _ refused mount status =>
    -- The release has emptied the window, but what is remembered of it has not changed.
    have empty : ¬after.Holds .tx := not_holds_of_nothing mount
    refine ⟨fun holds => absurd holds empty,
      fun log => ⟨fun drops agreed => ?_, fun spared _ => ?_⟩⟩
    · refine empty (agreed.mp ?_)
      rw [status]
      exact drops.2.2
    · refine iff_of_false (fun mounted => spared ⟨⟨size, rfl⟩, rfl, ?_⟩) empty
      rw [← status]
      exact mounted
  | granted _ fits mount free sent state =>
    have holds : after.Holds .tx := congrArg Mount.kind mount
    refine ⟨fun _ => state rfl,
      fun log => ⟨fun drops => ?_, fun _ _ => iff_of_true (state rfl) holds⟩⟩
    exact absurd drops.2.1 (by simp [Answer.ofVerdict])

theorem upholds_of_rx {operation : Operation} (remembers : Remembers session)
    (other : ∀ size, operation ≠ .allocate .data size) (unmarked : .tx ∉ operation.marks)
    (apart : .dataTx ∉ operation.targets)
    (agrees : operation.perform.Ensures (session.status.timing.Allows rounds) rounds session
      fun _ after => after.Agrees .rx) :
    Upholds rounds session operation := by
  have framed := ensures_frame operation rounds remembers.room
  refine (framed.and agrees).mono fun answer after established => ?_
  obtain ⟨⟨room, frame⟩, rx⟩ := established
  have tx : Still .tx session after := frame.still_of_apart unmarked apart
  refine ⟨frame.timing, ⟨room, rx, fun holds => ?_⟩, fun log => ⟨fun drops => ?_, ?_⟩⟩
  · exact tx.1.trans (remembers.tx (tx.holds_iff.mp holds))
  · obtain ⟨⟨size, same⟩, -⟩ := drops
    exact absurd (Step.perform.inj same) (other size)
  · exact fun _ agreed => tx.agrees_iff.mpr agreed

theorem upholds_discardRx (remembers : Remembers session) :
    Upholds rounds session (.discardRx .data) := by
  refine upholds_of_rx remembers (by simp) (by simp [Operation.marks])
    (by simp [Traffic.rxWindow]) ?_
  simp only [Operation.perform, Driver.discardRx, Driver.markData, Driver.issue,
    Driver.ensures_bind, Driver.ensures_modify, Driver.ensures_discard, Driver.ensures_get,
    Driver.ensures_lift, Driver.ensures_pure]
  refine (ensures_release _ _ .dataRx .data 0 remembers.room).mono fun _ after mount => ?_
  exact iff_of_false (by simp [Status.mark, MountStates.set, MountStates.get])
    (not_holds_of_nothing mount)

theorem upholds_mountRx (remembers : Remembers session) :
    Upholds rounds session (.mountRx .dataRx) := by
  refine upholds_of_rx remembers (by simp) (by simp [Operation.marks]) (by simp) ?_
  simp only [Operation.perform, Driver.mountRx, Driver.issue, Driver.ensures_map,
    Driver.ensures_bind, Driver.ensures_get, Driver.ensures_lift, Program.ensures_raiseIf]
  refine (ensures_mountFrame _ _ .dataRx 0).mono fun count after kind => ?_
  simp only [answer_report, if_true, Driver.ensures_modify, Driver.ensures_bind,
    Driver.ensures_pure, endsIn_ok]
  split
  · exact iff_of_true rfl kind
  · exact iff_of_true rfl kind

theorem upholds_of_apart {operation : Operation} (remembers : Remembers session)
    (other : ∀ size, operation ≠ .allocate .data size) (unmarked : operation.marks = [])
    (apart : ∀ window : DataWindow, window.window ∉ operation.targets) :
    Upholds rounds session operation :=
  upholds_of_still remembers other fun _ frame window =>
    frame.still_of_apart (unmarked ▸ List.not_mem_nil) (apart window)

theorem upholds_of_copies {operation : Operation} (remembers : Remembers session)
    (other : ∀ size, operation ≠ .allocate .data size) (unmarked : operation.marks = [])
    (copies : ∀ move ∈ operation.moves, ∃ src dst, move.pool = .copy src dst) :
    Upholds rounds session operation :=
  upholds_of_still remembers other fun _ frame _ =>
    frame.still_of_copies (unmarked ▸ List.not_mem_nil) copies

theorem upholds_inRole {operation : Operation} (role : operation.InRole)
    (remembers : Remembers session) : Upholds rounds session operation := by
  have elsewhere {w : Window} (apart : w ≠ .dataRx ∧ w ≠ .dataTx) (window : DataWindow) :
      window.window ≠ w := by
    cases window
    · exact apart.1.symm
    · exact apart.2.symm
  have idle (other : ∀ size, operation ≠ .allocate .data size) (unmarked : operation.marks = [])
      (none : operation.moves = []) : Upholds rounds session operation :=
    upholds_of_copies remembers other unmarked fun _ issued =>
      (List.not_mem_nil (none ▸ issued)).elim
  cases operation with
  | setUp | mountScratch _ | unmountScratch _ | move _ => exact role.elim
  | allocate traffic size =>
    cases traffic with
    | data => exact upholds_allocate remembers size
    | management =>
      refine upholds_of_apart remembers (by simp) rfl fun window => ?_
      simp [elsewhere (w := .mgmtTx) (by decide), Traffic.txWindow]
  | discardTx traffic =>
    cases traffic with
    | data => exact upholds_discardTx remembers
    | management =>
      refine upholds_of_apart remembers (by simp) rfl fun window => ?_
      simp [elsewhere (w := .mgmtTx) (by decide), Traffic.txWindow]
  | discardRx traffic =>
    cases traffic with
    | data => exact upholds_discardRx remembers
    | management =>
      refine upholds_of_apart remembers (by simp) rfl fun window => ?_
      simp [elsewhere (w := .mgmtRx) (by decide), Traffic.rxWindow]
  | send traffic size =>
    cases traffic with
    | data => exact upholds_send remembers size
    | management =>
      refine upholds_of_apart remembers (by simp) rfl fun window => ?_
      simp [elsewhere (w := .mgmtTx) (by decide), Traffic.txWindow]
  | mountRx w =>
    obtain rfl | rfl := role
    · exact upholds_mountRx remembers
    · refine upholds_of_apart remembers (by simp) rfl fun window => ?_
      simp [elsewhere (w := .mgmtRx) (by decide)]
  | copy src dst size =>
    refine upholds_of_copies remembers (by simp) rfl fun move issued => ⟨src, dst, ?_⟩
    rw [List.mem_singleton.mp issued]
  | scratchLength | isOutOfBounds _ | dataState _ | timing | setIndex _ _ | read _ _ | readAt _ _ _
  | write _ _ | writeAt _ _ _ => exact idle (by simp) rfl rfl

theorem upholds_setUp (rounds : Nat) (session : Session Chip) (room : session.host.Roomy)
    (scratch : (session.host.window .dataTx).mount = .scratch)
    (empty : (session.host.window .dataRx).mount = .nothing) :
    Operation.setUp.perform.Ensures (session.status.timing.Allows rounds) rounds session
      fun _ after => after.status.timing = session.status.timing ∧ Remembers after ∧
        after.Agrees .tx := by
  have framed := ensures_frame .setUp rounds room
  have settled : Operation.setUp.perform.Ensures (session.status.timing.Allows rounds) rounds
      session fun _ after => after.status.dataStates = .fresh ∧
        (after.host.window .dataTx).mount = .nothing := by
    simp only [Operation.perform, Driver.setUp, Driver.unmountScratch, Driver.mountScratch,
      Driver.issue, Driver.ensures_map, Driver.ensures_bind, Driver.ensures_lift,
      Program.ensures_log, Driver.ensures_discard, Driver.ensures_get, Driver.ensures_modify,
      Driver.ensures_pure]
    have taken := ensures_unmountScratch session.status.timing rounds .dataTx 0 scratch
    have confined := ensures_issue_confined session.status.timing rounds
      ⟨.dataTx, .scratchPool, false, 0⟩ room
    refine (taken.and confined).mono fun _ middle released => ?_
    have mounted := ensures_issue_confined session.status.timing rounds
      ⟨.scratch, .scratchPool, true, 0⟩ released.2.1
    refine mounted.mono fun _ after moved => ⟨rfl, ?_⟩
    rw [moved.2.1.elsewhere .dataTx (by decide)]
    exact released.1
  refine (framed.and settled).mono fun _ after established => ?_
  obtain ⟨⟨afterRoom, frame⟩, states, mount⟩ := established
  have received : (after.host.window .dataRx).mount = .nothing := by
    rw [frame.window .dataRx (by decide)]
    exact empty
  have agrees {window : DataWindow} (mount : (after.host.window window.window).mount = .nothing) :
      after.Agrees window := by
    refine iff_of_false (fun mounted => ?_) (not_holds_of_nothing mount)
    rw [states] at mounted
    cases window <;> cases mounted
  exact ⟨frame.timing, ⟨afterRoom, agrees received,
    fun holds => absurd holds (not_holds_of_nothing mount)⟩, agrees mount⟩

end Steps

section Runs

def adjusted (chip : Chip) (changes : List Change) : Chip :=
  changes.foldl (fun chip change => adjust change chip) chip

variable {timing : Timing} {rounds : Nat} {changes : List Change} {steps : List (Step Change)}
  {session : Session Chip} {taken : List (Taken Chip)}

theorem windows_adjusted (changes : List Change) (chip : Chip) :
    (chip.adjusted changes).windows = chip.windows := by
  induction changes generalizing chip with
  | nil => rfl
  | cons change rest ih => exact (ih _).trans (windows_adjust change chip)

theorem stock_adjusted (untouched : ∀ traffic free, .setFree traffic free ∉ changes)
    (chip : Chip) (traffic : Traffic) :
    (chip.adjusted changes).stock traffic = chip.stock traffic := by
  induction changes generalizing chip with
  | nil => rfl
  | cons change rest ih =>
    have first : ∀ owner free, change ≠ .setFree owner free := fun owner free same =>
      untouched owner free (same ▸ List.mem_cons_self)
    have later := ih (fun owner free member =>
      untouched owner free (List.mem_cons_of_mem _ member)) (adjust change chip)
    exact later.trans (stock_adjust first chip traffic)

theorem upholds_step (timing : Timing) (rounds : Nat)
    (roles : ∀ operation, .perform operation ∈ steps → operation.InRole)
    (untouched : ∀ traffic free, .adjust (.setFree traffic free) ∉ steps)
    (step : Step Change) (member : step ∈ steps) (session : Session Chip)
    (kept : session.status.timing = timing ∧ Remembers session) :
    EndsIn (timing.Allows rounds) (session.take rounds step) fun taken =>
      (taken.session.status.timing = timing ∧ Remembers taken.session) ∧
        Remembers taken.session ∧ Settles session step taken := by
  obtain ⟨rfl, remembers⟩ := kept
  cases step with
  | perform operation =>
    refine Session.perform_endsIn ?_
    have upholds : Upholds rounds session operation :=
      upholds_inRole (roles operation member) remembers
    exact upholds.mono fun _ _ upheld log =>
      ⟨⟨upheld.1, upheld.2.1⟩, upheld.2.1, upheld.2.2 log⟩
  | adjust change =>
    have still : ∀ window, Still window session
        { session with host := adjust change session.host } := fun window =>
      ⟨rfl, congrArg (·.mount.kind) (window_adjust ..)⟩
    have room : (adjust change session.host).Roomy :=
      remembers.room.adjust fun owner free same => untouched owner free (same ▸ member)
    have after := remembers.of_still room still
    exact ⟨⟨rfl, after⟩, after, ⟨fun drops => absurd drops.1 (by simp),
      fun _ agreed => (still .tx).agrees_iff.mpr agreed⟩⟩

/-- Along a run the window for outgoing data agrees just as long as no step drops a frame. -/
theorem agrees_iff_spared (along : Session.Along Settles session steps taken)
    (agreed : session.Agrees .tx) :
    (∀ one ∈ taken, one.session.Agrees .tx) ↔
      Session.Along (fun before step taken => ¬Drops before step taken) session steps taken := by
  induction steps generalizing session taken with
  | nil =>
    cases taken with
    | nil => simp [Session.Along]
    | cons first others => exact along.elim
  | cons step steps ih =>
    cases taken with
    | nil => exact along.elim
    | cons first others =>
      rw [List.forall_mem_cons]
      constructor
      · intro all
        have spared : ¬Drops session step first := fun drops => along.1.dropped drops all.1
        exact ⟨spared, (ih along.2 all.1).mp all.2⟩
      · intro spared
        have now := along.1.spared spared.1 agreed
        exact ⟨now, (ih along.2 now).mpr spared.2⟩

theorem run_remembers (roles : ∀ operation, .perform operation ∈ steps → operation.InRole)
    (untouched : ∀ traffic free, .adjust (.setFree traffic free) ∉ steps)
    (fixed : ∀ traffic free, .setFree traffic free ∉ changes) :
    EndsIn (timing.Allows rounds)
      ((Session.start (atReset.adjusted changes) timing).run rounds (.perform .setUp :: steps))
      fun taken => (∀ one ∈ taken, one.session.Agrees .rx ∧
          (one.session.Holds .tx → one.session.status.dataStates.get .tx = .mounted)) ∧
        ((∀ one ∈ taken, one.session.Agrees .tx) ↔
          Session.Along (fun before step taken => ¬Drops before step taken)
            (Session.start (atReset.adjusted changes) timing) (.perform .setUp :: steps)
            taken) := by
  have window (w : Window) : (atReset.adjusted changes).window w = atReset.window w := by
    rw [Chip.window, windows_adjusted, Chip.window]
  have room : (atReset.adjusted changes).Roomy := fun traffic => by
    rw [stock_adjusted fixed, stock_atReset]
    exact capacity_lt traffic
  have sets := upholds_setUp rounds (Session.start (atReset.adjusted changes) timing) room
    (congrArg ChipWindow.mount (window .dataTx)) (congrArg ChipWindow.mount (window .dataRx))
  have first : EndsIn (timing.Allows rounds)
      ((Session.start (atReset.adjusted changes) timing).perform rounds .setUp) fun taken =>
        taken.session.status.timing = timing ∧ Remembers taken.session ∧
          taken.session.Agrees .tx :=
    Session.perform_endsIn (sets.mono fun _ _ upheld _ => upheld)
  rw [Session.run, endsIn_bind]
  refine EndsIn.mono first fun ready upheld => ?_
  obtain ⟨sameTiming, remembers, agreed⟩ := upheld
  have rest := Session.run_endsIn (upholds_step timing rounds roles untouched)
    ⟨sameTiming, remembers⟩
  rw [endsIn_bind]
  refine EndsIn.mono rest fun others along => ?_
  have every := Session.Along.forall_mem (along.2.mono fun _ _ _ upheld => upheld.1)
  have settles := along.2.mono fun _ _ _ upheld => upheld.2
  refine ⟨List.forall_mem_cons.mpr ⟨⟨remembers.rx, remembers.tx⟩, fun one member =>
    ⟨(every one member).rx, (every one member).tx⟩⟩, ?_⟩
  rw [List.forall_mem_cons, agrees_iff_spared settles agreed]
  exact and_congr_left fun _ => iff_of_true agreed fun drops => absurd drops.1 (by simp)

end Runs

/-- After every step of every run that keeps to the roles, the window for received data agrees, and
the window for outgoing data holds nothing that is not remembered. The latter agrees after every
step just in the runs where no allocation fails on the chip while a frame is remembered. -/
theorem data_states_agree (timing : Timing) (rounds : Nat) (changes : List Change)
    (steps : List (Step Change)) (moving : timing.pollInterval ≠ 0)
    (enough : timing.enoughRounds ≤ rounds)
    (roles : ∀ operation, .perform operation ∈ steps → operation.InRole)
    (untouched : ∀ traffic free, .adjust (.setFree traffic free) ∉ steps)
    (fixed : ∀ traffic free, .setFree traffic free ∉ changes)
    (clock : (Session.start (atReset.adjusted changes) timing).run rounds
      (.perform .setUp :: steps) ≠ .error .clockOverflow) :
    ∃ taken, (Session.start (atReset.adjusted changes) timing).run rounds
        (.perform .setUp :: steps) = .ok taken ∧
      (∀ one ∈ taken, one.session.Agrees .rx ∧
        (one.session.Holds .tx → one.session.status.dataStates.get .tx = .mounted)) ∧
      ((∀ one ∈ taken, one.session.Agrees .tx) ↔
        Session.Along (fun before step taken => ¬Drops before step taken)
          (Session.start (atReset.adjusted changes) timing) (.perform .setUp :: steps) taken) := by
  refine (run_remembers roles untouched fixed).exists_ok fun halt halted allows => ?_
  rw [allows.eq_clockOverflow moving enough] at halted
  exact clock halted

/-- A buffer is allocated, and allocated again while the chip fails. -/
def failingSteps : List (Step Change) :=
  [.perform (.allocate .data 4), .adjust (.setFailing true), .perform (.allocate .data 4)]

theorem data_states_agree_failingSteps :
    ∃ taken, (Session.start (atReset.adjusted []) {}).run 2002
        (.perform .setUp :: failingSteps) = .ok taken ∧
      (∀ one ∈ taken, one.session.Agrees .rx ∧
        (one.session.Holds .tx → one.session.status.dataStates.get .tx = .mounted)) ∧
      ((∀ one ∈ taken, one.session.Agrees .tx) ↔
        Session.Along (fun before step taken => ¬Drops before step taken)
          (Session.start (atReset.adjusted []) {}) (.perform .setUp :: failingSteps) taken) := by
  refine data_states_agree {} 2002 [] failingSteps (by decide) (by decide) ?_ ?_ (by simp) ?_
  · intro operation member
    simp only [failingSteps, List.mem_cons, Step.perform.injEq, reduceCtorEq, false_or,
      List.not_mem_nil, or_false] at member
    obtain rfl | rfl := member <;> trivial
  · intro traffic free
    simp [failingSteps]
  · intro halted
    exact absurd (congrArg Except.isOk halted) (by decide +kernel)

/-- The failed allocation leaves the window for outgoing data empty and remembered as mounted. -/
theorem data_states_disagree :
    ∃ taken, (Session.start (atReset.adjusted []) {}).run 2002
        (.perform .setUp :: failingSteps) = .ok taken ∧
      ∃ one ∈ taken, one.session.status.dataStates.get .tx = .mounted ∧
        (one.session.host.window .dataTx).mount = .nothing := by
  refine exists_ok_of_endsIn ?_
  decide +kernel

end Chip

end RadioWindows
