import Mathlib.Data.List.Forall2
import RadioWindows.Proofs.Chip.Answering
import RadioWindows.Proofs.Scripted.Recording
import RadioWindows.Proofs.Telling
import RadioWindows.Proofs.Understanding

/-! The log against what the host has been told. A host keeps a ledger of the faults reported to it
and of the control words written to it; what a run adds to the ledger and what it logs are two
tellings of the same events. -/

namespace RadioWindows

namespace Request

def faults : Request → List Fault
  | report fault => [fault]
  | _ => []

/-- The control word that a request writes, with the window it is written for. -/
def words : Request → List (Window × ControlWord)
  | write16 register value => (Window.owning? (·.control) register).toList.map (·, ⟨value⟩)
  | _ => []

theorem IsLook.tells_nothing {request : Request} (look : request.IsLook) :
    request.faults = [] ∧ request.words = [] := by
  cases request <;> first | exact look.elim | exact ⟨rfl, rfl⟩

end Request

namespace Event

def record? : Event → Option LogRecord
  | noted record => some record
  | asked _ => none

def faults : Event → List Fault
  | noted _ => []
  | asked request => request.faults

def words : Event → List (Window × ControlWord)
  | noted _ => []
  | asked request => request.words

end Event

/-- What a host keeps of the faults reported to it and of the control words written to it. -/
structure Ledger (σ : Type) [Host σ] where
  /-- Whether the host keeps the ledger. -/
  kept : σ → Prop
  faults : σ → List Fault
  words : σ → List (Window × ControlWord)
  answers : ∀ request host, kept host →
    EndsIn (fun _ => True) (Host.answer request host) fun answered => kept answered.2 ∧
      faults answered.2 = faults host ++ request.faults ∧
      words answered.2 = words host ++ request.words

namespace Ledger

variable {σ χ α : Type} [Host σ] (ledger : Ledger σ) {rounds : Nat}

structure Gains (host after : σ) (faults : List Fault) (words : List (Window × ControlWord)) :
    Prop where
  kept : ledger.kept after
  faults_eq : ledger.faults after = ledger.faults host ++ faults
  words_eq : ledger.words after = ledger.words host ++ words

variable {ledger} {host middle after : σ}

theorem Gains.refl (kept : ledger.kept host) : ledger.Gains host host [] [] :=
  ⟨kept, (List.append_nil _).symm, (List.append_nil _).symm⟩

theorem Gains.trans {faults more : List Fault} {words others : List (Window × ControlWord)}
    (first : ledger.Gains host middle faults words)
    (second : ledger.Gains middle after more others) :
    ledger.Gains host after (faults ++ more) (words ++ others) where
  kept := second.kept
  faults_eq := by rw [second.faults_eq, first.faults_eq, List.append_assoc]
  words_eq := by rw [second.words_eq, first.words_eq, List.append_assoc]

theorem gains_answer (request : Request) (kept : ledger.kept host) :
    EndsIn (fun _ => True) (Host.answer request host) fun answered =>
      ledger.Gains host answered.2 request.faults request.words :=
  (ledger.answers request host kept).mono fun _ ⟨kept, faults, words⟩ => ⟨kept, faults, words⟩

theorem gains_poll {timeout : UInt64} {interval : UInt32} {condition : Condition}
    (kept : ledger.kept host) :
    EndsIn (fun _ => True) (poll rounds timeout interval condition host) fun held =>
      ledger.Gains host held.2 [] [] := by
  let unchanged (between : σ) : Prop := ledger.Gains host between [] []
  have start : unchanged host := .refl kept
  have endless : (fun _ : Halt => True) .outOfRounds := trivial
  refine poll_keeps endless (fun request between look before => ?_) start
  refine (gains_answer request before.kept).mono fun answered gained => ?_
  rw [look.tells_nothing.1, look.tells_nothing.2] at gained
  exact before.trans gained

/-- A run logs, and adds to the ledger, what happens on one of the paths of its program. -/
theorem gains_run (program : Program α) (kept : ledger.kept host) :
    EndsIn (fun _ => True) (program.run rounds host) fun out =>
      ∃ events, program.Path events out.value ∧ out.log = events.filterMap Event.record? ∧
        ledger.Gains host out.host (events.flatMap Event.faults) (events.flatMap Event.words) := by
  induction program generalizing host with
  | done value => exact ⟨[], ⟨rfl, rfl⟩, rfl, .refl kept⟩
  | ask request next ih =>
    rw [Program.run, endsIn_bind]
    refine (gains_answer request kept).mono fun answered gained => ?_
    refine (ih answered.1 gained.kept).mono ?_
    rintro out ⟨events, path, log, gains⟩
    exact ⟨.asked request :: events, ⟨answered.1, events, rfl, path⟩, log, gained.trans gains⟩
  | note record next ih =>
    rw [Program.run, endsIn_bind]
    refine (ih kept).mono ?_
    rintro out ⟨events, path, log, gains⟩
    exact ⟨.noted record :: events, ⟨events, rfl, path⟩, congrArg (record :: ·) log, gains⟩
  | await timeout interval condition next ih =>
    rw [Program.run, endsIn_bind]
    refine (gains_poll kept).mono fun held gained => ?_
    refine (ih held.1 gained.kept).mono ?_
    rintro out ⟨events, path, log, gains⟩
    exact ⟨events, ⟨held.1, path⟩, log, gained.trans gains⟩

end Ledger

namespace LogRecord

def rendered (record : LogRecord) : LogLevel × String := (record.level, record.text)

def isAlarm (record : LogRecord) : Bool := record.level == .warn || record.level == .error

end LogRecord

/-- How a fault reads in the log. -/
def Fault.rendered : Fault → LogLevel × String
  | moveTimeout w => (.warn, s!"Timeout waiting for move completion on window {w.id}.")
  | indexOutOfBounds w index => (.warn, s!"Index {index} is out of bounds for window {w.id}.")
  | outOfBoundsAccess w => (.warn, s!"Accessing window {w.id} out of bounds.")
  | allocationFailed w requested available =>
    (.error, s!"Failed to allocate {requested} of {available} free bytes to window {w.id}.")
  | emptyRxMount w => (.error, s!"Mounting rx frame to window {w.id} failed.")

/-- A record names the window of a move and spells out its control word. -/
def LogRecord.Announces (record : LogRecord) (issued : Window × ControlWord) : Prop :=
  ∃ move : Move, (move.target, move.word) = issued ∧ record.rendered = (.trace,
    s!"Moving {move.pool.describe} on window {issued.1.id}, control word {hexadecimal
      issued.2.bits.toNat}.")

/-- Warnings and errors tell the faults, and traces the control words, in order and one by one. -/
structure Tallies (log : List LogRecord) (faults : List Fault)
    (words : List (Window × ControlWord)) : Prop where
  alarms : (log.filter (·.isAlarm)).map (·.rendered) = faults.map (·.rendered)
  moves : List.Forall₂ LogRecord.Announces (log.filter (·.level == .trace)) words

namespace Tallies

variable {log more : List LogRecord} {faults others : List Fault}
  {words further : List (Window × ControlWord)}

theorem nil : Tallies [] [] [] := ⟨rfl, .nil⟩

theorem append (first : Tallies log faults words) (second : Tallies more others further) :
    Tallies (log ++ more) (faults ++ others) (words ++ further) where
  alarms := by rw [List.filter_append, List.map_append, List.map_append, first.alarms,
    second.alarms]
  moves := by
    rw [List.filter_append]
    exact List.rel_append first.moves second.moves

theorem fault (fault : Fault) : Tallies [.fault fault] [fault] [] := by
  cases fault <;> exact ⟨rfl, .nil⟩

theorem move (move : Move) :
    Tallies [.moving move.pool move.target move.word] [] [(move.target, move.word)] :=
  ⟨rfl, .cons ⟨move, rfl, rfl⟩ .nil⟩

theorem debug {record : LogRecord} (quiet : record.level = .debug) : Tallies [record] [] [] := by
  cases record with
  | settingUp | scratchSized length => exact ⟨rfl, .nil⟩
  | moving pool w word => cases quiet
  | fault fault => cases fault <;> cases quiet

end Tallies

def Tallied (events : List Event) : Prop :=
  Tallies (events.filterMap Event.record?) (events.flatMap Event.faults)
    (events.flatMap Event.words)

section Story

variable {events rest : List Event}

theorem Tallied.append (first : Tallied events) (second : Tallied rest) :
    Tallied (events ++ rest) := by
  rw [Tallied, List.filterMap_append, List.flatMap_append, List.flatMap_append]
  exact Tallies.append first second

theorem Event.IsAside.tells_nothing {event : Event} (aside : event.IsAside) :
    event.faults = [] ∧ event.words = [] := by
  cases event with
  | noted record => exact ⟨rfl, rfl⟩
  | asked request =>
    cases request with
    | report fault => exact aside.elim
    | write16 register value =>
      refine ⟨rfl, ?_⟩
      cases owned : Window.owning? (·.control) register with
      | none => rw [words, Request.words, owned]; rfl
      | some w => exact absurd (Window.address_of_owning? owned).symm (aside w)
    | _ => exact ⟨rfl, rfl⟩

theorem tallied_aside {event : Event} (aside : event.IsAside) : Tallied [event] := by
  cases event with
  | noted record => exact Tallies.debug aside
  | asked request =>
    obtain ⟨faults, words⟩ := aside.tells_nothing
    rw [Tallied, List.flatMap_singleton, List.flatMap_singleton, faults, words]
    exact .nil

theorem tallied_fault (fault : Fault) :
    Tallied [.noted (.fault fault), .asked (.report fault)] := Tallies.fault fault

theorem tallied_move (move : Move) {between : List Event}
    (asides : ∀ event ∈ between, event.IsAside) :
    Tallied (.noted (.moving move.pool move.target move.word) :: between ++
      [.asked (.write16 move.target.registers.control move.word.bits)]) := by
  have owned : Window.owning? (·.control) move.target.registers.control = some move.target := by
    cases move.target <;> rfl
  have written : Request.words (.write16 move.target.registers.control move.word.bits) =
      [(move.target, move.word)] := by rw [Request.words, owned]; rfl
  have nothing : Tallied between ∧ between.flatMap Event.faults = [] ∧
      between.flatMap Event.words = [] := by
    induction between with
    | nil => exact ⟨.nil, rfl, rfl⟩
    | cons event rest ih =>
      obtain ⟨aside, others⟩ := List.forall_mem_cons.mp asides
      obtain ⟨tallied, faults, words⟩ := ih others
      obtain ⟨noFaults, noWords⟩ := aside.tells_nothing
      exact ⟨(tallied_aside aside).append tallied, by rw [List.flatMap_cons, noFaults, faults]; rfl,
        by rw [List.flatMap_cons, noWords, words]; rfl⟩
  obtain ⟨tallied, faults, words⟩ := nothing
  have told := (Tallies.move move).append tallied
  have silent (request : Request) : [Event.asked request].filterMap Event.record? = [] := rfl
  rw [faults, words] at told
  simpa [Tallied, silent, Event.record?, Event.faults, Event.words, Request.faults, written, faults,
    words] using told

/-- In a story, what is logged tallies with what the host is told. -/
theorem Story.tallied (story : Story events) : Tallied events := by
  induction story with
  | nil => exact Tallies.nil
  | aside aside _ ih => exact (tallied_aside aside).append ih
  | fault fault _ ih => exact (tallied_fault fault).append ih
  | move move asides _ ih =>
    have tallied := (tallied_move move asides).append ih
    rwa [List.append_assoc] at tallied

end Story

namespace Ledger

variable {σ χ : Type} [Host σ] (ledger : Ledger σ) {rounds : Nat}

def Tallies (before : Session σ) (taken : Taken σ) : Prop :=
  ∃ faults words, ledger.Gains before.host taken.session.host faults words ∧
    RadioWindows.Tallies taken.log faults words

theorem perform_tallies (operation : Operation) {session : Session σ}
    (kept : ledger.kept session.host) :
    EndsIn (fun _ => True) (session.perform rounds operation) fun taken =>
      ledger.Tallies session taken := by
  simp only [Session.perform, endsIn_bind, endsIn_pure]
  refine (gains_run _ kept).mono ?_
  rintro out ⟨events, path, log, gains⟩
  have story := operation.perform_meets composes_tells session.status events out.value path
  exact ⟨_, _, gains, log ▸ story.tallied⟩

theorem run_tallies [Adjustable σ χ] {steps : List (Step χ)}
    (adjusts : ∀ (change : χ) (host : σ), ledger.kept host →
      ledger.Gains host (Adjustable.adjust change host) [] [])
    {session : Session σ} (kept : ledger.kept session.host) :
    EndsIn (fun _ => True) (session.run rounds steps) fun taken =>
      Session.Along (fun before _ taken => ledger.Tallies before taken) session steps taken := by
  let keeps (session : Session σ) : Prop := ledger.kept session.host
  have along : EndsIn (fun _ => True) (session.run rounds steps) fun taken =>
      keeps (session.after taken) ∧
        Session.Along (fun before _ taken => ledger.Tallies before taken) session steps taken := by
    refine Session.run_endsIn (fun step _ session now => ?_) kept
    cases step with
    | perform operation =>
      refine (ledger.perform_tallies operation now).mono fun taken tallies => ?_
      obtain ⟨faults, words, gains, tallied⟩ := tallies
      exact ⟨gains.kept, faults, words, gains, tallied⟩
    | adjust change =>
      have gains := adjusts change session.host now
      exact ⟨gains.kept, [], [], gains, .nil⟩
  exact along.mono fun _ established => established.2

end Ledger

namespace Chip

theorem records_answer (request : Request) (chip : Chip) :
    EndsIn (fun _ => True) (Host.answer request chip) fun answered =>
      answered.2.faults = chip.faults ++ request.faults ∧
        answered.2.moves = chip.moves ++ request.words := by
  have unchanged : chip.faults = chip.faults ++ [] ∧ chip.moves = chip.moves ++ [] :=
    ⟨(List.append_nil _).symm, (List.append_nil _).symm⟩
  have records (found : Circumstances) (stirs : chip.Stirs request found) :
      found.faults = chip.faults ++ request.faults ∧ found.moves = chip.moves ++ request.words := by
    cases stirs with
    | looked look =>
      rw [look.tells_nothing.1, look.tells_nothing.2]
      exact unchanged
    | latched look =>
      rw [look.tells_nothing.1, look.tells_nothing.2, latch_eq]
      exact unchanged
    | moved value owned =>
      rw [Request.words, owned]
      exact ⟨unchanged.1, rfl⟩
    | placed value owned =>
      rw [Request.words, owned]
      exact unchanged
    | reported fault => exact ⟨rfl, unchanged.2⟩
    | _ => exact unchanged
  exact (chip.stirs_answer request).mono fun answered stirs => records _ stirs

def ledger : Ledger Chip where
  kept _ := True
  faults := faults
  words := moves
  answers request chip _ := (records_answer request chip).mono fun _ records => ⟨trivial, records⟩

end Chip

section Scripted

namespace Call

def faults : Call → List Fault
  | fault reported => [reported]
  | _ => []

def words : Call → List (Window × ControlWord)
  | write16 register value => (Window.owning? (·.control) register).toList.map (·, ⟨value⟩)
  | _ => []

end Call

def ScriptedHost.ledger : Ledger ScriptedHost where
  kept host := host.recordsFaults = true
  faults host := host.calls.toList.flatMap Call.faults
  words host := host.calls.toList.flatMap Call.words
  answers request host records := by
    have adds := adds_answer request host
    have recorded : (request.recorded host.recordsFaults (host.answer request).1).flatMap
          Call.faults = request.faults ∧
        (request.recorded host.recordsFaults (host.answer request).1).flatMap Call.words =
          request.words := by
      rw [records]
      cases request <;> exact ⟨rfl, by simp [Request.recorded, Call.words, Request.words]⟩
    rw [host_answer, endsIn_ok, adds.recordsFaults_eq, adds.calls_eq, List.flatMap_append,
      List.flatMap_append, recorded.1, recorded.2]
    exact ⟨records, rfl, rfl⟩

end Scripted

/-- In every step of a run that ends, the warnings and errors that are logged are the faults that
are reported, and the traces are the control words that are written, one by one and in order. And
whatever the driver is told, each is logged right before it is done. -/
theorem log_tells_faults_and_moves :
    (∀ (rounds : Nat) (steps : List (Step ScriptedHost.Setting)) (session : Session ScriptedHost)
        (taken : List (Taken ScriptedHost)), session.host.recordsFaults = true →
      session.run rounds steps = .ok taken →
      Session.Along (fun before _ taken => ScriptedHost.ledger.Tallies before taken)
        session steps taken) ∧
    (∀ (rounds : Nat) (steps : List (Step Chip.Change)) (session : Session Chip)
        (taken : List (Taken Chip)), session.run rounds steps = .ok taken →
      Session.Along (fun before _ taken => Chip.ledger.Tallies before taken)
        session steps taken) ∧
    ∀ (operation : Operation) (status : Status), (operation.perform.run status).Tells := by
  refine ⟨fun rounds steps session taken records finished => ?_,
    fun rounds steps session taken finished => ?_,
    fun operation => operation.perform_meets composes_tells⟩
  · have adjusts (setting : ScriptedHost.Setting) (host : ScriptedHost)
        (records : ScriptedHost.ledger.kept host) :
        ScriptedHost.ledger.Gains host (ScriptedHost.adjust setting host) [] [] :=
      ⟨records, (List.append_nil _).symm, (List.append_nil _).symm⟩
    exact (ScriptedHost.ledger.run_tallies adjusts records).of_ok finished
  · have adjusts (change : Chip.Change) (chip : Chip) (_ : Chip.ledger.kept chip) :
        Chip.ledger.Gains chip (Chip.adjust change chip) [] [] := by
      have same : (Chip.adjust change chip).faults = chip.faults ∧
          (Chip.adjust change chip).moves = chip.moves := by
        cases change with
        | setFree traffic free => cases traffic <;> exact ⟨rfl, rfl⟩
        | _ => exact ⟨rfl, rfl⟩
      exact ⟨trivial, same.1.trans (List.append_nil _).symm, same.2.trans (List.append_nil _).symm⟩
    exact (Chip.ledger.run_tallies adjusts trivial).of_ok finished

/-- No completion is ever signalled, nothing is allocated and no index settles. -/
def deafHost : Session ScriptedHost :=
  .start (.ofSetting
    { tapes16 := [(Register.dataFree, [100]), (Window.scratch.registers.status, [1])]
      clockStep := some 30 } true) ⟨20, 20, 10⟩

def deafChip : Session Chip :=
  .start { Chip.atReset with stalled := true, failing := true } ⟨20, 20, 10⟩

/-- A failed allocation with its two moves, and what else can go wrong. -/
def mishaps {χ : Type} : List (Step χ) :=
  [.perform (.allocate .data 50), .perform (.writeAt .scratch 7 [1]), .perform (.mountRx .mgmtRx),
    .perform (.copy .dataRx .spare 3)]

def mishapFaults (available : UInt16) : List Fault :=
  [.moveTimeout .dataTx, .allocationFailed .dataTx 50 available, .moveTimeout .dataTx,
    .indexOutOfBounds .scratch 7, .outOfBoundsAccess .scratch, .moveTimeout .mgmtRx,
    .emptyRxMount .mgmtRx, .moveTimeout .spare]

theorem log_tells_faults_and_moves_mishaps :
    (∃ taken, deafHost.run 4 mishaps = .ok taken ∧
      ScriptedHost.ledger.faults (deafHost.after taken).host = mishapFaults 100 ∧
      Session.Along (fun before (_ : Step ScriptedHost.Setting) taken =>
        ScriptedHost.ledger.Tallies before taken) deafHost mishaps taken) ∧
    ∃ taken, deafChip.run 4 mishaps = .ok taken ∧
      Chip.ledger.faults (deafChip.after taken).host = mishapFaults 2048 ∧
      Session.Along (fun before (_ : Step Chip.Change) taken =>
        Chip.ledger.Tallies before taken) deafChip mishaps taken := by
  obtain ⟨scripted, chip, -⟩ := log_tells_faults_and_moves
  obtain ⟨taken, finished, faults⟩ : ∃ taken, deafHost.run 4 mishaps = .ok taken ∧
      ScriptedHost.ledger.faults (deafHost.after taken).host = mishapFaults 100 :=
    exists_ok_of_endsIn (by decide +kernel)
  obtain ⟨others, ended, reported⟩ : ∃ taken, deafChip.run 4 mishaps = .ok taken ∧
      Chip.ledger.faults (deafChip.after taken).host = mishapFaults 2048 :=
    exists_ok_of_endsIn (by decide +kernel)
  exact ⟨⟨taken, finished, faults, scripted 4 mishaps deafHost taken rfl finished⟩, others, ended,
    reported, chip 4 mishaps deafChip others ended⟩

end RadioWindows
