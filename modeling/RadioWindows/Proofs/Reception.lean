import RadioWindows.Proofs.Chip.Receiving
import RadioWindows.Proofs.Transmission

/-! Received frames from the queue to the driver. A frame is mounted, looked at and discarded, and
any work that mounts no frame may be done on other windows in between; the invariant is which frames
wait and, from the mount on, at which position of its frame the window stands. -/

namespace RadioWindows

inductive Look where
  | seek (index : UInt16)
  | read (count : Nat)
  | readAt (index : UInt16) (count : Nat)
deriving DecidableEq, Repr

namespace Look

def operation (w : Window) : Look → Operation
  | seek index => .setIndex w index
  | read count => .read w count
  | readAt index count => .readAt w index count

def ending (position : Nat) : Look → Nat
  | seek index => index.toNat
  | read count => position + count
  | readAt index count => index.toNat + count

def answer (frame : Bytes) (position : Nat) : Look → Answer
  | seek _ => .nothing
  | read count => .bytes (slice frame position count)
  | readAt index count => .bytes (slice frame index.toNat count)

def answers (frame : Bytes) : Nat → List Look → List Answer
  | _, [] => []
  | position, look :: rest =>
    look.answer frame position :: answers frame (look.ending position) rest

end Look

namespace Chip

def Change.sparesQueue : Change → Bool
  | .receive _ | .setReceived _ | .setFree .. => false
  | _ => true

/-- A step that leaves the queue as it is, unless it acts on the window. -/
def sparesQueue (w : Window) : Step Change → Bool
  | .perform operation => w ∈ operation.targets || operation.moves.all (!·.receives)
  | .adjust change => change.sparesQueue

def receiving (traffic : Traffic) (looks : List Look) : List Operation :=
  .mountRx traffic.rxWindow :: (looks.map (·.operation traffic.rxWindow) ++ [.discardRx traffic])

/-- Steps in which one frame is received. On the window it is mounted, looked at and discarded;
operations on other windows mount no frame. -/
structure Reception where
  traffic : Traffic
  looks : List Look
  steps : List (Step Change)
  own : operationsOn traffic.rxWindow steps = receiving traffic looks
  others : ∀ step ∈ steps, sparesQueue traffic.rxWindow step = true

/-- What comes of an operation: its answer, and the reports of mounts that found no frame. -/
def yieldOf (one : Performed Chip) : Answer × List Fault :=
  (one.taken.answer, one.before.host.emptyMounts one.taken.session.host)

def yieldsOn (w : Window) (session : Session Chip) (steps : List (Step Change))
    (taken : List (Taken Chip)) : List (Answer × List Fault) :=
  ((session.performed steps taken).filter fun one => w ∈ one.operation.targets).map yieldOf

def looked (frame : Bytes) (position : Nat) (looks : List Look) : List (Answer × List Fault) :=
  (Look.answers frame position looks).map (·, []) ++ [(.nothing, [])]

/-- What has to come of a reception, given the frame that is due. Where none is, the mount returns
zero and is reported, once. -/
def Reception.yields (reception : Reception) : Option Bytes → List (Answer × List Fault)
  | some frame => (.count (.ofNat frame.length), []) :: looked frame 0 reception.looks
  | none => (.count 0, [.emptyRxMount reception.traffic.rxWindow]) :: looked [] 0 reception.looks

section Looks

variable {rounds : Nat} {session : Session Chip} {w : Window} {frame : Bytes} {position : Nat}
  {waiting : List Bytes}

theorem ensures_look (shows : Shows w frame position waiting session.host) (look : Look) :
    (look.operation w).perform.Ensures (session.status.timing.Allows rounds) rounds session
      fun answer after => answer = look.answer frame position ∧
        Shows w frame (look.ending position) waiting after.host ∧
        session.host.Unheard after.host := by
  cases look with
  | seek index =>
    refine Driver.ensures_bind.mpr ((ensures_setIndex index).mono ?_)
    rintro _ _ rfl
    exact ⟨rfl, shows.indexed index, unheard_indexed session w index⟩
  | read count =>
    rw [Look.operation, Operation.perform, Driver.ensures_map]
    refine (ensures_read_shows shows count).mono fun bytes after ended => ?_
    exact ⟨congrArg Answer.bytes ended.1, ended.2⟩
  | readAt index count =>
    rw [Look.operation, Operation.perform, Driver.ensures_map, Driver.readAt, Driver.ensures_bind]
    refine (ensures_setIndex index).mono ?_
    rintro _ _ rfl
    rw [← timing_indexed session w index]
    refine (ensures_read_shows (shows.indexed index) count).mono fun bytes after ended => ?_
    exact ⟨congrArg Answer.bytes ended.1, ended.2.1,
      (unheard_indexed session w index).trans ended.2.2⟩

end Looks

inductive Phase where
  | ahead
  | within (position : Nat) (looks : List Look)
  | past

namespace Phase

def operations (traffic : Traffic) (looks : List Look) : Phase → List Operation
  | ahead => receiving traffic looks
  | within _ rest => rest.map (·.operation traffic.rxWindow) ++ [.discardRx traffic]
  | past => []

def yields (reception : Reception) (due : Option Bytes) : Phase → List (Answer × List Fault)
  | ahead => reception.yields due
  | within position rest => looked (due.getD []) position rest
  | past => []

/-- The session is that far, given the frames that waited when the reception began. -/
def Holds (traffic : Traffic) (waiting : List Bytes) (session : Session Chip) : Phase → Prop
  | ahead => session.host.received = waiting
  | within position _ =>
    Shows traffic.rxWindow (waiting.headD []) position waiting.tail session.host
  | past => session.host.received = waiting.tail

variable {reception : Reception} {waiting : List Bytes} {session after : Session Chip}
  {phase : Phase} {operation : Operation} {rest : List Operation} {rounds : Nat}

theorem Holds.of_same {traffic : Traffic} (holds : phase.Holds traffic waiting session)
    (window : after.host.window traffic.rxWindow = session.host.window traffic.rxWindow)
    (received : after.host.received = session.host.received) :
    phase.Holds traffic waiting after := by
  cases phase with
  | ahead => exact received.trans holds
  | within position looks =>
    exact ⟨window ▸ holds.mount, window ▸ holds.cursor, received.trans holds.received⟩
  | past => exact received.trans holds

theorem next (holds : phase.Holds reception.traffic waiting session) (room : session.host.Roomy)
    (sizes : ∀ frame ∈ waiting, 1 ≤ frame.length ∧ frame.length < UInt16.size)
    (coming : phase.operations reception.traffic reception.looks = operation :: rest) :
    EndsIn (session.status.timing.Allows rounds) (session.perform rounds operation) fun taken =>
      ∃ later : Phase, later.operations reception.traffic reception.looks = rest ∧
        phase.yields reception waiting.head? =
          yieldOf ⟨session, operation, taken⟩ :: later.yields reception waiting.head? ∧
        later.Holds reception.traffic waiting taken.session := by
  cases phase with
  | ahead =>
    obtain ⟨rfl, rfl⟩ := List.cons.inj coming
    refine Session.perform_endsIn ?_
    rw [Operation.perform, Driver.ensures_map]
    refine (ensures_mountRx room reception.traffic.rxWindow).mono fun length after mounted log => ?_
    obtain ⟨counted, shows, reports⟩ := mounted
    have received : session.host.received = waiting := holds
    rw [received] at counted shows
    refine ⟨within 0 reception.looks, rfl, ?_, shows⟩
    cases waiting with
    | nil =>
      have none : length = 0 := counted
      rw [if_pos none] at reports
      rw [yieldOf, reports, none]
      rfl
    | cons frame others =>
      -- A length that fits into the count register is not zero there.
      have some_bytes : length ≠ 0 := fun none => by
        have size := sizes frame List.mem_cons_self
        have zero := congrArg UInt16.toNat (counted.symm.trans none)
        rw [List.headD_cons, UInt16.toNat_ofNat_of_lt' size.2, UInt16.toNat_zero] at zero
        omega
      rw [if_neg some_bytes] at reports
      rw [yieldOf, reports, counted]
      rfl
  | within position looks =>
    rw [Holds, List.headD_eq_head?_getD] at holds
    cases looks with
    | nil =>
      obtain ⟨rfl, rfl⟩ := List.cons.inj coming
      have others : ∀ move ∈ (Operation.discardRx reception.traffic).moves,
          move.receives = false := by
        intro move issued
        rw [List.mem_singleton.mp issued]
        rfl
      have discards : (Operation.discardRx reception.traffic).perform.Ensures
          (session.status.timing.Allows rounds) rounds session fun answer after =>
            answer = .nothing ∧ session.host.Unheard after.host :=
        Driver.ensures_bind.mpr ((ensures_discardRx room reception.traffic).mono
          fun _ _ unheard => ⟨rfl, unheard⟩)
      refine Session.perform_endsIn ((discards.and (perform_received room others)).mono ?_)
      rintro answer after ⟨⟨rfl, unheard⟩, received⟩ log
      refine ⟨past, rfl, ?_, received.trans holds.received⟩
      rw [yieldOf, unheard.emptyMounts_eq]
      rfl
    | cons look looks =>
      obtain ⟨rfl, rfl⟩ := List.cons.inj coming
      refine Session.perform_endsIn ((ensures_look holds look).mono ?_)
      rintro answer after ⟨rfl, shows, unheard⟩ log
      refine ⟨within (look.ending position) looks, rfl, ?_, ?_⟩
      · rw [yieldOf, unheard.emptyMounts_eq]
        rfl
      · rw [Holds, List.headD_eq_head?_getD]
        exact shows
  | past => cases coming

theorem other (holds : phase.Holds reception.traffic waiting session) (room : session.host.Roomy)
    (apart : reception.traffic.rxWindow ∉ operation.targets)
    (spares : ∀ move ∈ operation.moves, move.receives = false) :
    EndsIn (session.status.timing.Allows rounds) (session.perform rounds operation) fun taken =>
      phase.Holds reception.traffic waiting taken.session := by
  have framed := ensures_frame operation rounds room
  refine Session.perform_endsIn ((framed.and (perform_received room spares)).mono ?_)
  rintro answer after ⟨⟨-, frame⟩, received⟩ log
  exact holds.of_same (frame.window _ apart) received

theorem adjust {change : Change} (holds : phase.Holds reception.traffic waiting session)
    (spares : change.sparesQueue = true) :
    phase.Holds reception.traffic waiting
      { session with host := Chip.adjust change session.host } := by
  refine holds.of_same ?_ ?_
  · exact window_adjust ..
  · cases change with
    | receive _ | setReceived _ | setFree _ _ => cases spares
    | _ => rfl

theorem eq_past (finished : phase.operations reception.traffic reception.looks = []) :
    phase = past := by
  cases phase with
  | past => rfl
  | ahead => cases finished
  | within position looks => simp [operations] at finished

theorem take {step : Step Change} {steps : List (Step Change)}
    (holds : phase.Holds reception.traffic waiting session) (room : session.host.Roomy)
    (sizes : ∀ frame ∈ waiting, 1 ≤ frame.length ∧ frame.length < UInt16.size)
    (coming : phase.operations reception.traffic reception.looks =
      operationsOn reception.traffic.rxWindow (step :: steps))
    (spared : sparesQueue reception.traffic.rxWindow step = true) :
    EndsIn (session.status.timing.Allows rounds) (session.take rounds step) fun taken =>
      taken.session.host.Roomy ∧ taken.session.status.timing = session.status.timing ∧
        ∃ later : Phase, later.Holds reception.traffic waiting taken.session ∧
          later.operations reception.traffic reception.looks =
            operationsOn reception.traffic.rxWindow steps ∧
          phase.yields reception waiting.head? =
            yieldsOn reception.traffic.rxWindow session [step] [taken] ++
              later.yields reception waiting.head? := by
  cases step with
  | perform operation =>
    have framed := perform_frame operation rounds room
    -- What acts on the window is the next operation of the reception.
    by_cases targeted : reception.traffic.rxWindow ∈ operation.targets
    · have ahead : operationsOn reception.traffic.rxWindow (.perform operation :: steps) =
          operation :: operationsOn reception.traffic.rxWindow steps := by
        simp [operationsOn, targeted]
      refine EndsIn.mono (framed.and (next holds room sizes (coming.trans ahead))) ?_
      intro taken ended
      obtain ⟨⟨roomy, frame⟩, later, remaining, yields, holding⟩ := ended
      refine ⟨roomy, frame.timing, later, holding, remaining, yields.trans ?_⟩
      simp [yieldsOn, Session.performed, targeted]
    · have ahead : operationsOn reception.traffic.rxWindow (.perform operation :: steps) =
          operationsOn reception.traffic.rxWindow steps := by
        simp [operationsOn, targeted]
      have spares : ∀ move ∈ operation.moves, move.receives = false := by
        simpa [sparesQueue, targeted] using spared
      refine EndsIn.mono (framed.and (other holds room targeted spares)) fun taken ended => ?_
      obtain ⟨⟨roomy, frame⟩, holding⟩ := ended
      refine ⟨roomy, frame.timing, phase, holding, coming.trans ahead, ?_⟩
      simp [yieldsOn, Session.performed, targeted]
  | adjust change =>
    have spares : change.sparesQueue = true := spared
    have fixed : ∀ pool free, change ≠ .setFree pool free := by
      rintro pool free rfl
      cases spares
    exact ⟨room.adjust fixed, rfl, phase, adjust holds spares, coming, rfl⟩

theorem yieldsOn_cons (w : Window) (session : Session Chip) (step : Step Change)
    (steps : List (Step Change)) (taken : Taken Chip) (others : List (Taken Chip)) :
    yieldsOn w session (step :: steps) (taken :: others) =
      yieldsOn w session [step] [taken] ++ yieldsOn w taken.session steps others := by
  cases step with
  | adjust change => rfl
  | perform operation =>
    by_cases targeted : w ∈ operation.targets <;> simp [yieldsOn, Session.performed, targeted]

/-- Any steps with the operations that are still to come bring the reception to its end, and what
comes of those is what has to. -/
theorem run {timing : Timing} {steps : List (Step Change)}
    (holds : phase.Holds reception.traffic waiting session) (room : session.host.Roomy)
    (same : session.status.timing = timing)
    (sizes : ∀ frame ∈ waiting, 1 ≤ frame.length ∧ frame.length < UInt16.size)
    (coming : phase.operations reception.traffic reception.looks =
      operationsOn reception.traffic.rxWindow steps)
    (others : ∀ step ∈ steps, sparesQueue reception.traffic.rxWindow step = true) :
    EndsIn (timing.Allows rounds) (session.run rounds steps) fun taken =>
      (session.after taken).host.Roomy ∧ (session.after taken).status.timing = timing ∧
        (session.after taken).host.received = waiting.tail ∧
        yieldsOn reception.traffic.rxWindow session steps taken =
          phase.yields reception waiting.head? := by
  induction steps generalizing session phase with
  | nil =>
    obtain rfl := eq_past coming
    exact ⟨room, same, holds, rfl⟩
  | cons step steps ih =>
    subst same
    rw [Session.run, endsIn_bind]
    have spared := others step List.mem_cons_self
    refine EndsIn.mono (take holds room sizes coming spared) fun taken moved => ?_
    obtain ⟨roomy, timing, later, holding, ahead, yields⟩ := moved
    rw [endsIn_bind]
    have rest := ih holding roomy timing ahead
      fun later member => others later (List.mem_cons_of_mem step member)
    refine EndsIn.mono rest fun others ended => ?_
    rw [endsIn_pure, Session.after_cons, yieldsOn_cons, ended.2.2.2, yields]
    exact ⟨ended.1, ended.2.1, ended.2.2.1, rfl⟩

end Phase

theorem Reception.run {reception : Reception} {session : Session Chip} {rounds : Nat}
    {timing : Timing} (room : session.host.Roomy) (same : session.status.timing = timing)
    (sizes : ∀ frame ∈ session.host.received,
      1 ≤ frame.length ∧ frame.length < UInt16.size) :
    EndsIn (timing.Allows rounds) (session.run rounds reception.steps) fun taken =>
      (session.after taken).host.Roomy ∧ (session.after taken).status.timing = timing ∧
        (session.after taken).host.received = session.host.received.tail ∧
        yieldsOn reception.traffic.rxWindow session reception.steps taken =
          reception.yields session.host.received.head? := by
  have begins : Phase.ahead.Holds reception.traffic session.host.received session := rfl
  exact Phase.run begins room same sizes reception.own.symm reception.others

/-- What comes of a reception that stands at a position in a sequence of them. -/
def yieldsAt (session : Session Chip) (receptions : List Reception) (taken : List (Taken Chip))
    (k : Nat) (reception : Reception) : List (Answer × List Fault) :=
  let done := ((receptions.take k).flatMap (·.steps)).length
  yieldsOn reception.traffic.rxWindow (session.after (taken.take done)) reception.steps
    ((taken.drop done).take reception.steps.length)

section Sequence

variable {session : Session Chip} {first : Reception} {receptions : List Reception}
  {taken others : List (Taken Chip)}

theorem yieldsAt_zero (length : taken.length = first.steps.length) :
    yieldsAt session (first :: receptions) (taken ++ others) 0 first =
      yieldsOn first.traffic.rxWindow session first.steps taken := by
  rw [yieldsAt, List.take_zero, List.flatMap_nil, List.length_nil, List.take_zero,
    Session.after_nil, List.drop_zero, List.take_left' length]

theorem yieldsAt_succ (length : taken.length = first.steps.length) (k : Nat)
    (reception : Reception) :
    yieldsAt session (first :: receptions) (taken ++ others) (k + 1) reception =
      yieldsAt (session.after taken) receptions others k reception := by
  simp only [yieldsAt, List.take_succ_cons, List.flatMap_cons, List.length_append, ← length,
    List.take_length_add_append, List.drop_length_add_append, Session.after_append]

theorem run_receptions {rounds : Nat} {timing : Timing} (room : session.host.Roomy)
    (same : session.status.timing = timing)
    (sizes : ∀ frame ∈ session.host.received, 1 ≤ frame.length ∧ frame.length < UInt16.size) :
    EndsIn (timing.Allows rounds) (session.run rounds (receptions.flatMap (·.steps))) fun taken =>
      (session.after taken).host.received = session.host.received.drop receptions.length ∧
        ∀ k reception, receptions[k]? = some reception →
          yieldsAt session receptions taken k reception =
            reception.yields session.host.received[k]? := by
  induction receptions generalizing session with
  | nil => exact ⟨rfl, nofun⟩
  | cons first receptions ih =>
    rw [List.flatMap_cons, Session.run_append]
    refine EndsIn.mono ((first.run room same sizes).and_partial (Session.run_length _ _)) ?_
    rintro taken ⟨⟨roomy, timing, received, yields⟩, length⟩
    have rest := ih roomy timing fun frame member =>
      sizes frame (List.mem_of_mem_tail (received ▸ member))
    refine EndsIn.mono rest fun others ended => ⟨?_, fun k reception found => ?_⟩
    · rw [Session.after_append, ended.1, received, List.drop_tail, List.length_cons]
    · cases k with
      | zero =>
        cases found
        rw [yieldsAt_zero length, yields, List.head?_eq_getElem?]
      | succ k =>
        rw [yieldsAt_succ length, ended.2 k reception found, received, List.getElem?_tail]

end Sequence

/-- The frames that wait are received in order, one by each reception: the mount returns the length
of the frame, every look is answered with what it is of that frame, and only mounts that find no
frame left return zero, which is reported once. -/
theorem frames_received (session : Session Chip) (rounds : Nat) (receptions : List Reception)
    (reachable : Reachable session) (moving : session.status.timing.pollInterval ≠ 0)
    (enough : session.status.timing.enoughRounds ≤ rounds)
    (sizes : ∀ frame ∈ session.host.received, 1 ≤ frame.length ∧ frame.length < UInt16.size)
    (clock : session.run rounds (receptions.flatMap (·.steps)) ≠ .error .clockOverflow) :
    ∃ taken, session.run rounds (receptions.flatMap (·.steps)) = .ok taken ∧
      (session.after taken).host.received = session.host.received.drop receptions.length ∧
      ∀ k reception, receptions[k]? = some reception →
        yieldsAt session receptions taken k reception =
          reception.yields session.host.received[k]? := by
  refine (run_receptions reachable.roomy rfl sizes).exists_ok fun halt halted allows => ?_
  rw [allows.eq_clockOverflow moving enough] at halted
  exact clock halted

/-- A frame is received in the window for data. Completions stop being signalled, a buffer for an
outgoing frame is at work, and the other window for received frames is used for scratch memory. -/
def firstReception : Reception where
  traffic := .data
  looks := [.readAt 1 3, .seek 0, .read 2, .read 1]
  steps := [.perform (.mountScratch .mgmtRx), .perform (.mountRx .dataRx),
    .perform (.readAt .dataRx 1 3), .adjust (.setStalled true), .perform (.allocate .data 4),
    .perform (.setIndex .dataRx 0), .perform (.copy .dataRx .dataTx 3), .perform (.read .dataRx 2),
    .perform (.send .data 4), .perform (.read .dataRx 1), .perform (.discardRx .data)]
  own := rfl
  others := by decide

/-- A frame is received in the window for management, with an index past its end. -/
def secondReception : Reception where
  traffic := .management
  looks := [.readAt 9 2, .readAt 0 2]
  steps := [.perform (.mountRx .mgmtRx), .perform (.readAt .mgmtRx 9 2),
    .perform (.isOutOfBounds .mgmtRx), .adjust (.setStalled false),
    .perform (.readAt .mgmtRx 0 2), .perform (.discardRx .management)]
  own := rfl
  others := by decide

def queued : Session Chip :=
  { readied with host := adjust (.setReceived [[1, 2, 3], [4]]) readied.host }

theorem frames_received_three :
    ∃ taken, queued.run 4
        ([firstReception, secondReception, firstReception].flatMap (·.steps)) = .ok taken ∧
      (queued.after taken).host.received = queued.host.received.drop 3 ∧
      (∀ k reception, [firstReception, secondReception, firstReception][k]? = some reception →
        yieldsAt queued [firstReception, secondReception, firstReception] taken k reception =
          reception.yields queued.host.received[k]?) ∧
      firstReception.yields (some [1, 2, 3]) =
        [(.count 3, []), (.bytes [2, 3, 0xff], []), (.nothing, []), (.bytes [1, 2], []),
          (.bytes [3], []), (.nothing, [])] := by
  have reachable : Reachable queued := reachable_readied.adjust fun _ _ same => by cases same
  obtain ⟨taken, finished, received, yields⟩ := frames_received queued 4
    [firstReception, secondReception, firstReception] reachable (by decide +kernel)
    (by decide +kernel) (by decide +kernel) fun halted =>
      absurd (congrArg Except.isOk halted) (by decide +kernel)
  exact ⟨taken, finished, received, yields, by decide⟩

end Chip

end RadioWindows
