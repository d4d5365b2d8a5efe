import RadioWindows.Proofs.Chip.Making
import RadioWindows.Proofs.History
import RadioWindows.Proofs.Transmission

/-! Interleaved accesses to two windows. Each step of an interleaving is an operation at one of the
windows; what is still to be done at the other finds its window as it was. So each operation returns
what it would if the windows were served in turn, and in the end nothing tells the order but that of
the reports. -/

namespace RadioWindows

inductive Interleaves {α : Type} : List α → List α → List α → Prop where
  | nil : Interleaves [] [] []
  | left (first : α) {left right merged : List α} (rest : Interleaves left right merged) :
      Interleaves (first :: left) right (first :: merged)
  | right (first : α) {left right merged : List α} (rest : Interleaves left right merged) :
      Interleaves left (first :: right) (first :: merged)

namespace Interleaves

variable {α : Type} {left right merged : List α}

theorem symm (interleaves : Interleaves left right merged) : Interleaves right left merged := by
  induction interleaves with
  | nil => exact .nil
  | left first rest ih => exact .right first ih
  | right first rest ih => exact .left first ih

theorem append_left (more : List α) (interleaves : Interleaves left right merged) :
    Interleaves (more ++ left) right (more ++ merged) := by
  induction more with
  | nil => exact interleaves
  | cons first more ih => exact .left first ih

theorem of_right (right : List α) : Interleaves [] right right := by
  induction right with
  | nil => exact .nil
  | cons first right ih => exact .right first ih

theorem append (left right : List α) : Interleaves left right (left ++ right) := by
  have whole := (of_right right).append_left left
  rwa [List.append_nil] at whole

theorem perm (interleaves : Interleaves left right merged) : merged.Perm (left ++ right) := by
  induction interleaves with
  | nil => exact .refl _
  | left first rest ih => exact ih.cons first
  | right first rest ih => exact (ih.cons first).trans List.perm_middle.symm

theorem filter_of_left {kind : α → Bool} (interleaves : Interleaves left right merged)
    (elsewhere : ∀ x ∈ right, kind x = false) : merged.filter kind = left.filter kind := by
  induction interleaves with
  | nil => rfl
  | left first rest ih => rw [List.filter_cons, List.filter_cons, ih elsewhere]
  | right first rest ih =>
    rw [List.filter_cons_of_neg (by simp [elsewhere first List.mem_cons_self]),
      ih fun x member => elsewhere x (List.mem_cons_of_mem _ member)]

end Interleaves

namespace Session

variable {σ χ : Type}

def answersAt (session : Session σ) (w : Window) (steps : List (Step χ))
    (taken : List (Taken σ)) : List Answer :=
  ((session.performed steps taken).filter (w ∈ ·.operation.accesses)).map (·.taken.answer)

theorem answersAt_perform (session : Session σ) (w : Window) (operation : Operation)
    (steps : List (Step χ)) (first : Taken σ) (taken : List (Taken σ)) :
    session.answersAt w (.perform operation :: steps) (first :: taken) =
      if w ∈ operation.accesses then first.answer :: first.session.answersAt w steps taken
      else first.session.answersAt w steps taken := by
  rw [answersAt, performed, List.filter_cons]
  split <;> simp_all [answersAt]

end Session

namespace Chip

/-- What operations at a window return that find it so. -/
def answersFrom : List Operation → View → List Answer
  | [], _ => []
  | operation :: rest, found => Access.lastAnswer operation.parts found ::
      answersFrom rest (Access.leave operation.parts found)

def reportsFrom (w : Window) (operations : List Operation) (found : View) : List Fault :=
  Access.reportsOf w (operations.flatMap Operation.parts) found

theorem reportsFrom_cons (w : Window) (operation : Operation) (rest : List Operation)
    (found : View) : reportsFrom w (operation :: rest) found =
      Access.reportsOf w operation.parts found ++
        reportsFrom w rest (Access.leave operation.parts found) := by
  rw [reportsFrom, List.flatMap_cons, Access.reportsOf_append, reportsFrom]

def spending (session : Session Chip) (a b : Window) (left right : List Operation) : Nat :=
  session.status.timing.spentOn (reportsFrom a left (view session a)) +
    session.status.timing.spentOn (reportsFrom b right (view session b))

/-- What operations at two windows come to, however they were interleaved. -/
structure Serves (session : Session Chip) (a b : Window) (left right : List Operation)
    (steps : List (Step Change)) (taken : List (Taken Chip)) : Prop where
  answersLeft : session.answersAt a steps taken = answersFrom left (view session a)
  answersRight : session.answersAt b steps taken = answersFrom right (view session b)
  ended : ∃ reports, Interleaves (reportsFrom a left (view session a))
      (reportsFrom b right (view session b)) reports ∧
    session.after taken = reporting (treated (treated session a (left.flatMap Operation.parts)) b
      (right.flatMap Operation.parts)) reports
  time : (session.after taken).host.clock.toNat =
    session.host.clock.toNat + spending session a b left right

theorem spending_comm (session : Session Chip) (a b : Window) (left right : List Operation) :
    spending session a b left right = spending session b a right left := Nat.add_comm _ _

section Serves

variable {session : Session Chip} {a b : Window} {left right merged : List Operation}
  {steps : List (Step Change)} {taken : List (Taken Chip)} {rounds : Nat}

theorem Serves.symm (apart : session.host.Apart a b)
    (serves : Serves session a b left right steps taken) :
    Serves session b a right left steps taken where
  answersLeft := serves.answersRight
  answersRight := serves.answersLeft
  ended := by
    obtain ⟨reports, interleaves, ended⟩ := serves.ended
    refine ⟨reports, interleaves.symm, ?_⟩
    rw [ended, treated_comm apart]
  time := by rw [serves.time, spending_comm]

theorem Accessed.spending {operation : Operation} (apart : session.host.Apart a b)
    {first : Taken Chip} (accessed : Accessed session a operation first) :
    session.host.clock.toNat + spending session a b (operation :: left) right =
      first.session.host.clock.toNat + Chip.spending first.session a b left right := by
  rw [accessed.time, Chip.spending, Chip.spending, accessed.timing, accessed.view_self,
    accessed.view_of_apart apart.symm, reportsFrom_cons, Timing.spentOn_append]
  omega

theorem Serves.step {operation : Operation} (accesses : operation.accesses = [a])
    (apart : session.host.Apart a b) {first : Taken Chip}
    (accessed : Accessed session a operation first)
    (serves : Serves first.session a b left right steps taken) :
    Serves session a b (operation :: left) right (.perform operation :: steps)
      (first :: taken) where
  answersLeft := by
    rw [Session.answersAt_perform, if_pos (by simp [accesses]), accessed.answer,
      serves.answersLeft, accessed.view_self, answersFrom]
  answersRight := by
    rw [Session.answersAt_perform, if_neg (by simp [accesses, apart.other.symm]),
      serves.answersRight, accessed.view_of_apart apart.symm]
  ended := by
    obtain ⟨reports, interleaves, ended⟩ := serves.ended
    refine ⟨Access.reportsOf a operation.parts (view session a) ++ reports, ?_, ?_⟩
    · rw [accessed.view_self, accessed.view_of_apart apart.symm] at interleaves
      rw [reportsFrom_cons]
      exact interleaves.append_left _
    · rw [Session.after_cons, ended, accessed.ended, treated_reporting, treated_reporting,
        ← reporting_append, List.flatMap_cons, treated_append]
  time := by rw [Session.after_cons, serves.time, accessed.spending apart]

theorem run_serves_perform {operation : Operation} (accesses : operation.accesses = [a])
    (apart : session.host.Apart a b)
    (rest : ∀ session : Session Chip, session.host.Apart a b →
      EndsIn (Overruns session rounds (spending session a b left right))
        (session.run rounds steps) (Serves session a b left right steps)) :
    EndsIn (Overruns session rounds (spending session a b (operation :: left) right))
      (session.run rounds (.perform operation :: steps))
      (Serves session a b (operation :: left) right (.perform operation :: steps)) := by
  have total : spending session a b (operation :: left) right =
      session.status.timing.spentOn (Access.reportsOf a operation.parts (view session a)) +
        (session.status.timing.spentOn
            (reportsFrom a left (Access.leave operation.parts (view session a))) +
          session.status.timing.spentOn (reportsFrom b right (view session b))) := by
    rw [spending, reportsFrom_cons, Timing.spentOn_append, Nat.add_assoc]
  rw [total]
  refine run_access session accesses fun first accessed => ?_
  rw [← accessed.view_self, ← accessed.view_of_apart apart.symm, ← accessed.timing]
  exact EndsIn.mono (rest first.session (accessed.apart apart))
    fun others serves => serves.step accesses apart accessed

theorem run_serves (interleaves : Interleaves left right merged)
    (here : ∀ operation ∈ left, operation.accesses = [a])
    (there : ∀ operation ∈ right, operation.accesses = [b])
    (apart : session.host.Apart a b) :
    EndsIn (Overruns session rounds (spending session a b left right))
      (session.run rounds (merged.map Step.perform))
      (Serves session a b left right (merged.map Step.perform)) := by
  induction interleaves generalizing session with
  | nil =>
    have nothing : reporting session [] = session := reporting_nil session
    exact ⟨rfl, rfl, ⟨[], .nil, nothing.symm⟩, by simp [spending, reportsFrom, Access.reportsOf,
      Timing.spentOn]⟩
  | left operation rest ih =>
    have first := List.forall_mem_cons.mp here
    exact run_serves_perform first.1 apart fun session apart => ih first.2 there apart
  | right operation rest ih =>
    have first := List.forall_mem_cons.mp there
    -- Seen from the other window this is the case before.
    have swapped : EndsIn _ _ _ := run_serves_perform first.1 apart.symm fun session apart => by
      rw [spending_comm]
      exact EndsIn.mono (ih here first.2 apart.symm) fun taken serves => serves.symm apart.symm
    rw [spending_comm]
    exact EndsIn.mono swapped fun taken serves => serves.symm apart.symm

end Serves

/-- Two runs of operations at two windows that nothing tells apart but the order of the reports, and
that only among reports of different windows. -/
structure Concurs (session : Session Chip) (a b : Window) (steps others : List (Step Change))
    (taken found : List (Taken Chip)) : Prop where
  answers : ∀ w ∈ [a, b], session.answersAt w steps taken = session.answersAt w others found
  status : (session.after taken).status = (session.after found).status
  host : { (session.after taken).host with faults := [] } =
    { (session.after found).host with faults := [] }
  faults : (session.after taken).host.faults.Perm (session.after found).host.faults
  order : ∀ w, (session.after taken).host.faults.filter (·.window = w) =
    (session.after found).host.faults.filter (·.window = w)

theorem concurs_of_serves {session : Session Chip} {a b : Window} {left right : List Operation}
    {steps others : List (Step Change)} {taken found : List (Taken Chip)} (other : a ≠ b)
    (first : Serves session a b left right steps taken)
    (second : Serves session a b left right others found) :
    Concurs session a b steps others taken found := by
  obtain ⟨reports, interleaves, ended⟩ := first.ended
  obtain ⟨reports', interleaves', ended'⟩ := second.ended
  refine ⟨?answers, ?status, ?host, ?faults, ?order⟩
  case answers =>
    simp [first.answersLeft, first.answersRight, second.answersLeft, second.answersRight]
  case status =>
    rw [ended, ended']
    rfl
  case host =>
    rw [ended, ended']
    rfl
  case faults =>
    rw [ended, ended']
    exact (interleaves.perm.trans interleaves'.perm.symm).append_left _
  case order =>
    intro w
    have elsewhere (v : Window) (operations : List Operation) (different : w ≠ v) :
        ∀ fault ∈ reportsFrom v operations (view session v), decide (fault.window = w) = false :=
      fun fault reported => by
        simpa [Access.window_reportsOf reported] using different.symm
    -- The faults of one window come from one list, and both merges keep the order of that list.
    have same : reports.filter (·.window = w) = reports'.filter (·.window = w) := by
      by_cases atA : w = a
      · have apart := elsewhere b right (atA ▸ other)
        rw [interleaves.filter_of_left apart, interleaves'.filter_of_left apart]
      · have apart := elsewhere a left atA
        rw [interleaves.symm.filter_of_left apart, interleaves'.symm.filter_of_left apart]
    rw [ended, ended']
    simp only [reporting, List.filter_append, same]

/-- Operations at two windows that do not show the same memory commute. However they are
interleaved, each returns what it would if one window were served after the other, and the chip and
the driver end up the same but for the order of reports. -/
theorem accesses_commute (rounds : Nat) {session : Session Chip} {a b : Window}
    (apart : session.host.Apart a b) (moving : session.status.timing.pollInterval ≠ 0)
    (enough : session.status.timing.enoughRounds ≤ rounds) {left right merged : List Operation}
    (here : ∀ operation ∈ left, operation.accesses = [a])
    (there : ∀ operation ∈ right, operation.accesses = [b])
    (interleaves : Interleaves left right merged)
    (clock : session.run rounds ((left ++ right).map Step.perform) ≠ .error .clockOverflow) :
    ∃ inTurn mixed,
      session.run rounds ((left ++ right).map Step.perform) = .ok inTurn ∧
      session.run rounds (merged.map Step.perform) = .ok mixed ∧
      Concurs session a b (merged.map Step.perform) ((left ++ right).map Step.perform) mixed
        inTurn := by
  have serving : EndsIn (Overruns session rounds (spending session a b left right)) _ _ :=
    run_serves (.append left right) here there apart
  obtain ⟨inTurn, finished, serves⟩ := serving.exists_ok fun halt halted overruns => by
    rw [overruns.1.eq_clockOverflow moving enough] at halted
    exact clock halted
  have room : session.host.clock.toNat + spending session a b left right < UInt64.size := by
    rw [← serves.time]
    exact UInt64.toNat_lt_size _
  have mixing : EndsIn (Overruns session rounds (spending session a b left right)) _ _ :=
    run_serves interleaves here there apart
  obtain ⟨mixed, ended, serves'⟩ := mixing.exists_ok fun halt halted overruns =>
    Nat.not_le_of_lt room (overruns.2 (overruns.1.eq_clockOverflow moving enough))
  exact ⟨inTurn, mixed, finished, ended, concurs_of_serves apart.other serves' serves⟩

def loaded : Session Chip :=
  match readied.perform 4 (.allocate .data 5) with
  | .ok taken => taken.session
  | .error _ => readied

/-- Transfers within a buffer and past its end. -/
def bufferWork : List Operation :=
  [.writeAt .dataTx 3 [1, 2, 3], .setIndex .dataTx 6, .read .dataTx 1, .readAt .dataTx 2 4]

def scratchWork : List Operation :=
  [.writeAt .scratch 398 [7, 8, 9], .setIndex .scratch 401, .write .scratch [6],
    .readAt .scratch 397 3]

def mixedWork : List Operation :=
  [.writeAt .dataTx 3 [1, 2, 3], .writeAt .scratch 398 [7, 8, 9], .setIndex .scratch 401,
    .setIndex .dataTx 6, .read .dataTx 1, .write .scratch [6], .readAt .dataTx 2 4,
    .readAt .scratch 397 3]

theorem accesses_commute_loaded :
    ∃ inTurn mixed,
      loaded.run 4 ((bufferWork ++ scratchWork).map Step.perform) = .ok inTurn ∧
      loaded.run 4 (mixedWork.map Step.perform) = .ok mixed ∧
      inTurn.map (·.answer) = [.nothing, .nothing, .bytes [255], .bytes [0, 1, 2, 255], .nothing,
        .nothing, .nothing, .bytes [0, 7, 8]] ∧
      Concurs loaded .dataTx .scratch (mixedWork.map Step.perform)
        ((bufferWork ++ scratchWork).map Step.perform) mixed inTurn := by
  have apart : loaded.host.Apart .dataTx .scratch := ⟨by decide, by decide +kernel⟩
  have merges : Interleaves bufferWork scratchWork mixedWork :=
    .left _ (.right _ (.right _ (.left _ (.left _ (.right _ (.left _ (.right _ .nil)))))))
  obtain ⟨taken, finished, answers⟩ : ∃ taken,
      loaded.run 4 ((bufferWork ++ scratchWork).map Step.perform) = .ok taken ∧
        taken.map (·.answer) = [.nothing, .nothing, .bytes [255], .bytes [0, 1, 2, 255], .nothing,
          .nothing, .nothing, .bytes [0, 7, 8]] :=
    exists_ok_of_endsIn (by decide +kernel)
  obtain ⟨inTurn, mixed, ended, others, concurs⟩ :=
    accesses_commute 4 apart (by decide +kernel) (by decide +kernel) (by decide) (by decide) merges
      fun halted => nomatch finished.symm.trans halted
  obtain rfl : taken = inTurn := Except.ok.inj (finished.symm.trans ended)
  exact ⟨taken, mixed, finished, others, answers, concurs⟩

end Chip

end RadioWindows
