import RadioWindows.Proofs.Runs

/-! What a run has done so far. Of the operations that were performed only the latest of a kind
counts for what is remembered of that kind: what every step keeps of it, with the operation that it
performs in place of the one found if it is of the kind, holds at the end of a run. -/

namespace RadioWindows

structure Performed (σ : Type) where
  before : Session σ
  operation : Operation
  taken : Taken σ

def Operation.setting? : Operation → Option (Window × UInt16)
  | setIndex w index | readAt w index _ | writeAt w index _ => some (w, index)
  | _ => none

variable {σ χ : Type}

def Performed.sets (w : Window) (one : Performed σ) : Bool :=
  one.operation.setting?.any (·.1 = w)

theorem Performed.sets_iff {w : Window} {one : Performed σ} :
    one.sets w = true ↔ ∃ index, one.operation.setting? = some (w, index) := by
  rw [sets]
  cases one.operation.setting? with
  | none => simp
  | some setting =>
    obtain ⟨v, index⟩ := setting
    simp

namespace Session

def performed : Session σ → List (Step χ) → List (Taken σ) → List (Performed σ)
  | session, .perform operation :: steps, taken :: others =>
    ⟨session, operation, taken⟩ :: performed taken.session steps others
  | _, .adjust _ :: steps, taken :: others => performed taken.session steps others
  | _, _, _ => []

def latest (kind : Performed σ → Bool) (session : Session σ) (steps : List (Step χ))
    (taken : List (Taken σ)) : Option (Performed σ) :=
  (session.performed steps taken).reverse.find? kind

section Latest

variable {kind : Performed σ → Bool} {session : Session σ} {steps : List (Step χ)}
  {taken : Taken σ} {others : List (Taken σ)}

@[simp] theorem latest_nil (others : List (Taken σ)) :
    session.latest kind ([] : List (Step χ)) others = none := rfl

theorem latest_perform (operation : Operation) :
    session.latest kind (.perform operation :: steps) (taken :: others) =
      (taken.session.latest kind steps others).or
        (if kind ⟨session, operation, taken⟩ then some ⟨session, operation, taken⟩ else none) := by
  rw [latest, performed, List.reverse_cons, List.find?_append, List.find?_singleton, latest]

theorem latest_adjust (change : χ) :
    session.latest kind (.adjust change :: steps) (taken :: others) =
      taken.session.latest kind steps others := rfl

end Latest

section Along

variable {relation : Session σ → Step χ → Taken σ → Prop} {kind : Performed σ → Bool}
  {session : Session σ} {steps : List (Step χ)} {taken : List (Taken σ)}

theorem Along.take (along : Along relation session steps taken) (k : Nat) :
    Along relation session (steps.take k) (taken.take k) := by
  induction k generalizing session steps taken with
  | zero => trivial
  | succ k ih =>
    cases steps with
    | nil =>
      cases taken with
      | nil => trivial
      | cons first others => exact along.elim
    | cons step steps =>
      cases taken with
      | nil => exact along.elim
      | cons first others => exact ⟨along.1, ih along.2⟩

theorem Along.keeps {kept : Session σ → Prop}
    (keeps : ∀ before step taken, relation before step taken → kept before → kept taken.session)
    (along : Along relation session steps taken) (start : kept session) :
    kept (session.after taken) := by
  induction steps generalizing session taken with
  | nil =>
    cases taken with
    | nil => exact start
    | cons first others => exact along.elim
  | cons step steps ih =>
    cases taken with
    | nil => exact along.elim
    | cons first others =>
      rw [after_cons]
      exact ih along.2 (keeps session step first along.1 start)

theorem Along.latest_keeps {kept : Option (Performed σ) → Session σ → Prop}
    (performs : ∀ found before operation taken, relation before (.perform operation) taken →
      kept found before → kept (if kind ⟨before, operation, taken⟩ then
        some ⟨before, operation, taken⟩ else found) taken.session)
    (adjusts : ∀ found before change taken, relation before (.adjust change) taken →
      kept found before → kept found taken.session)
    (along : Along relation session steps taken) {found : Option (Performed σ)}
    (start : kept found session) :
    kept ((session.latest kind steps taken).or found) (session.after taken) := by
  -- With any earlier finding, the first step is no other case than a later one.
  induction steps generalizing session taken found with
  | nil =>
    cases taken with
    | nil =>
      rw [latest_nil, Option.none_or]
      exact start
    | cons first others => exact along.elim
  | cons step steps ih =>
    cases taken with
    | nil => exact along.elim
    | cons first others =>
      rw [after_cons]
      cases step with
      | perform operation =>
        have later := ih along.2 (performs found session operation first along.1 start)
        rw [latest_perform, Option.or_assoc]
        by_cases ofKind : kind ⟨session, operation, first⟩ = true
        · simpa only [if_pos ofKind, Option.some_or] using later
        · simpa only [if_neg ofKind, Option.none_or] using later
      | adjust change =>
        rw [latest_adjust]
        exact ih along.2 (adjusts found session change first along.1 start)

/-- A step decides a property by the operation that it performs, if that is of the kind, and
otherwise leaves it as it was. -/
def Decides (holds : Session σ → Prop) (kind : Performed σ → Bool) (makes : Performed σ → Prop)
    (before : Session σ) (step : Step χ) (taken : Taken σ) : Prop :=
  match step with
  | .perform operation =>
    if kind ⟨before, operation, taken⟩ then holds taken.session ↔ makes ⟨before, operation, taken⟩
    else holds taken.session ↔ holds before
  | .adjust _ => holds taken.session ↔ holds before

/-- A property that every step decides is what the latest operation of the kind has made it. -/
theorem Along.iff_latest {holds : Session σ → Prop} {makes : Performed σ → Prop}
    (along : Along (Decides holds kind makes) session steps taken) (start : ¬holds session) :
    holds (session.after taken) ↔
      ∃ one, session.latest kind steps taken = some one ∧ makes one := by
  let kept (found : Option (Performed σ)) (session : Session σ) : Prop :=
    holds session ↔ ∃ one, found = some one ∧ makes one
  have none_found : kept none session := iff_of_false start (by simp)
  have ended : kept ((session.latest kind steps taken).or none) (session.after taken) :=
    along.latest_keeps ?performs ?adjusts none_found
  case performs =>
    intro found before operation taken decides same
    rw [Decides] at decides
    by_cases ofKind : kind ⟨before, operation, taken⟩ = true
    · rw [if_pos ofKind] at decides
      simpa [kept, ofKind] using decides
    · rw [if_neg ofKind] at decides
      simpa only [kept, if_neg ofKind] using decides.trans same
  case adjusts =>
    exact fun found before change taken decides same => decides.trans same
  simpa only [kept, Option.or_none] using ended

end Along

end Session

end RadioWindows
