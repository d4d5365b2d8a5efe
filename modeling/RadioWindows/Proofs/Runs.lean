import RadioWindows.Proofs.Requests

/-! Runs of many steps. `Along` relates every step of a run to the session before it; what one
step preserves and establishes, the run preserves and establishes at each of its steps. -/

namespace RadioWindows

namespace Session

variable {σ χ : Type}

/-- A relation between the session before a step, the step, and what was taken, at each step. -/
def Along (relation : Session σ → Step χ → Taken σ → Prop) :
    Session σ → List (Step χ) → List (Taken σ) → Prop
  | _, [], [] => True
  | session, step :: steps, taken :: others =>
    relation session step taken ∧ Along relation taken.session steps others
  | _, _, _ => False

instance decidableAlong (relation : Session σ → Step χ → Taken σ → Prop)
    [∀ session step taken, Decidable (relation session step taken)] :
    (session : Session σ) → (steps : List (Step χ)) → (taken : List (Taken σ)) →
      Decidable (Along relation session steps taken)
  | _, [], [] => .isTrue trivial
  | session, step :: steps, taken :: others =>
    have := decidableAlong relation taken.session steps others
    inferInstanceAs (Decidable (relation session step taken ∧
      Along relation taken.session steps others))
  | _, [], _ :: _ => .isFalse id
  | _, _ :: _, [] => .isFalse id

def after (session : Session σ) (taken : List (Taken σ)) : Session σ :=
  (taken.getLast?.map (·.session)).getD session

@[simp] theorem after_nil (session : Session σ) : session.after [] = session := rfl

@[simp] theorem after_cons (session : Session σ) (taken : Taken σ) (others : List (Taken σ)) :
    session.after (taken :: others) = taken.session.after others := by
  cases others with
  | nil => rfl
  | cons other rest => simp [after, List.getLast?_cons]

theorem after_append (session : Session σ) (taken others : List (Taken σ)) :
    session.after (taken ++ others) = (session.after taken).after others := by
  induction taken generalizing session with
  | nil => rfl
  | cons first rest ih => rw [List.cons_append, after_cons, ih, after_cons]

theorem Along.mono {relation weaker : Session σ → Step χ → Taken σ → Prop}
    (le : ∀ session step taken, relation session step taken → weaker session step taken)
    {session : Session σ} {steps : List (Step χ)} {taken : List (Taken σ)}
    (along : Along relation session steps taken) : Along weaker session steps taken := by
  induction steps generalizing session taken with
  | nil =>
    cases taken with
    | nil => trivial
    | cons first others => exact along
  | cons step steps ih =>
    cases taken with
    | nil => exact along
    | cons first others => exact ⟨le _ _ _ along.1, ih along.2⟩

theorem Along.and {relation other : Session σ → Step χ → Taken σ → Prop} {session : Session σ}
    {steps : List (Step χ)} {taken : List (Taken σ)} (along : Along relation session steps taken)
    (besides : Along other session steps taken) :
    Along (fun session step taken => relation session step taken ∧ other session step taken)
      session steps taken := by
  induction steps generalizing session taken with
  | nil =>
    cases taken with
    | nil => trivial
    | cons first others => exact along
  | cons step steps ih =>
    cases taken with
    | nil => exact along
    | cons first others => exact ⟨⟨along.1, besides.1⟩, ih along.2 besides.2⟩

theorem Along.forall_mem {property : Session σ → Prop} {session : Session σ}
    {steps : List (Step χ)} {taken : List (Taken σ)}
    (along : Along (fun _ _ taken => property taken.session) session steps taken) :
    ∀ one ∈ taken, property one.session := by
  induction steps generalizing session taken with
  | nil =>
    cases taken with
    | nil => simp
    | cons first others => exact along.elim
  | cons step steps ih =>
    cases taken with
    | nil => exact along.elim
    | cons first others => exact List.forall_mem_cons.mpr ⟨along.1, ih along.2⟩

variable [Host σ] [Adjustable σ χ] {allowed : Halt → Prop} {rounds : Nat}

def Always (property : Request → σ → Prop) (rounds : Nat) :
    List (Step χ) → Session σ → Prop
  | [], _ => True
  | .perform operation :: steps, session =>
    (operation.perform.run session.status).Always property rounds session.host ∧
      EndsIn (fun _ => True) (session.perform rounds operation) fun taken =>
        Always property rounds steps taken.session
  | .adjust change :: steps, session =>
    Always property rounds steps { session with host := Adjustable.adjust change session.host }

instance decidableAlways (property : Request → σ → Prop)
    [∀ request host, Decidable (property request host)] (rounds : Nat) :
    (steps : List (Step χ)) → (session : Session σ) →
      Decidable (Always property rounds steps session)
  | [], _ => .isTrue trivial
  | .perform operation :: steps, session =>
    have := fun taken : Taken σ => decidableAlways property rounds steps taken.session
    inferInstanceAs (Decidable (
      (operation.perform.run session.status).Always property rounds session.host ∧
        EndsIn (fun _ => True) (session.perform rounds operation) fun taken =>
          Always property rounds steps taken.session))
  | .adjust change :: steps, session =>
    decidableAlways property rounds steps
      { session with host := Adjustable.adjust change session.host }

theorem Always.tail {property : Request → σ → Prop} {step : Step χ} {steps : List (Step χ)}
    {session : Session σ} (always : Always property rounds (step :: steps) session)
    {taken : Taken σ} (stepped : session.take rounds step = .ok taken) :
    Always property rounds steps taken.session := by
  cases step with
  | perform operation => exact always.2.of_ok stepped
  | adjust change =>
    cases stepped
    exact always

theorem run_endsIn {kept : Session σ → Prop} {relation : Session σ → Step χ → Taken σ → Prop}
    {steps : List (Step χ)}
    (step : ∀ step ∈ steps, ∀ session, kept session →
      EndsIn allowed (session.take rounds step) fun taken =>
        kept taken.session ∧ relation session step taken)
    {session : Session σ} (before : kept session) :
    EndsIn allowed (session.run rounds steps) fun taken =>
      kept (session.after taken) ∧ Along relation session steps taken := by
  induction steps generalizing session with
  | nil => exact ⟨before, trivial⟩
  | cons first steps ih =>
    simp only [run, endsIn_bind, endsIn_pure]
    refine EndsIn.mono (step first List.mem_cons_self session before) fun taken established => ?_
    have rest := ih (fun later member => step later (List.mem_cons_of_mem first member))
      established.1
    refine EndsIn.mono rest fun others following => ?_
    rw [after_cons]
    exact ⟨following.1, established.2, following.2⟩

/-- What every step establishes, whatever came before, holds all along a run. -/
theorem run_along {relation : Session σ → Step χ → Taken σ → Prop} {steps : List (Step χ)}
    (step : ∀ step ∈ steps, ∀ session, EndsIn allowed (session.take rounds step) fun taken =>
      relation session step taken) (session : Session σ) :
    EndsIn allowed (session.run rounds steps) fun taken => Along relation session steps taken := by
  let anything : Session σ → Prop := fun _ => True
  have along : EndsIn allowed (session.run rounds steps) fun taken =>
      anything (session.after taken) ∧ Along relation session steps taken :=
    run_endsIn (fun first member before _ => EndsIn.mono (step first member before)
      fun _ established => ⟨trivial, established⟩) trivial
  exact EndsIn.mono along fun _ established => established.2

theorem run_takes {steps : List (Step χ)} {session : Session σ} {taken : List (Taken σ)}
    (finished : session.run rounds steps = .ok taken) :
    Along (fun session step taken => session.take rounds step = .ok taken) session steps taken := by
  have along : EndsIn (fun _ => True) (session.run rounds steps) _ :=
    run_along (fun step _ session => endsIn_true_iff.mpr fun _ taken => taken) session
  exact along.of_ok finished

theorem run_pair {first second : Step χ} {session : Session σ} {taken : List (Taken σ)}
    (finished : session.run rounds [first, second] = .ok taken) :
    ∃ one other, taken = [one, other] ∧ session.take rounds first = .ok one ∧
      one.session.take rounds second = .ok other := by
  simp only [run, bind_eq_ok] at finished
  obtain ⟨one, takesOne, others, ⟨other, takesOther, none, rest, lasts⟩, starts⟩ := finished
  cases rest
  cases lasts
  cases starts
  exact ⟨one, other, rfl, takesOne, takesOther⟩

theorem run_append {first second : List (Step χ)} {session : Session σ}
    {post : List (Taken σ) → Prop} :
    EndsIn allowed (session.run rounds (first ++ second)) post ↔
      EndsIn allowed (session.run rounds first) fun taken =>
        EndsIn allowed ((session.after taken).run rounds second) fun others =>
          post (taken ++ others) := by
  induction first generalizing session post with
  | nil => rfl
  | cons step first ih =>
    simp only [List.cons_append, run, endsIn_bind, endsIn_pure, ih, after_cons]

theorem run_length (steps : List (Step χ)) (session : Session σ) :
    EndsIn (fun _ => True) (session.run rounds steps) fun taken => taken.length = steps.length := by
  induction steps generalizing session with
  | nil => rfl
  | cons step steps ih =>
    rw [run, endsIn_bind]
    refine endsIn_true_iff.mpr fun first _ => ?_
    rw [endsIn_bind]
    exact EndsIn.mono (ih first.session) fun taken same => congrArg (· + 1) same

theorem always_of_forall {property : Request → σ → Prop}
    (all : ∀ request host, property request host) (steps : List (Step χ)) (session : Session σ) :
    Always property rounds steps session := by
  induction steps generalizing session with
  | nil => trivial
  | cons step steps ih =>
    cases step with
    | perform operation =>
      exact ⟨Program.always_of_forall all _ _, endsIn_true_iff.mpr fun taken _ => ih taken.session⟩
    | adjust change => exact ih _

theorem run_keeps (kept : σ → Prop) (property : Request → σ → Prop) {steps : List (Step χ)}
    (endless : allowed .outOfRounds)
    (looks : ∀ request host, request.IsLook → kept host →
      EndsIn allowed (Host.answer request host) fun answered => kept answered.2)
    (asks : ∀ request host, property request host → kept host →
      EndsIn allowed (Host.answer request host) fun answered => kept answered.2)
    (adjusts : ∀ change, .adjust change ∈ steps → ∀ host, kept host →
      kept (Adjustable.adjust change host))
    {session : Session σ} (always : Always property rounds steps session)
    (before : kept session.host) :
    EndsIn allowed (session.run rounds steps) fun taken =>
      ∀ one ∈ taken, kept one.session.host := by
  induction steps generalizing session with
  | nil => exact fun one member => absurd member List.not_mem_nil
  | cons first steps ih =>
    have one : EndsIn allowed (session.take rounds first) fun taken => kept taken.session.host := by
      cases first with
      | adjust change => exact adjusts change List.mem_cons_self session.host before
      | perform operation =>
        refine perform_endsIn ?_
        exact Program.Ensures.mono (Program.run_keeps endless looks asks always.1 before)
          fun _ _ keeps _ => keeps
    rw [run, endsIn_bind]
    cases stepped : session.take rounds first with
    | error halt => exact one.of_error stepped
    | ok taken =>
      have now := one.of_ok stepped
      simp only [endsIn_ok, endsIn_bind, endsIn_pure]
      refine EndsIn.mono (ih (fun change member => adjusts change (List.mem_cons_of_mem _ member))
        (always.tail stepped) now) fun others later => ?_
      exact List.forall_mem_cons.mpr ⟨now, later⟩

end Session

end RadioWindows
