import RadioWindows.Program

/-! Running a program on a host. A host answers requests and may refuse one that it does not
understand. Waiting is bounded by a number of rounds, because a condition that never holds under
a clock that never moves would be looked at forever; a run that finishes within its rounds
finishes alike with more. -/

namespace RadioWindows

inductive Halt where
  /-- A wait used up its rounds. -/
  | outOfRounds
  /-- No register decodes this request. -/
  | notUnderstood (request : Request)
  /-- A copy whose operands do not name two windows, the second being the one it is issued on. -/
  | misdirectedCopy (window : Window) (operands : UInt16)
  /-- Released memory does not fit into the free count of its pool. -/
  | freeCountOverflow (traffic : Traffic)
  | clockOverflow
deriving DecidableEq, Repr

def Halt.describe : Halt → String
  | outOfRounds => "call limit"
  | notUnderstood (.read8 _) => "unexpected 8-bit read"
  | notUnderstood (.write8 ..) => "unexpected 8-bit write"
  | notUnderstood (.read16 register) => s!"unexpected 16-bit read of 0x{hexadecimal register.toNat}"
  | notUnderstood (.write16 register _) =>
    s!"unexpected 16-bit write of 0x{hexadecimal register.toNat}"
  | notUnderstood (.readBytes ..) => "bulk read from a non data register"
  | notUnderstood (.writeBytes ..) => "bulk write to a non data register"
  | notUnderstood _ => "unexpected request"
  | misdirectedCopy .. => "copy issued on a window other than the destination"
  | freeCountOverflow _ => "released memory exceeds the free count"
  | clockOverflow => "the clock exceeds its range"

class Host (σ : Type) where
  answer : (request : Request) → σ → Except Halt (request.Reply × σ)

variable {σ α β : Type} [Host σ]

def Condition.check : Condition → σ → Except Halt (Bool × σ)
  | settled holds, host => .ok (holds, host)
  | read8 register next, host => do
    let (value, host) ← Host.answer (.read8 register) host
    (next value).check host
  | read16 register next, host => do
    let (value, host) ← Host.answer (.read16 register) host
    (next value).check host

/-- The time from `start` to `time`; none, if the clock went backwards. -/
def elapsed (start time : UInt64) : UInt64 := if start ≤ time then time - start else 0

theorem elapsed_toNat {start time : UInt64} {past : Nat}
    (at_time : time.toNat = start.toNat + past) :
    (elapsed start time).toNat = past := by
  have le : start ≤ time := UInt64.le_iff_toNat_le.mpr (by omega)
  rw [elapsed, if_pos le, UInt64.toNat_sub_of_le _ _ le]
  omega

/-- Each round looks at the condition before it looks at the clock. So the condition is tested at
least once, and once more after the last delay even when the deadline has passed by then. -/
def pollFrom (start timeout : UInt64) (interval : UInt32) (condition : Condition) :
    Nat → σ → Except Halt (Bool × σ)
  | 0, _ => .error .outOfRounds
  | rounds + 1, host => do
    let (holds, host) ← condition.check host
    if holds then return (true, host)
    let (time, host) ← Host.answer .now host
    if elapsed start time > timeout then return (false, host)
    let ((), host) ← Host.answer (.delay interval) host
    pollFrom start timeout interval condition rounds host

def poll (rounds : Nat) (timeout : UInt64) (interval : UInt32) (condition : Condition)
    (host : σ) : Except Halt (Bool × σ) := do
  let (start, host) ← Host.answer .now host
  pollFrom start timeout interval condition rounds host

theorem bind_eq_ok {first : Except Halt α} {next : α → Except Halt β} {out : β} :
    first >>= next = .ok out ↔ ∃ value, first = .ok value ∧ next value = .ok out := by
  cases first with
  | error halt => simp [bind, Except.bind]
  | ok value => simp [bind, Except.bind]

theorem pollFrom_of_le {start timeout : UInt64} {interval : UInt32} {condition : Condition}
    {rounds more : Nat} {host : σ} {out : Bool × σ} (le : rounds ≤ more)
    (finished : pollFrom start timeout interval condition rounds host = .ok out) :
    pollFrom start timeout interval condition more host = .ok out := by
  induction rounds generalizing more host with
  | zero => simp [pollFrom] at finished
  | succ rounds ih =>
    obtain ⟨more, rfl⟩ : ∃ k, more = k + 1 := ⟨more - 1, by omega⟩
    simp only [pollFrom, bind_eq_ok] at finished ⊢
    obtain ⟨looked, hlooked, finished⟩ := finished
    refine ⟨looked, hlooked, ?_⟩
    by_cases holds : looked.1 = true
    · simpa only [if_pos holds] using finished
    · simp only [if_neg holds, bind_eq_ok] at finished ⊢
      obtain ⟨timed, htimed, finished⟩ := finished
      refine ⟨timed, htimed, ?_⟩
      by_cases late : elapsed start timed.1 > timeout
      · simpa only [if_pos late] using finished
      · simp only [if_neg late, bind_eq_ok] at finished ⊢
        obtain ⟨waited, hwaited, finished⟩ := finished
        exact ⟨waited, hwaited, ih (by omega) finished⟩

theorem poll_of_le {timeout : UInt64} {interval : UInt32} {condition : Condition}
    {rounds more : Nat} {host : σ} {out : Bool × σ} (le : rounds ≤ more)
    (finished : poll rounds timeout interval condition host = .ok out) :
    poll more timeout interval condition host = .ok out := by
  simp only [poll, bind_eq_ok] at finished ⊢
  obtain ⟨timed, htimed, finished⟩ := finished
  exact ⟨timed, htimed, pollFrom_of_le le finished⟩

structure Outcome (σ α : Type) where
  value : α
  host : σ
  log : List LogRecord
deriving DecidableEq, Repr

namespace Program

def run (rounds : Nat) : Program α → σ → Except Halt (Outcome σ α)
  | done value, host => .ok ⟨value, host, []⟩
  | ask request next, host => do
    let (reply, host) ← Host.answer request host
    (next reply).run rounds host
  | note record next, host => do
    let rest ← next.run rounds host
    return { rest with log := record :: rest.log }
  | await timeout interval condition next, host => do
    let (held, host) ← poll rounds timeout interval condition host
    (next held).run rounds host

theorem run_bind (rounds : Nat) (program : Program α) (next : α → Program β) (host : σ) :
    (program.bind next).run rounds host = (do
      let first ← program.run rounds host
      let rest ← (next first.value).run rounds first.host
      return { rest with log := first.log ++ rest.log }) := by
  induction program generalizing host with
  | done value =>
    simp only [bind, run]
    change _ = ((next value).run rounds host >>= fun rest => .ok rest)
    cases (next value).run rounds host <;> rfl
  | ask request rest ih =>
    simp only [bind, run]
    cases Host.answer request host with
    | error halt => rfl
    | ok answered => exact ih answered.1 answered.2
  | note record rest ih =>
    simp only [bind, run, ih]
    cases rest.run rounds host with
    | error halt => rfl
    | ok first =>
      change ((next first.value).run rounds first.host >>= _) >>= _ =
        ((next first.value).run rounds first.host >>= _)
      cases (next first.value).run rounds first.host <;> rfl
  | await timeout interval condition rest ih =>
    simp only [bind, run]
    cases poll rounds timeout interval condition host with
    | error halt => rfl
    | ok held => exact ih held.1 held.2

theorem run_of_le {rounds more : Nat} {program : Program α} {host : σ} {out : Outcome σ α}
    (le : rounds ≤ more) (finished : program.run rounds host = .ok out) :
    program.run more host = .ok out := by
  induction program generalizing host out with
  | done value => exact finished
  | ask request next ih =>
    simp only [run, bind_eq_ok] at finished ⊢
    obtain ⟨answered, hanswered, finished⟩ := finished
    exact ⟨answered, hanswered, ih _ finished⟩
  | note record next ih =>
    simp only [run, bind_eq_ok] at finished ⊢
    obtain ⟨rest, hrest, finished⟩ := finished
    exact ⟨rest, ih hrest, finished⟩
  | await timeout interval condition next ih =>
    simp only [run, bind_eq_ok] at finished ⊢
    obtain ⟨held, hheld, finished⟩ := finished
    exact ⟨held, poll_of_le le hheld, ih _ finished⟩

end Program

end RadioWindows
