import Mathlib.Data.Nat.Find
import RadioWindows.Proofs.Scripted.Recording

/-! Waiting on a scripted host, round by round. The clock may go in any way: it may stand still,
jump, go backwards or wrap. Of the rounds that a wait would make, the first that finds the condition
true or comes too late is its last one, and it is the look at the condition that decides. A clock
that is left to its own steps has come too late after a known number of rounds. -/

namespace RadioWindows

def Call.isDelay : Call → Bool
  | delay _ => true
  | _ => false

namespace Condition

def look : Condition → ScriptedHost → Bool × ScriptedHost
  | settled holds, host => (holds, host)
  | read8 register next, host =>
    (next (host.answer (.read8 register)).1).look (host.answer (.read8 register)).2
  | read16 register next, host =>
    (next (host.answer (.read16 register)).1).look (host.answer (.read16 register)).2

def lookCalls : Condition → ScriptedHost → List Call
  | settled _, _ => []
  | read8 register next, host => .read8 register (host.answer (.read8 register)).1 ::
    (next (host.answer (.read8 register)).1).lookCalls (host.answer (.read8 register)).2
  | read16 register next, host => .read16 register (host.answer (.read16 register)).1 ::
    (next (host.answer (.read16 register)).1).lookCalls (host.answer (.read16 register)).2

theorem check_eq_look (condition : Condition) (host : ScriptedHost) :
    condition.check host = .ok (condition.look host) := by
  induction condition generalizing host with
  | settled holds => rfl
  | read8 register next ih => exact ih _ _
  | read16 register next ih => exact ih _ _

theorem adds_look (condition : Condition) (host : ScriptedHost) :
    host.Adds (condition.look host).2 (condition.lookCalls host) := by
  induction condition generalizing host with
  | settled holds => exact .refl host
  | read8 register next ih => exact (host.adds_answer (.read8 register)).trans (ih _ _)
  | read16 register next ih => exact (host.adds_answer (.read16 register)).trans (ih _ _)

theorem countP_lookCalls (condition : Condition) (host : ScriptedHost) :
    (condition.lookCalls host).countP (·.isDelay) = 0 := by
  induction condition generalizing host with
  | settled holds => rfl
  | read8 register next ih => exact (List.countP_cons_of_neg Bool.false_ne_true).trans (ih _ _)
  | read16 register next ih => exact (List.countP_cons_of_neg Bool.false_ne_true).trans (ih _ _)

end Condition

structure Wait where
  timeout : UInt64
  interval : UInt32
  condition : Condition
  host : ScriptedHost

namespace Wait

variable (wait : Wait)

/-- The wait, cut short after so many rounds. -/
def poll (limit : Nat) : Except Halt (Bool × ScriptedHost) :=
  RadioWindows.poll limit wait.timeout wait.interval wait.condition wait.host

def start : UInt64 := (wait.host.answer .now).1

/-- The host as a round finds it, if the wait gets there. Rounds are counted from zero. -/
def found : Nat → ScriptedHost
  | 0 => (wait.host.answer .now).2
  | j + 1 =>
    (((wait.condition.look (found j)).2.answer .now).2.answer (.delay wait.interval)).2

def holds (j : Nat) : Bool := (wait.condition.look (wait.found j)).1

def afterLook (j : Nat) : ScriptedHost := (wait.condition.look (wait.found j)).2

/-- The reading of the clock that ends a round, where the condition is false. -/
def time (j : Nat) : UInt64 := ((wait.afterLook j).answer .now).1

def afterTime (j : Nat) : ScriptedHost := ((wait.afterLook j).answer .now).2

/-- More time than the timeout has passed at the end of a round. -/
def Late (j : Nat) : Prop := wait.timeout < elapsed wait.start (wait.time j)

instance (j : Nat) : Decidable (wait.Late j) := inferInstanceAs (Decidable (_ < _))

def Passes (j : Nat) : Prop := wait.holds j = false ∧ ¬wait.Late j

instance (j : Nat) : Decidable (wait.Passes j) := inferInstanceAs (Decidable (_ ∧ _))

def looks (j : Nat) : List Call := wait.condition.lookCalls (wait.found j)

def callsBefore (n : Nat) : List Call := .now wait.start ::
  (List.range n).flatMap fun j => wait.looks j ++ [.now (wait.time j), .delay wait.interval]

theorem callsBefore_succ (n : Nat) : wait.callsBefore (n + 1) =
    wait.callsBefore n ++ wait.looks n ++ [.now (wait.time n)] ++ [.delay wait.interval] := by
  simp [callsBefore, List.range_succ]

theorem adds_afterLook {n : Nat} {calls : List Call}
    (adds : wait.host.Adds (wait.found n) calls) :
    wait.host.Adds (wait.afterLook n) (calls ++ wait.looks n) :=
  adds.trans (wait.condition.adds_look (wait.found n))

theorem adds_afterTime {n : Nat} {calls : List Call}
    (adds : wait.host.Adds (wait.found n) calls) :
    wait.host.Adds (wait.afterTime n) (calls ++ wait.looks n ++ [.now (wait.time n)]) :=
  (wait.adds_afterLook adds).trans ((wait.afterLook n).adds_answer .now)

theorem adds_found (n : Nat) : wait.host.Adds (wait.found n) (wait.callsBefore n) := by
  induction n with
  | zero => exact wait.host.adds_answer .now
  | succ n ih =>
    rw [callsBefore_succ]
    exact (wait.adds_afterTime ih).trans ((wait.afterTime n).adds_answer (.delay wait.interval))

theorem countP_looks (n : Nat) : (wait.looks n).countP (·.isDelay) = 0 :=
  wait.condition.countP_lookCalls (wait.found n)

theorem countP_callsBefore (n : Nat) : (wait.callsBefore n).countP (·.isDelay) = n := by
  induction n with
  | zero => rfl
  | succ n ih =>
    rw [callsBefore_succ, List.countP_append, List.countP_append, List.countP_append, ih,
      countP_looks]
    rfl

def pollAt (limit n : Nat) : Except Halt (Bool × ScriptedHost) :=
  pollFrom wait.start wait.timeout wait.interval wait.condition limit (wait.found n)

theorem pollAt_succ (limit n : Nat) : wait.pollAt (limit + 1) n =
    if wait.holds n then .ok (true, wait.afterLook n)
    else if wait.Late n then .ok (false, wait.afterTime n)
    else wait.pollAt limit (n + 1) := by
  rw [pollAt, pollFrom, Condition.check_eq_look]
  rfl

section Rounds

variable {wait} {n : Nat}

theorem poll_add (passed : ∀ j < n, wait.Passes j) (limit : Nat) :
    wait.poll (limit + n) = wait.pollAt limit n := by
  induction n generalizing limit with
  | zero => rfl
  | succ n ih =>
    obtain ⟨unmet, early⟩ := passed n n.lt_succ_self
    have earlier := ih (fun j before => passed j (Nat.lt_succ_of_lt before)) (limit + 1)
    rw [pollAt_succ, unmet, if_neg Bool.false_ne_true, if_neg early] at earlier
    rw [← earlier, Nat.add_right_comm, Nat.add_assoc]

theorem poll_eq_outOfRounds (passed : ∀ j < n, wait.Passes j) :
    wait.poll n = .error .outOfRounds := by
  have cut := poll_add passed 0
  rwa [Nat.zero_add] at cut

theorem poll_eq_of_decides (passed : ∀ j < n, wait.Passes j) (decides : ¬wait.Passes n)
    (limit : Nat) :
    wait.poll limit = if n < limit then
        .ok (wait.holds n, if wait.holds n then wait.afterLook n else wait.afterTime n)
      else .error .outOfRounds := by
  split
  · next enough =>
    obtain ⟨spare, rfl⟩ : ∃ spare, limit = spare + 1 + n := ⟨limit - 1 - n, by omega⟩
    rw [poll_add passed, pollAt_succ]
    cases found : wait.holds n with
    | true => rfl
    | false =>
      have late : wait.Late n := Decidable.not_not.mp fun early => decides ⟨found, early⟩
      rw [if_neg Bool.false_ne_true, if_pos late, if_neg Bool.false_ne_true]
  · next short =>
    exact poll_eq_outOfRounds fun j before => passed j (by omega)

end Rounds

/-- What a wait comes to whose last round is this one: it returns when it may make so many rounds,
and not before. Each round but the last ends with a delay. The last thing that is done before the
wait returns true is a look at the condition; before it returns false, a look and a reading of the
clock. -/
structure EndsAt (n : Nat) (held : Bool) : Prop where
  short (limit : Nat) (few : limit ≤ n) : wait.poll limit = .error .outOfRounds
  enough : ∃ after, (∀ limit > n, wait.poll limit = .ok (held, after)) ∧
    wait.host.Adds after (wait.callsBefore n ++ wait.looks n ++
      if held then [] else [.now (wait.time n)])
  delays : (wait.callsBefore n ++ wait.looks n).countP (·.isDelay) = n

section Outcome

variable {wait} {n : Nat}

theorem endsAt_of_decides (passed : ∀ j < n, wait.Passes j) (decides : ¬wait.Passes n) :
    wait.EndsAt n (wait.holds n) where
  short limit few := by rw [poll_eq_of_decides passed decides, if_neg (Nat.not_lt.mpr few)]
  enough := by
    refine ⟨_, fun limit more => by rw [poll_eq_of_decides passed decides, if_pos more], ?_⟩
    cases wait.holds n with
    | true =>
      rw [if_pos rfl, if_pos rfl, List.append_nil]
      exact wait.adds_afterLook (wait.adds_found n)
    | false => exact wait.adds_afterTime (wait.adds_found n)
  delays := by rw [List.countP_append, countP_callsBefore, countP_looks, Nat.add_zero]

theorem exists_first (some_decides : ∃ j, ¬wait.Passes j) :
    ∃ n, (∀ j < n, wait.Passes j) ∧ ¬wait.Passes n :=
  ⟨Nat.find some_decides, fun _ before => Decidable.not_not.mp (Nat.find_min some_decides before),
    Nat.find_spec some_decides⟩

theorem never_returns_iff :
    (∀ limit, wait.poll limit = .error .outOfRounds) ↔ ∀ j, wait.Passes j := by
  refine ⟨fun never => ?_, fun passed limit => poll_eq_outOfRounds fun j _ => passed j⟩
  by_contra not_all
  obtain ⟨n, passed, decides⟩ := exists_first (not_forall.mp not_all)
  have returns := poll_eq_of_decides passed decides (n + 1)
  rw [never, if_pos n.lt_succ_self] at returns
  cases returns

theorem exists_endsAt {limit : Nat} {out : Bool × ScriptedHost}
    (returned : wait.poll limit = .ok out) :
    ∃ n < limit, out.1 = wait.holds n ∧ (∀ j < n, wait.Passes j) ∧ wait.EndsAt n out.1 := by
  have some_decides : ∃ j, ¬wait.Passes j := by
    by_contra all_pass
    have never := never_returns_iff.mpr (fun j => not_not.mp (not_exists.mp all_pass j)) limit
    rw [never] at returned
    cases returned
  obtain ⟨n, passed, decides⟩ := exists_first some_decides
  have ends := endsAt_of_decides passed decides
  rw [poll_eq_of_decides passed decides] at returned
  split at returned
  · next enough =>
    cases returned
    exact ⟨n, enough, rfl, passed, ends⟩
  · cases returned

end Outcome

end Wait

namespace ScriptedHost

variable {host : ScriptedHost} {clock step : UInt64}

structure Shows (host : ScriptedHost) (clock step : UInt64) : Prop where
  clock_eq : host.clock = clock
  step_eq : host.clockStep = step
  unset : host.times = []

theorem Shows.now (shows : host.Shows clock step) :
    (host.answer .now).1 = clock ∧ (host.answer .now).2.Shows (clock + step) step := by
  have time : host.times.headD host.clock = clock := by rw [shows.unset, shows.clock_eq]; rfl
  refine ⟨time, ⟨?_, shows.step_eq, ?_⟩⟩
  · change host.times.headD host.clock + host.clockStep = clock + step
    rw [time, shows.step_eq]
  · change host.times.tail = []
    rw [shows.unset, List.tail_nil]

theorem Shows.delay (shows : host.Shows clock step) (interval : UInt32) :
    (host.answer (.delay interval)).2.Shows (clock + interval.toUInt64) step :=
  ⟨congrArg (· + interval.toUInt64) shows.clock_eq, shows.step_eq, shows.unset⟩

theorem Shows.look (shows : host.Shows clock step) (condition : Condition) :
    (condition.look host).2.Shows clock step := by
  induction condition generalizing host with
  | settled holds => exact shows
  | read8 register next ih => exact ih _ ⟨shows.clock_eq, shows.step_eq, shows.unset⟩
  | read16 register next ih => exact ih _ ⟨shows.clock_eq, shows.step_eq, shows.unset⟩

end ScriptedHost

namespace Wait

section Stepping

/-- The last round that a wait can make under a clock that is left to its steps. -/
def lastRound (wait : Wait) : Nat :=
  (wait.timeout.toNat + wait.interval.toNat) /
    (wait.host.clockStep.toNat + wait.interval.toNat)

variable {wait : Wait} {n : Nat}

theorem shows_found_succ {clock : UInt64}
    (shows : (wait.found n).Shows clock wait.host.clockStep) :
    wait.time n = clock ∧ (wait.found (n + 1)).Shows
      (clock + wait.host.clockStep + wait.interval.toUInt64) wait.host.clockStep := by
  obtain ⟨time, after⟩ := (shows.look wait.condition).now
  exact ⟨time, after.delay wait.interval⟩

theorem mul_le_of_le_lastRound (within : n ≤ wait.lastRound) :
    n * (wait.host.clockStep.toNat + wait.interval.toNat) ≤
      wait.timeout.toNat + wait.interval.toNat :=
  Nat.le_trans (Nat.mul_le_mul_right _ within) (Nat.div_mul_le_self _ _)

/-- The clock is left to its steps, and it does not wrap before the wait is over. -/
structure Steady (wait : Wait) : Prop where
  unset : wait.host.times = []
  moves : 1 ≤ wait.host.clockStep.toNat + wait.interval.toNat
  fits : wait.start.toNat + wait.timeout.toNat + wait.host.clockStep.toNat +
    wait.interval.toNat < UInt64.size

theorem shows_found (steady : wait.Steady) (within : n ≤ wait.lastRound) :
    ∃ clock, (wait.found n).Shows clock wait.host.clockStep ∧
      clock.toNat = wait.start.toNat + wait.host.clockStep.toNat +
        n * (wait.host.clockStep.toNat + wait.interval.toNat) := by
  have fits : _ < 2 ^ 64 := steady.fits
  induction n with
  | zero =>
    have shows : wait.host.Shows wait.host.clock wait.host.clockStep := ⟨rfl, rfl, steady.unset⟩
    obtain ⟨start, after⟩ := shows.now
    refine ⟨_, after, ?_⟩
    rw [← start, ← Wait.start, UInt64.toNat_add, Nat.mod_eq_of_lt (by omega), Nat.zero_mul,
      Nat.add_zero]
  | succ n ih =>
    obtain ⟨clock, shows, now⟩ := ih (Nat.le_of_succ_le within)
    have early := mul_le_of_le_lastRound within
    rw [Nat.succ_mul] at early ⊢
    refine ⟨_, (shows_found_succ shows).2, ?_⟩
    -- The round was not the last one, so it ended within the timeout and neither sum wraps.
    rw [UInt64.toNat_add, UInt64.toNat_add, UInt32.toNat_toUInt64, now,
      Nat.mod_eq_of_lt (b := 2 ^ 64) (by omega), Nat.mod_eq_of_lt (by omega)]
    omega

theorem toNat_time (steady : wait.Steady) (within : n ≤ wait.lastRound) :
    (wait.time n).toNat = wait.start.toNat + wait.host.clockStep.toNat +
      n * (wait.host.clockStep.toNat + wait.interval.toNat) := by
  obtain ⟨clock, shows, now⟩ := shows_found steady within
  rw [(shows_found_succ shows).1, now]

theorem late_iff (steady : wait.Steady) (within : n ≤ wait.lastRound) :
    wait.Late n ↔ n = wait.lastRound := by
  have time := toNat_time steady within
  rw [Nat.add_assoc] at time
  have reached : wait.lastRound < n + 1 ↔ wait.timeout.toNat + wait.interval.toNat <
      (n + 1) * (wait.host.clockStep.toNat + wait.interval.toNat) :=
    Nat.div_lt_iff_lt_mul steady.moves
  rw [Nat.succ_mul] at reached
  rw [Late, UInt64.lt_iff_toNat_lt, elapsed_toNat time]
  omega

theorem time_le (steady : wait.Steady) (within : n ≤ wait.lastRound) :
    (wait.time n).toNat ≤ wait.start.toNat + wait.timeout.toNat +
      wait.host.clockStep.toNat + wait.interval.toNat := by
  have least := mul_le_of_le_lastRound within
  rw [toNat_time steady within]
  omega

theorem lastRound_le (moves : 1 ≤ wait.host.clockStep.toNat + wait.interval.toNat) :
    wait.lastRound ≤
      wait.timeout.toNat / (wait.host.clockStep.toNat + wait.interval.toNat) + 1 := by
  rw [← Nat.add_div_right _ moves]
  exact Nat.div_le_div_right (by omega)

theorem exists_poll_eq_ok (steady : wait.Steady) {limit : Nat} (enough : wait.lastRound < limit) :
    ∃ out, wait.poll limit = .ok out := by
  have late : wait.Late wait.lastRound := (late_iff steady (Nat.le_refl _)).mpr rfl
  obtain ⟨n, passed, decides⟩ := exists_first ⟨wait.lastRound, fun passes => passes.2 late⟩
  have inTime : n ≤ wait.lastRound :=
    Nat.le_of_not_lt fun after => (passed wait.lastRound after).2 late
  exact ⟨_, (poll_eq_of_decides passed decides limit).trans
    (if_pos (Nat.lt_of_le_of_lt inTime enough))⟩

end Stepping

/-- What a wait comes to, under any clock. The first true look at the condition ends it, if no round
before was late; the first late round ends it, if all looks were false; and it goes on for ever only
if neither comes up. Whenever it returns, it has looked at the condition after its last delay, and
returns what it saw there, late or not. A clock that is left to its steps ends it within
`lastRound + 1` rounds, and no reading is later than one step and one delay after the timeout. -/
theorem first_round_decides (wait : Wait) :
    (∀ m, (∀ j < m, wait.holds j = false) → wait.holds m = true → (∀ j < m, ¬wait.Late j) →
      wait.EndsAt m true) ∧
    (∀ k, (∀ j ≤ k, wait.holds j = false) → wait.Late k → (∀ j < k, ¬wait.Late j) →
      wait.EndsAt k false) ∧
    ((∀ limit, wait.poll limit = .error .outOfRounds) ↔
      ∀ j, wait.holds j = false ∧ ¬wait.Late j) ∧
    (∀ limit out, wait.poll limit = .ok out →
      ∃ n < limit, out.1 = wait.holds n ∧ wait.EndsAt n out.1) ∧
    (wait.Steady →
      (∀ limit > wait.lastRound, ∃ out, wait.poll limit = .ok out) ∧
      (∀ j ≤ wait.lastRound, (wait.Late j ↔ j = wait.lastRound) ∧ (wait.time j).toNat ≤
        wait.start.toNat + wait.timeout.toNat + wait.host.clockStep.toNat +
          wait.interval.toNat) ∧
      wait.lastRound ≤
        wait.timeout.toNat / (wait.host.clockStep.toNat + wait.interval.toNat) + 1) := by
  refine ⟨fun m unmet met early => ?_, fun k unmet late early => ?_, never_returns_iff,
    fun limit out returned => ?_, fun steady => ⟨fun limit => exists_poll_eq_ok steady,
      fun j within => ⟨late_iff steady within, time_le steady within⟩,
      lastRound_le steady.moves⟩⟩
  · have ends := endsAt_of_decides (fun j before => ⟨unmet j before, early j before⟩)
      fun passes : wait.Passes m => Bool.false_ne_true (passes.1.symm.trans met)
    rwa [met] at ends
  · have passed (j : Nat) (before : j < k) : wait.Passes j :=
      ⟨unmet j (Nat.le_of_lt before), early j before⟩
    have ends := endsAt_of_decides passed fun passes => passes.2 late
    rwa [unmet k (Nat.le_refl k)] at ends
  · obtain ⟨n, inTime, found, _, ends⟩ := exists_endsAt returned
    exact ⟨n, inTime, found, ends⟩

def wanderingWait (busy : List UInt16) : Wait where
  timeout := 20
  interval := 10
  condition := .read16 Window.spare.registers.status fun bits =>
    .settled (bits &&& Register.indexBusy == 0)
  host := .ofSetting { tapes16 := [(Window.spare.registers.status, busy)],
                       times := [100, 90, 121, 122] } true

def steadyWait : Wait where
  timeout := 20
  interval := 4
  condition := (wanderingWait []).condition
  host := .ofSetting { blank16 := some 1, clock := some 5, clockStep := some 3 } true

/-- An index that settles during the last delay has settled in time. -/
theorem first_round_decides_wandering :
    ((wanderingWait [1, 0]).Late 1 ∧ (wanderingWait [1, 0]).EndsAt 1 true) ∧
    (wanderingWait [1, 1, 0]).EndsAt 1 false ∧
    steadyWait.Steady ∧ steadyWait.lastRound = 3 ∧ ∃ out, steadyWait.poll 4 = .ok out := by
  obtain ⟨met, -⟩ := first_round_decides (wanderingWait [1, 0])
  obtain ⟨-, missed, -⟩ := first_round_decides (wanderingWait [1, 1, 0])
  obtain ⟨-, -, -, -, steadily⟩ := first_round_decides steadyWait
  have steady : steadyWait.Steady := ⟨rfl, by decide, by decide⟩
  exact ⟨⟨by decide, met 1 (by decide) (by decide) (by decide)⟩,
    missed 1 (by decide) (by decide) (by decide), steady, by decide,
    (steadily steady).1 4 (by decide)⟩

end Wait

end RadioWindows
