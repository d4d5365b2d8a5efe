import RadioWindows.Proofs.Acknowledging
import RadioWindows.Proofs.Granting
import RadioWindows.Proofs.Persistence

/-! Setting up the windows in any state. Its two moves concern scratch memory alone, which is there
to be mounted whatever windows are tied to and whatever is left over in the interrupt registers. And
what they leave is at rest: windows and bits are as the same moves would make them, so that setting
up once more is seen in nothing but the records and the clock. -/

namespace RadioWindows

def ChipWindow.remounted (window : ChipWindow) (size : Nat) (destination : Bool) : ChipWindow where
  mount :=
    if destination then .scratch else if window.mount = .scratch then .nothing else window.mount
  cursor := 0
  indexBusy := false
  count := .ofNat (if destination then size else 0)

theorem ChipWindow.remounted_remounted (window : ChipWindow) (size : Nat) (destination : Bool) :
    (window.remounted size destination).remounted size destination =
      window.remounted size destination := by
  cases destination with
  | true => rfl
  | false =>
    simp only [remounted, Bool.false_eq_true, if_false]
    split
    · rfl
    · rfl

/-- The bits of the two interrupt registers that a move on a window clears from first to last,
whether its completion is held back or not. -/
def Window.clears (w : Window) (stalled : Bool) : UInt8 × UInt16 :=
  match w.registers.completion with
  | .first mask => (mask, 0)
  | .second mask =>
    if stalled then (0, mask) else (Register.secondPending, Register.secondMoved)

namespace Chip

section Rest

/-- Chips that differ at most in their clock and in the records of moves and faults. -/
def Resembles (chip other : Chip) : Prop :=
  chip = { other with moves := chip.moves, faults := chip.faults, clock := chip.clock }

/-- No completion is on its way, and a move on the window would clear no bit. -/
structure AtRest (chip : Chip) (w : Window) : Prop where
  still : chip.unlatched = []
  interrupt : chip.interrupt &&& ~~~(w.clears chip.stalled).1 = chip.interrupt
  interrupt2 : chip.interrupt2 &&& ~~~(w.clears chip.stalled).2 = chip.interrupt2

variable {chip middle other : Chip} {w : Window}

theorem Resembles.trans (first : chip.Resembles middle) (second : middle.Resembles other) :
    chip.Resembles other := by
  rw [Resembles, second] at first
  exact first

theorem Resembles.alike (same : chip.Resembles other) : chip.Alike other := by
  rw [same]
  exact ⟨rfl, rfl, rfl, rfl, rfl, rfl, rfl⟩

theorem AtRest.of_resembles (rest : other.AtRest w) (same : chip.Resembles other) :
    chip.AtRest w := by
  rw [same]
  exact ⟨rest.still, rest.interrupt, rest.interrupt2⟩

theorem eq_of_alike (alike : chip.Alike other) (same : chip.circumstances = other.circumstances) :
    chip = other := by
  cases chip
  cases other
  obtain ⟨rfl, rfl, rfl, rfl, rfl, rfl, rfl⟩ := alike
  cases same
  rfl

variable (timing : Timing) {move : Move} {out : Nat × Chip}

theorem stalled_settled : (chip.settled timing move out).stalled = chip.stalled := by
  have latched (chip : Chip) : chip.latch.stalled = chip.stalled := by rw [latch_eq]
  have acknowledged (chip : Chip) : (chip.acknowledged move.target).stalled = chip.stalled := by
    cases move.target <;> rfl
  rw [settled, awaited]
  split
  · exact (acknowledged _).trans (latched _)
  · exact latched (chip.waiting move out)

theorem interrupts_cleared (still : chip.unlatched = []) :
    (chip.settled timing move out).interrupt =
        chip.interrupt &&& ~~~(move.target.clears chip.stalled).1 ∧
      (chip.settled timing move out).interrupt2 =
        chip.interrupt2 &&& ~~~(move.target.clears chip.stalled).2 := by
  cases stalled : chip.stalled with
  | true =>
    obtain ⟨first, second⟩ := interrupts_settled_of_stalled timing move out still stalled
    rw [first, second]
    cases move.target <;> simp [cleared, Window.clears, Window.registers]
  | false =>
    obtain ⟨first, second⟩ := interrupts_settled timing move out still stalled
    rw [first, second]
    cases move.target <;> simp [acknowledged, Window.clears, Window.registers]

theorem atRest_settled (still : chip.unlatched = []) :
    (chip.settled timing move out).AtRest move.target := by
  obtain ⟨interrupt, interrupt2⟩ := interrupts_cleared timing still
  refine ⟨unlatched_settled chip timing move out, ?_, ?_⟩
  · rw [stalled_settled, interrupt, UInt8.and_assoc, UInt8.and_self]
  · rw [stalled_settled, interrupt2, UInt16.and_assoc, UInt16.and_self]

theorem AtRest.settled (rest : chip.AtRest w) : (chip.settled timing move out).AtRest w := by
  obtain ⟨interrupt, interrupt2⟩ := interrupts_cleared timing rest.still
  refine ⟨unlatched_settled chip timing move out, ?_, ?_⟩
  · rw [stalled_settled, interrupt, UInt8.and_assoc, UInt8.and_comm (~~~_), ← UInt8.and_assoc,
      rest.interrupt]
  · rw [stalled_settled, interrupt2, UInt16.and_assoc, UInt16.and_comm (~~~_), ← UInt16.and_assoc,
      rest.interrupt2]

theorem settled_resembles (rest : chip.AtRest move.target)
    (same : (out.2.restart move.target out.1).Alike chip) :
    (chip.settled timing move out).Resembles chip := by
  obtain ⟨interrupt, interrupt2⟩ :
    (chip.settled timing move out).interrupt = _ ∧ (chip.settled timing move out).interrupt2 = _ :=
      interrupts_cleared timing rest.still
  refine eq_of_alike (((chip.alike_settled timing move out).trans same).trans ?_) ?_
  · exact ⟨rfl, rfl, rfl, rfl, rfl, rfl, rfl⟩
  · have unlatched := (unlatched_settled chip timing move out).trans rest.still.symm
    rw [circumstances, circumstances, unlatched, interrupt, interrupt2, rest.interrupt,
      rest.interrupt2, stalled_settled]
    rfl

theorem faults_of_still (still : chip.unlatched = []) :
    (chip.settled timing move out).faults =
      chip.faults ++ if chip.stalled then [.moveTimeout move.target] else [] := by
  cases stalled : chip.stalled with
  | true =>
    have deaf : chip.heeds move.target = false := by simp [heeds, still, stalled]
    exact (settled_of_not_heeds chip timing move out deaf).1
  | false =>
    have heeded : chip.heeds move.target = true := by simp [heeds, stalled]
    exact (settled_of_heeds chip timing move out heeded).1.trans (List.append_nil _).symm

end Rest

section Scratch

variable (chip : Chip) (timing : Timing) (w : Window) (destination : Bool)

def scratchOut : Nat × Chip :=
  if destination then (chip.scratch.length, chip.mount w .scratch)
  else (0, if (chip.window w).mount = .scratch then chip.mount w .nothing else chip)

theorem carryOut_scratchPool : (chip.placed ⟨w, .scratchPool, destination, 0⟩).carryOut w
    (Move.word ⟨w, .scratchPool, destination, 0⟩) = .ok (chip.scratchOut w destination) := by
  refine (carryOut_forMove chip w 0 .scratchPool destination).trans ?_
  cases destination <;> rfl

theorem restart_mount (mount : Mount) (count : Nat) :
    (chip.mount w mount).restart w count =
      chip.modifyWindow w fun _ => ⟨mount, 0, false, .ofNat count⟩ := by
  rw [Chip.mount, restart, modifyWindow_modifyWindow]

theorem restart_scratchOut :
    (chip.scratchOut w destination).2.restart w (chip.scratchOut w destination).1 =
      chip.modifyWindow w (·.remounted chip.scratch.length destination) := by
  cases destination with
  | true => exact restart_mount chip w _ _
  | false =>
    rw [scratchOut, if_neg Bool.false_ne_true]
    by_cases mounted : (chip.window w).mount = .scratch
    · rw [if_pos mounted, restart_mount]
      simp [modifyWindow, ChipWindow.remounted, mounted]
    · rw [if_neg mounted]
      simp [restart, modifyWindow, ChipWindow.remounted, mounted]

def remounted : Chip :=
  chip.settled timing ⟨w, .scratchPool, destination, 0⟩ (chip.scratchOut w destination)

theorem alike_remounted : (chip.remounted timing w destination).Alike
    (chip.modifyWindow w (·.remounted chip.scratch.length destination)) := by
  rw [← restart_scratchOut]
  exact chip.alike_settled timing ⟨w, .scratchPool, destination, 0⟩ _

variable {chip w destination}

theorem remounted_resembles (rest : chip.AtRest w) {old : ChipWindow}
    (remounted : chip.window w = old.remounted chip.scratch.length destination) :
    (chip.remounted timing w destination).Resembles chip := by
  have same : chip.modifyWindow w (·.remounted chip.scratch.length destination) = chip :=
    modifyWindow_self chip w (by rw [remounted, ChipWindow.remounted_remounted])
  refine settled_resembles timing rest ?_
  change ((chip.scratchOut w destination).2.restart w (chip.scratchOut w destination).1).Alike chip
  rw [restart_scratchOut, same]
  exact .refl chip

variable {timing}

theorem ensures_remounted (rounds : Nat) :
    (Move.issue timing ⟨w, .scratchPool, destination, 0⟩).Ensures (timing.Allows rounds) rounds
      chip fun count after => count = .ofNat (if destination then chip.scratch.length else 0) ∧
        after = chip.remounted timing w destination := by
  refine (issue_of_ok (carryOut_scratchPool chip w destination) Timing.patient_move).mono ?_
  rintro count after ⟨counted, rfl, -⟩
  refine ⟨counted.trans ?_, rfl⟩
  cases destination <;> rfl

end Scratch

section SetUp

def arranged (chip : Chip) (timing : Timing) : Chip :=
  (chip.remounted timing .dataTx false).remounted timing .scratch true

theorem Alike.modifyWindow {chip other : Chip} (alike : chip.Alike other) (w : Window)
    (change : ChipWindow → ChipWindow) :
    (chip.modifyWindow w change).Alike (other.modifyWindow w change) where
  windows := by rw [Chip.modifyWindow, Chip.modifyWindow, alike.windows, alike.window]
  scratch := alike.scratch
  mgmtFree := alike.mgmtFree
  dataFree := alike.dataFree
  received := alike.received
  sent := alike.sent
  failing := alike.failing

variable (chip : Chip) (timing : Timing)

theorem alike_arranged : (chip.arranged timing).Alike
    ((chip.modifyWindow .dataTx (·.remounted chip.scratch.length false)).modifyWindow .scratch
      (·.remounted chip.scratch.length true)) := by
  have first := chip.alike_remounted timing .dataTx false
  have second := (chip.remounted timing .dataTx false).alike_remounted timing .scratch true
  have size : (chip.remounted timing .dataTx false).scratch.length = chip.scratch.length :=
    congrArg List.length first.scratch
  rw [size] at second
  exact second.trans (first.modifyWindow .scratch _)

theorem window_arranged (w : Window) : (chip.arranged timing).window w =
    if w = .dataTx then (chip.window w).remounted chip.scratch.length false
    else if w = .scratch then (chip.window w).remounted chip.scratch.length true
    else chip.window w := by
  rw [(chip.alike_arranged timing).window]
  cases w <;> rfl

theorem moves_arranged : (chip.arranged timing).moves = chip.moves ++
    [(.dataTx, .forMove .scratchPool false 0), (.scratch, .forMove .scratchPool true 0)] := by
  rw [arranged, remounted, moves_settled, remounted, moves_settled, List.append_assoc]
  rfl

variable {chip} (still : chip.unlatched = [])
include still

theorem faults_arranged : (chip.arranged timing).faults = chip.faults ++
    if chip.stalled then [.moveTimeout .dataTx, .moveTimeout .scratch] else [] := by
  have middle : (chip.remounted timing .dataTx false).unlatched = [] := unlatched_settled _ _ _ _
  rw [arranged, remounted, faults_of_still timing middle, remounted, stalled_settled,
    faults_of_still timing still, List.append_assoc]
  split
  · rfl
  · rfl

theorem atRest_arranged :
    (chip.arranged timing).AtRest .dataTx ∧ (chip.arranged timing).AtRest .scratch := by
  -- The second move leaves the first window at rest, and brings its own to rest.
  have middle : (chip.remounted timing .dataTx false).AtRest .dataTx := atRest_settled timing still
  exact ⟨middle.settled timing, atRest_settled timing middle.still⟩

/-- Setting up again is seen in nothing but the records and the clock. -/
theorem arranged_resembles :
    ((chip.arranged timing).arranged timing).Resembles (chip.arranged timing) := by
  obtain ⟨restTx, restScratch⟩ := atRest_arranged timing still
  have size : (chip.arranged timing).scratch.length = chip.scratch.length :=
    congrArg List.length (chip.alike_arranged timing).scratch
  have first : ((chip.arranged timing).remounted timing .dataTx false).Resembles
      (chip.arranged timing) := by
    have tied : (chip.arranged timing).window .dataTx =
        (chip.window .dataTx).remounted (chip.arranged timing).scratch.length false := by
      rw [window_arranged, size]
      rfl
    exact remounted_resembles timing restTx tied
  have second : ((chip.arranged timing).arranged timing).Resembles
      ((chip.arranged timing).remounted timing .dataTx false) := by
    have tied : ((chip.arranged timing).remounted timing .dataTx false).window .scratch =
        (chip.window .scratch).remounted
          ((chip.arranged timing).remounted timing .dataTx false).scratch.length true := by
      rw [first.alike.window, first.alike.scratch, window_arranged, size]
      rfl
    exact remounted_resembles timing (restScratch.of_resembles first) tied
  exact second.trans first

end SetUp

section Operation

variable {session : Session Chip} {rounds : Nat}

theorem ensures_setUp :
    Driver.setUp.Ensures (session.status.timing.Allows rounds) rounds session fun count after =>
      count = .ofNat session.host.scratch.length ∧
        after = ⟨session.host.arranged session.status.timing, { session.status with
          dataStates := ⟨.unmounted, .unmounted⟩
          scratchLength := some (.ofNat session.host.scratch.length) }⟩ := by
  simp only [Driver.setUp, Driver.unmountScratch, Driver.mountScratch, Driver.issue,
    Driver.ensures_bind, Driver.ensures_lift, Program.ensures_log, Driver.ensures_discard,
    Driver.ensures_get, Driver.ensures_modify, Driver.ensures_pure]
  refine (ensures_remounted rounds).mono fun _ middle released => ?_
  rw [released.2]
  refine (ensures_remounted rounds).mono fun count after mounted => ?_
  obtain ⟨counted, rfl⟩ := mounted
  have size : (session.host.remounted session.status.timing .dataTx false).scratch =
      session.host.scratch := (session.host.alike_remounted _ _ _).scratch
  have length : count = .ofNat session.host.scratch.length := by
    rw [counted, if_pos rfl, size]
  exact ⟨length, by rw [length]; rfl⟩

theorem Reachable.unlatched (reachable : Reachable session) : session.host.unlatched = [] := by
  induction reachable with
  | start timing => rfl
  | perform before finished ih =>
    next session operation rounds taken =>
    have ends : EndsIn (Suffers session.status.timing rounds)
        (session.run rounds [.perform operation]) fun taken =>
          ∀ one ∈ taken, one.session.host.unlatched = [] := run_unlatched rfl ih
    have ran : session.run rounds [.perform operation] = .ok [taken] := by
      rw [Session.run, Session.take, finished]
      rfl
    exact ends.of_ok ran taken List.mem_cons_self
  | adjust before room ih =>
    next session change =>
    have ends : EndsIn (Suffers session.status.timing 0) (session.run 0 [.adjust change])
        fun taken => ∀ one ∈ taken, one.session.host.unlatched = [] := run_unlatched rfl ih
    exact ends.of_ok rfl _ List.mem_cons_self

structure Prepared (before after : Session Chip) : Prop where
  status : after.status = { before.status with
    dataStates := ⟨.unmounted, .unmounted⟩
    scratchLength := some 400 }
  home : (after.host.window .scratch).mount = .scratch
  dataTx : (after.host.window .dataTx).mount =
    if (before.host.window .dataTx).mount = .scratch then .nothing
    else (before.host.window .dataTx).mount
  elsewhere : ∀ w, w ≠ .dataTx → w ≠ .scratch → after.host.window w = before.host.window w
  scratch : after.host.scratch = before.host.scratch
  free : ∀ traffic, after.host.free traffic = before.host.free traffic
  received : after.host.received = before.host.received
  sent : after.host.sent = before.host.sent
  moves : after.host.moves = before.host.moves ++
    [(.dataTx, .forMove .scratchPool false 0), (.scratch, .forMove .scratchPool true 0)]
  faults : after.host.faults = before.host.faults ++
    if before.host.stalled then [.moveTimeout .dataTx, .moveTimeout .scratch] else []

theorem perform_setUp (reachable : Reachable session) :
    EndsIn (session.status.timing.Allows rounds) (session.perform rounds .setUp) fun taken =>
      taken.answer = .count 400 ∧ Prepared session taken.session ∧
        taken.session.host = session.host.arranged session.status.timing := by
  have size : UInt16.ofNat session.host.scratch.length = 400 := by
    rw [reachable.length_scratch]
    rfl
  refine Session.perform_endsIn ?_
  rw [Operation.perform, Driver.ensures_map]
  refine ensures_setUp.mono fun count after ended log => ?_
  obtain ⟨rfl, rfl⟩ := ended
  rw [size]
  have alike := session.host.alike_arranged session.status.timing
  have window := session.host.window_arranged session.status.timing
  refine ⟨rfl, ⟨rfl, ?home, ?dataTx, ?elsewhere, alike.scratch, ?free, alike.received, alike.sent,
    moves_arranged _ _, faults_arranged _ reachable.unlatched⟩, rfl⟩
  case home => exact congrArg ChipWindow.mount (window .scratch)
  case dataTx => exact congrArg ChipWindow.mount (window .dataTx)
  case elsewhere =>
    intro w other different
    rw [window, if_neg other, if_neg different]
  case free =>
    intro traffic
    rw [alike.free, free_modifyWindow, free_modifyWindow]

/-- Setting up works in any state that can come about, whatever windows are tied to, whatever is
left over in the interrupt registers and whether completions are held back or not; and setting up
again changes nothing but the records and the clock. -/
theorem setUp_prepares (rounds : Nat) {session : Session Chip} (reachable : Reachable session)
    (moving : session.status.timing.pollInterval ≠ 0)
    (enough : session.status.timing.enoughRounds ≤ rounds)
    (clock : session.perform rounds .setUp ≠ .error .clockOverflow) :
    ∃ first, session.perform rounds .setUp = .ok first ∧ first.answer = .count 400 ∧
      Prepared session first.session ∧
      (first.session.perform rounds .setUp ≠ .error .clockOverflow →
        ∃ second, first.session.perform rounds .setUp = .ok second ∧ second.answer = .count 400 ∧
          Prepared first.session second.session ∧
          second.session.status = first.session.status ∧
          second.session.host.Resembles first.session.host ∧
          (session.host.stalled = false →
            second.session.host.faults = first.session.host.faults)) := by
  obtain ⟨first, finished, answer, prepared, left⟩ :=
    Timing.finishes (perform_setUp reachable) moving enough clock
  have timing : first.session.status.timing = session.status.timing := by rw [prepared.status]
  refine ⟨first, finished, answer, prepared, fun inTime => ?_⟩
  obtain ⟨second, ended, answered, again, leaves⟩ :=
    Timing.finishes (perform_setUp (reachable.perform finished)) (timing ▸ moving)
      (timing ▸ enough) inTime
  refine ⟨second, ended, answered, again, ?status, ?host, fun prompt => ?faults⟩
  case status => rw [again.status, prepared.status]
  case host =>
    rw [leaves, left, timing]
    exact arranged_resembles _ reachable.unlatched
  case faults =>
    have still : first.session.host.stalled = false := by
      rw [left, arranged, remounted, stalled_settled, remounted, stalled_settled]
      exact prompt
    rw [again.faults, still]
    exact List.append_nil _

end Operation

/-- A session in which allocations fail and completions are held back. A received frame takes the
place of scratch memory, and interrupt bits are left over. -/
def disordered : Session Chip :=
  match strained.perform 4 (.mountRx .scratch) with
  | .ok taken =>
    let host := adjust (.setStalled true) taken.session.host
    { taken.session with host := adjust (.setInterrupt 0xff) host }
  | .error _ => strained

theorem reachable_disordered : Reachable disordered := by
  rw [disordered]
  split
  · next taken finished =>
    have stalling : Reachable
        { taken.session with host := adjust (.setStalled true) taken.session.host } :=
      (reachable_strained.perform finished).adjust fun _ _ same => by cases same
    exact stalling.adjust fun _ _ same => by cases same
  · exact reachable_strained

theorem setUp_prepares_disordered :
    (disordered.host.window .scratch).mount = .frame [] ∧
    (disordered.host.window .dataTx).mount = .segment .data (List.replicate 5 0) ∧
    ∃ first second, disordered.perform 4 .setUp = .ok first ∧
      first.session.perform 4 .setUp = .ok second ∧ first.answer = .count 400 ∧
      Prepared disordered first.session ∧
      (first.session.host.window .dataTx).mount = .segment .data (List.replicate 5 0) ∧
      second.session.host.Resembles first.session.host ∧
      second.session.host.faults = first.session.host.faults ++
        [.moveTimeout .dataTx, .moveTimeout .scratch] := by
  have held : (disordered.host.window .dataTx).mount = .segment .data (List.replicate 5 0) := by
    decide +kernel
  obtain ⟨first, finished, later⟩ : ∃ first, disordered.perform 4 .setUp = .ok first ∧
      EndsIn (fun _ => False) (first.session.perform 4 .setUp) fun second =>
        second.session.host.faults = first.session.host.faults ++
          [.moveTimeout .dataTx, .moveTimeout .scratch] :=
    exists_ok_of_endsIn (by decide +kernel)
  obtain ⟨second, ended, faults⟩ := exists_ok_of_endsIn later
  obtain ⟨found, same, answer, prepared, repeats⟩ := setUp_prepares 4 reachable_disordered
    (by decide +kernel) (by decide +kernel) fun halted => nomatch finished.symm.trans halted
  obtain rfl : first = found := Except.ok.inj (finished.symm.trans same)
  obtain ⟨again, alike, -, -, -, resembles, -⟩ := repeats fun halted =>
    nomatch ended.symm.trans halted
  obtain rfl : second = again := Except.ok.inj (ended.symm.trans alike)
  refine ⟨by decide +kernel, held, first, second, finished, ended, answer, prepared, ?_, resembles,
    faults⟩
  rw [prepared.dataTx, held]
  rfl

end Chip

end RadioWindows
