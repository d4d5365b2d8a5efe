import RadioWindows.Proofs.Scripted.Recording
import RadioWindows.Proofs.SideBySide

/-! What the driver remembers is there to be reported and nothing else. Two drivers that remember
different things, on hosts of which either may throw reports away, do the same to their hosts: as
long as nobody asks for what is remembered, only the reports of accesses past an end tell the runs
apart. -/

namespace RadioWindows

namespace Call

def isReport : Call → Bool
  | .fault _ => true
  | _ => false

/-- The fault that is reported, unless it is an access past the end. -/
def report? : Call → Option Fault
  | .fault (.outOfBoundsAccess _) => none
  | .fault reported => some reported
  | _ => none

end Call

def Operation.AsksBookkeeping : Operation → Prop
  | scratchLength | isOutOfBounds _ | dataState _ => True
  | _ => False

namespace ScriptedHost

/-- The calls recorded, without reports. -/
def deeds (host : ScriptedHost) : List Call := host.calls.toList.filter (!·.isReport)

/-- The faults recorded, without accesses past the end. -/
def reports (host : ScriptedHost) : List Fault := host.calls.toList.filterMap Call.report?

/-- Hosts that differ at most in whether they record faults, and in what they have recorded of
them. Of two hosts that both record faults, all but the accesses past the end are the same. -/
structure Muted (host peer : ScriptedHost) : Prop where
  same : peer = { host with recordsFaults := peer.recordsFaults, calls := peer.calls }
  deeds : peer.deeds = host.deeds
  reports : host.recordsFaults → peer.recordsFaults → peer.reports = host.reports

section Answers

variable {host peer after : ScriptedHost} {calls : List Call}

theorem Adds.deeds_eq (adds : host.Adds after calls) :
    after.deeds = host.deeds ++ calls.filter (!·.isReport) := by
  rw [deeds, adds.calls_eq, List.filter_append, deeds]

theorem Adds.reports_eq (adds : host.Adds after calls) :
    after.reports = host.reports ++ calls.filterMap Call.report? := by
  rw [reports, adds.calls_eq, List.filterMap_append, reports]

theorem filter_recorded (records records' : Bool) (request : Request) (reply : request.Reply) :
    (request.recorded records reply).filter (!·.isReport) =
      (request.recorded records' reply).filter (!·.isReport) := by
  cases request with
  | report fault => cases records <;> cases records' <;> rfl
  | _ => rfl

theorem Muted.answer (muted : Muted host peer) (request : Request) :
    (host.answer request).1 = (peer.answer request).1 ∧
      Muted (host.answer request).2 (peer.answer request).2 := by
  have adds := adds_answer request host
  have adds' := adds_answer request peer
  have replies : (host.answer request).1 = (peer.answer request).1 := by
    rw [muted.same]
    cases request <;> rfl
  refine ⟨replies, ?_, ?_, fun records records' => ?_⟩
  · obtain ⟨records, calls, rfl⟩ : ∃ records calls,
        peer = { host with recordsFaults := records, calls } := ⟨_, _, muted.same⟩
    cases request with
    | report fault =>
      simp only [ScriptedHost.answer]
      split <;> split <;> rfl
    | _ => rfl
  · rw [adds'.deeds_eq, adds.deeds_eq, muted.deeds, ← replies]
    rw [filter_recorded peer.recordsFaults host.recordsFaults]
  · rw [adds.recordsFaults_eq] at records
    rw [adds'.recordsFaults_eq] at records'
    rw [adds'.reports_eq, adds.reports_eq, muted.reports records records', ← replies, records,
      records']

theorem Muted.symm (muted : Muted host peer) : Muted peer host where
  same := by rw [muted.same]
  deeds := muted.deeds.symm
  reports records records' := (muted.reports records' records).symm

theorem Muted.access_left (muted : Muted host peer) (w : Window) :
    Muted (host.answer (.report (.outOfBoundsAccess w))).2 peer := by
  have adds := adds_answer (.report (.outOfBoundsAccess w)) host
  refine ⟨?_, ?_, fun records records' => ?_⟩
  · simp only [ScriptedHost.answer]
    split <;> exact muted.same
  · rw [adds.deeds_eq, muted.deeds, Request.recorded]
    split <;> simp [Call.isReport]
  · rw [adds.recordsFaults_eq] at records
    rw [adds.reports_eq, muted.reports records records', Request.recorded]
    split <;> simp [Call.report?]

theorem Muted.access_right (muted : Muted host peer) (w : Window) :
    Muted host (peer.answer (.report (.outOfBoundsAccess w))).2 :=
  (muted.symm.access_left w).symm

theorem Muted.adjust (muted : Muted host peer) (setting : Setting) :
    Muted (ScriptedHost.adjust setting host) (ScriptedHost.adjust setting peer) := by
  refine ⟨?_, muted.deeds, muted.reports⟩
  rw [muted.same]
  rfl

theorem muted_recording (host : ScriptedHost) (records : Bool) :
    Muted host { host with recordsFaults := records } := ⟨rfl, rfl, fun _ _ => rfl⟩

end Answers

def muting (rounds : Nat) : Comparison ScriptedHost ScriptedHost where
  rounds := rounds
  rounds' := rounds
  allowed _ := False
  allowed' _ := False
  related session peer :=
    Muted session.host peer.host ∧ session.status.timing = peer.status.timing

section Muting

variable {rounds : Nat} {α : Type}

theorem muted_run (program : Program α) {host peer : ScriptedHost} (muted : Muted host peer) :
    Together (fun _ => False) (fun _ => False) (program.run rounds host) (program.run rounds peer)
      fun out out' => out.value = out'.value ∧ Muted out.host out'.host :=
  Program.run_lockstep (fun request _ _ before => before.answer request) rounds program muted

theorem same_program (program : Program α) :
    (muting rounds).Same (liftM program : Driver α) := by
  rintro session peer ⟨muted, timing⟩
  refine Comparison.beside_lift (Together.mono (muted_run program muted) ?_)
  exact fun out out' established => ⟨established.1, established.2, timing⟩

theorem same_timed {next : Status → Driver α}
    (blind : ∀ status other : Status, status.timing = other.timing → next status = next other)
    (rest : ∀ status, (muting rounds).Same (next status)) :
    (muting rounds).Same (get >>= next) := by
  rintro session peer ⟨muted, timing⟩
  refine Comparison.beside_get ?_
  rw [blind session.status peer.status timing]
  exact rest peer.status session peer ⟨muted, timing⟩

theorem same_modify (change : Status → Status) (untimed : Untimed change) :
    (muting rounds).Same (modify change : Driver Unit) := by
  rintro session peer ⟨muted, timing⟩
  refine ⟨rfl, muted, ?_⟩
  change (change session.status).timing = (change peer.status).timing
  rw [untimed.timing_eq, untimed.timing_eq, timing]

theorem same_checkAccess (w : Window) : (muting rounds).Same (Driver.checkAccess w) := by
  rintro session peer ⟨muted, timing⟩
  refine Comparison.beside_get (Comparison.beside_lift ?_)
  cases session.status.outOfBounds.contains w <;> cases peer.status.outOfBounds.contains w
  · exact ⟨rfl, muted, timing⟩
  · exact ⟨rfl, muted.access_right w, timing⟩
  · exact ⟨rfl, muted.access_left w, timing⟩
  · exact ⟨rfl, (muted.access_left w).access_right w, timing⟩

theorem same_setIndex (w : Window) (index : UInt16) :
    (muting rounds).Same (Driver.setIndex w index) := by
  refine same_timed (fun _ _ timing => by rw [timing]) fun status => ?_
  refine Comparison.same_bind (same_program _) fun settled => ?_
  cases settled with
  | true => exact same_modify _ fun _ _ => rfl
  | false => exact Comparison.same_bind (same_modify _ fun _ _ => rfl) fun _ => same_program _

theorem muting_keeps (rounds : Nat) : (muting rounds).Keeps where
  issue _ := same_timed (fun _ _ timing => by rw [timing]) fun _ => same_program _
  setIndex := same_setIndex
  checkAccess := same_checkAccess
  readData _ _ := same_program _
  writeData _ _ := same_program _
  readFree _ := same_program _
  raise _ := same_program _
  modify := same_modify

/-- Nothing but a query for what is remembered is answered differently, and the hosts are as they
were up to reports. -/
structure Indifferent (step : Step Setting) (one other : Taken ScriptedHost) : Prop where
  answer : (∀ operation, step = .perform operation → ¬operation.AsksBookkeeping) →
    other.answer = one.answer
  host : Muted one.session.host other.session.host

theorem step_indifferent (step : Step Setting) (session peer : Session ScriptedHost)
    (related : (muting rounds).related session peer) :
    Together (fun _ => False) (fun _ => False) (session.take rounds step) (peer.take rounds step)
      fun one other => (muting rounds).related one.session other.session ∧
        Indifferent step one other := by
  cases step with
  | adjust setting =>
    have muted := related.1.adjust setting
    exact ⟨⟨muted, related.2⟩, fun _ => rfl, muted⟩
  | perform operation =>
    refine Session.perform_together (muting rounds) ?_
    by_cases query : operation.IsQuery
    · refine Comparison.beside_query query fun log log' => ⟨related, fun other => ?_, related.1⟩
      have unasked : ¬operation.AsksBookkeeping := other operation rfl
      cases operation with
      | timing => exact congrArg Answer.timing related.2.symm
      | scratchLength | isOutOfBounds _ | dataState _ => exact absurd trivial unasked
      | _ => exact query.elim
    · refine Together.mono ((muting_keeps rounds).perform query session peer related) ?_
      rintro out out' ⟨same, after⟩ log log'
      exact ⟨after, fun _ => same.symm, after.1⟩

end Muting

/-- What the driver remembers and whether the host takes note of faults is of no consequence: a run
that ends in one session ends in the other, with the same answers to all but questions about what
is remembered, the same calls but for reports, and the same host. If both hosts record faults, all
reports but those of accesses past the end are the same. -/
theorem bookkeeping_advisory {rounds : Nat} {session : Session ScriptedHost}
    {steps : List (Step Setting)} {taken : List (Taken ScriptedHost)} (records : Bool)
    (status : Status) (sameTiming : status.timing = session.status.timing)
    (finished : session.run rounds steps = .ok taken) :
    ∃ others, (Session.mk { session.host with recordsFaults := records } status).run rounds steps =
        .ok others ∧
      Session.Matching Indifferent steps taken others := by
  have related : (muting rounds).related session
      ⟨{ session.host with recordsFaults := records }, status⟩ :=
    ⟨muted_recording session.host records, sameTiming.symm⟩
  exact (Session.run_together (fun step _ => step_indifferent step) related).of_ok finished

/-- An index that does not settle, transfers at it, a move that is late and an allocation that
fails. -/
def troubledSteps : List (Step Setting) :=
  [.perform (.setIndex .spare 9), .perform (.read .spare 2), .perform (.isOutOfBounds .dataTx),
    .perform (.write .dataTx [1, 2]), .perform (.allocate .data 3), .perform .timing,
    .adjust { clockStep := some 0, tapes16 := [(0x23, [0])] }, .perform (.readAt .spare 0 1)]

def busyHost : ScriptedHost :=
  ofSetting { tapes16 := [(0x23, [1]), (Register.dataFree, [8])], clockStep := some 30000 } true

theorem bookkeeping_advisory_troubledSteps :
    ∃ taken others, (Session.start busyHost {}).run 2 troubledSteps = .ok taken ∧
      (Session.mk { busyHost with recordsFaults := false }
        { timing := {}, outOfBounds := WindowMask.empty.insert .dataTx,
          dataStates := ⟨.mounted, .mounted⟩, scratchLength := some 7 }).run 2 troubledSteps =
        .ok others ∧
      taken.map (·.answer) = [.nothing, .bytes [0xee, 0xee], .flag false, .nothing,
        .refused (.allocationFailed .dataTx), .timing {}, .nothing, .bytes [0xee]] ∧
      Session.Matching Indifferent troubledSteps taken others := by
  obtain ⟨taken, finished, answers⟩ : ∃ taken,
      (Session.start busyHost {}).run 2 troubledSteps = .ok taken ∧
        taken.map (·.answer) = [.nothing, .bytes [0xee, 0xee], .flag false, .nothing,
          .refused (.allocationFailed .dataTx), .timing {}, .nothing, .bytes [0xee]] :=
    exists_ok_of_endsIn (by decide +kernel)
  obtain ⟨others, ended, matching⟩ := bookkeeping_advisory false
    { timing := {}, outOfBounds := WindowMask.empty.insert .dataTx,
      dataStates := ⟨.mounted, .mounted⟩, scratchLength := some 7 } rfl finished
  exact ⟨taken, others, finished, ended, answers, matching⟩

end ScriptedHost

end RadioWindows
