import RadioWindows.Scripted.Guard
import RadioWindows.Proofs.Scripted.Recording

/-! Guards nest. Each puts the interrupt back as it found it, whatever its body has done with the
interrupt and wherever the body is left; so a script as a whole moves the interrupt only by the
calls that stand outside all of its guards. -/

namespace RadioWindows

/-- What is recorded of a direct call that finds the interrupt in the state `enabled`; a register
reads as `value`. -/
def DirectCall.made (enabled : Bool) (value : UInt16) : DirectCall → Call
  | enableInterrupt => .enable enabled
  | disableInterrupt => .disable enabled
  | read16 register => .read16 register value
  | write16 register written => .write16 register written
  | delay microseconds => .delay microseconds

def DirectCall.interruptAfter (enabled : Bool) : DirectCall → Bool
  | enableInterrupt => true
  | disableInterrupt => false
  | _ => enabled

def Call.restoring (found current : Bool) : Call :=
  if found then .enable current else .disable current

def Call.isPeek : Call → Bool
  | peek _ => true
  | _ => false

/-- The hosts that a guard passes through. -/
structure GuardLife where
  before : ScriptedHost
  created : ScriptedHost
  /-- When the end of the body has been reached, or the guard has been left. -/
  ended : ScriptedHost
  dropped : ScriptedHost

/-- The guard has made one call when it was created and one when it was dropped, and the interrupt
is as it was before. -/
structure GuardLife.Restores (life : GuardLife) : Prop where
  creating : life.before.Adds life.created [.disable life.before.interruptEnabled]
  off : life.created.interruptEnabled = false
  dropping : life.ended.Adds life.dropped
    [.restoring life.before.interruptEnabled life.ended.interruptEnabled]
  restored : life.dropped.interruptEnabled = life.before.interruptEnabled

def GuardLife.around (before ended : ScriptedHost) : GuardLife :=
  ⟨before, (before.answer .disableInterrupt).2, ended, ended.restore before.interruptEnabled⟩

namespace GuardScript

/-- All guards of a run, those of a body after the guard around it. -/
def lives {inside : Bool} : GuardScript inside → ScriptedHost → List GuardLife
  | done, _ => []
  | call direct rest, host => rest.lives (host.call direct.request)
  | guarded body rest, host =>
    let (wasEnabled, created) := host.answer .disableInterrupt
    let ended := body.run created
    let dropped := ended.restore wasEnabled
    ⟨host, created, ended, dropped⟩ :: (body.lives created ++ rest.lives dropped)
  | enable rest, host => rest.lives (host.call .enableInterrupt)
  | leave _, _ => []
  | peek rest, host => rest.lives (host.record (.peek host.interruptEnabled))

/-- The calls that a script makes when it finds the interrupt in the state `enabled`. What stands
after a guard finds the interrupt as the guard did. -/
inductive Makes : {inside : Bool} → GuardScript inside → Bool → List Call → Prop where
  | done {inside enabled : Bool} : Makes (@done inside) enabled []
  | call {inside enabled : Bool} {rest : GuardScript inside} {calls : List Call}
      (direct : DirectCall) (value : UInt16)
      (later : Makes rest (direct.interruptAfter enabled) calls) :
      Makes (call direct rest) enabled (direct.made enabled value :: calls)
  | guarded {inside enabled : Bool} {body : GuardScript true} {rest : GuardScript inside}
      {inner calls : List Call} (within : Makes body false inner)
      (later : Makes rest enabled calls) :
      Makes (guarded body rest) enabled
        (.disable enabled :: (inner ++ .restoring enabled (interruptAfter false inner) :: calls))
  | enable {enabled : Bool} {rest : GuardScript true} {calls : List Call}
      (later : Makes rest true calls) : Makes (enable rest) enabled (.enable enabled :: calls)
  | leave {enabled : Bool} (skipped : GuardScript true) : Makes (leave skipped) enabled []
  | peek {enabled : Bool} {rest : GuardScript true} {calls : List Call}
      (later : Makes rest enabled calls) : Makes (peek rest) enabled (.peek enabled :: calls)

def outerCalls {inside : Bool} : GuardScript inside → List DirectCall
  | done | leave _ => []
  | call direct rest => direct :: rest.outerCalls
  | guarded _ rest | enable rest | peek rest => rest.outerCalls

end GuardScript

namespace ScriptedHost

theorem adds_call (host : ScriptedHost) (direct : DirectCall) :
    ∃ value, host.Adds (host.call direct.request) [direct.made host.interruptEnabled value] := by
  cases direct with
  | read16 register => exact ⟨_, adds_answer (.read16 register) host⟩
  | enableInterrupt => exact ⟨0, adds_answer .enableInterrupt host⟩
  | disableInterrupt => exact ⟨0, adds_answer .disableInterrupt host⟩
  | write16 register written => exact ⟨0, adds_answer (.write16 register written) host⟩
  | delay microseconds => exact ⟨0, adds_answer (.delay microseconds) host⟩

theorem interruptEnabled_call (host : ScriptedHost) (direct : DirectCall) :
    (host.call direct.request).interruptEnabled =
      direct.interruptAfter host.interruptEnabled := by
  cases direct <;> rfl

def unpeeked (host : ScriptedHost) : ScriptedHost :=
  { host with calls := host.calls.filter (!·.isPeek) }

theorem answer_unpeeked (host : ScriptedHost) (request : Request) :
    host.unpeeked.answer request =
      ((host.answer request).1, (host.answer request).2.unpeeked) := by
  cases request with
  | report fault =>
    cases recorded : host.recordsFaults <;> simp [answer, unpeeked, record, recorded, Call.isPeek]
  | _ => simp [answer, unpeeked, record, Call.isPeek]

theorem unpeeked_peek (host : ScriptedHost) (enabled : Bool) :
    (host.record (.peek enabled)).unpeeked = host.unpeeked := by
  simp [unpeeked, record, Call.isPeek]

theorem adds_restore (host : ScriptedHost) (found : Bool) :
    host.Adds (host.restore found) [.restoring found host.interruptEnabled] := by
  cases found with
  | true => exact adds_answer .enableInterrupt host
  | false => exact adds_answer .disableInterrupt host

theorem interruptEnabled_restore (host : ScriptedHost) (found : Bool) :
    (host.restore found).interruptEnabled = found := by
  cases found <;> rfl

end ScriptedHost

theorem GuardLife.restores_around (before ended : ScriptedHost) :
    (around before ended).Restores where
  creating := ScriptedHost.adds_answer .disableInterrupt before
  off := rfl
  dropping := ended.adds_restore before.interruptEnabled
  restored := ended.interruptEnabled_restore before.interruptEnabled

/-- A body that a program holds the interrupt for lives under the guard of a script. -/
theorem Program.ensures_holdingInterrupt {α : Type} {allowed : Halt → Prop} {rounds : Nat}
    {body : Program α} {host : ScriptedHost} {post : α → ScriptedHost → Prop} :
    (holdingInterrupt body).Ensures allowed rounds host post ↔
      body.Ensures allowed rounds (host.answer .disableInterrupt).2 fun value ended =>
        post value (GuardLife.around host ended).dropped := by
  simp only [holdingInterrupt, restoreInterrupt, ensures_ask, ensures_bind, ensures_tell,
    ensures_pure, ScriptedHost.host_answer, endsIn_ok]
  rfl

namespace GuardScript

theorem lives_restore {inside : Bool} (script : GuardScript inside) (host : ScriptedHost) :
    ∀ life ∈ script.lives host, life.Restores := by
  induction script generalizing host with
  | done | leave skipped => exact fun life member => absurd member List.not_mem_nil
  | call direct rest ih => exact ih _
  | enable rest ih | peek rest ih => exact ih _
  | guarded body rest inner later =>
    intro life member
    rcases List.mem_cons.mp member with rfl | member
    · exact GuardLife.restores_around host (body.run (host.answer .disableInterrupt).2)
    · rcases List.mem_append.mp member with within | after
      · exact inner _ life within
      · exact later _ life after

theorem adds_makes {inside : Bool} (script : GuardScript inside) (host : ScriptedHost) :
    ∃ calls, host.Adds (script.run host) calls ∧ script.Makes host.interruptEnabled calls := by
  induction script generalizing host with
  | done => exact ⟨[], .refl host, .done⟩
  | leave skipped => exact ⟨[], .refl host, .leave skipped⟩
  | call direct rest ih =>
    obtain ⟨value, called⟩ := host.adds_call direct
    obtain ⟨calls, adds, makes⟩ := ih (host.call direct.request)
    rw [ScriptedHost.interruptEnabled_call] at makes
    exact ⟨_, called.trans adds, .call direct value makes⟩
  | enable rest ih =>
    obtain ⟨calls, adds, makes⟩ := ih (host.call .enableInterrupt)
    exact ⟨_, (ScriptedHost.adds_answer .enableInterrupt host).trans adds, .enable makes⟩
  | peek rest ih =>
    have peeked : host.Adds (host.record (.peek host.interruptEnabled))
        [.peek host.interruptEnabled] := ⟨by simp [ScriptedHost.record], rfl, rfl⟩
    obtain ⟨calls, adds, makes⟩ := ih (host.record (.peek host.interruptEnabled))
    exact ⟨_, peeked.trans adds, .peek makes⟩
  | guarded body rest inner later =>
    have created := ScriptedHost.adds_answer .disableInterrupt host
    obtain ⟨within, bodyAdds, bodyMakes⟩ := inner (host.answer .disableInterrupt).2
    have dropped := (body.run (host.answer .disableInterrupt).2).adds_restore host.interruptEnabled
    obtain ⟨calls, adds, makes⟩ :=
      later ((body.run (host.answer .disableInterrupt).2).restore host.interruptEnabled)
    rw [ScriptedHost.interruptEnabled_restore] at makes
    -- The flag at the end of the body is what the calls of the body have made of it.
    rw [bodyAdds.interruptEnabled_eq] at dropped
    have recorded := ((created.trans bodyAdds).trans dropped).trans adds
    simp only [Request.recorded, List.append_assoc, List.singleton_append] at recorded
    exact ⟨_, recorded, .guarded bodyMakes makes⟩

theorem interruptEnabled_run {inside : Bool} (script : GuardScript inside)
    (outermost : inside = false) (host : ScriptedHost) :
    (script.run host).interruptEnabled =
      script.outerCalls.foldl DirectCall.interruptAfter host.interruptEnabled := by
  induction script generalizing host with
  | done => rfl
  | call direct rest ih =>
    rw [run, ih outermost, ScriptedHost.interruptEnabled_call, outerCalls, List.foldl_cons]
  | guarded body rest _ later =>
    rw [run, outerCalls, later outermost, ScriptedHost.interruptEnabled_restore]
    rfl
  | enable rest | leave skipped | peek rest => cases outermost

/-- A script as a program, with the guard under which moves are issued. A peek asks for nothing. -/
def program {inside : Bool} : GuardScript inside → Program Unit
  | done | leave _ => return
  | call direct rest => do
    Program.tell direct.request
    rest.program
  | guarded body rest => do
    Program.holdingInterrupt body.program
    rest.program
  | enable rest => do
    Program.tell .enableInterrupt
    rest.program
  | peek rest => rest.program

/-- Peeks apart, a script does to a host what its program does. -/
theorem program_ensures {inside : Bool} (script : GuardScript inside) (rounds : Nat)
    (host : ScriptedHost) :
    script.program.Ensures (fun _ => False) rounds host.unpeeked fun _ after =>
      after = (script.run host).unpeeked := by
  induction script generalizing host with
  | done | leave skipped => exact rfl
  | call direct rest ih =>
    rw [program, Program.ensures_bind, Program.ensures_tell, ScriptedHost.host_answer, endsIn_ok,
      ScriptedHost.answer_unpeeked]
    exact ih (host.call direct.request)
  | enable rest ih =>
    rw [program, Program.ensures_bind, Program.ensures_tell, ScriptedHost.host_answer, endsIn_ok,
      ScriptedHost.answer_unpeeked]
    exact ih (host.call .enableInterrupt)
  | peek rest ih =>
    rw [← host.unpeeked_peek host.interruptEnabled]
    exact ih (host.record (.peek host.interruptEnabled))
  | guarded body rest inner later =>
    rw [program, Program.ensures_bind, Program.ensures_holdingInterrupt,
      ScriptedHost.answer_unpeeked]
    refine (inner (host.answer .disableInterrupt).2).mono ?_
    rintro _ ended rfl
    have dropped (found : Bool) (ended : ScriptedHost) :
        ended.unpeeked.restore found = (ended.restore found).unpeeked :=
      congrArg Prod.snd (ended.answer_unpeeked (.restoring found))
    rw [GuardLife.around, dropped]
    exact later _

/-- On any host each guard of a script restores the interrupt by the one call that drops it, the
record holds the calls of the script and those two of each guard, and the script as a whole moves
the interrupt by its calls outside all guards alone. -/
theorem guards_nest (script : GuardScript false) (host : ScriptedHost) :
    (∀ life ∈ script.lives host, life.Restores) ∧
    (∃ calls, host.Adds (script.run host) calls ∧ script.Makes host.interruptEnabled calls) ∧
    (script.run host).interruptEnabled =
      script.outerCalls.foldl DirectCall.interruptAfter host.interruptEnabled :=
  ⟨script.lives_restore host, script.adds_makes host, script.interruptEnabled_run rfl host⟩

/-- An inner guard that is left early, in the body of a guard that turns the interrupt on. -/
example :
    let script : GuardScript false :=
      .guarded (.call .enableInterrupt (.guarded (.enable (.leave (.peek .done))) (.peek .done)))
        (.call (.delay 3) .done)
    (script.run { interruptEnabled := false }).calls.toList =
      [.disable false, .enable false, .disable true, .enable false, .enable true, .peek true,
        .disable true, .delay 3] := by
  decide

end GuardScript

end RadioWindows
