import RadioWindows.Proofs.ControlWord
import RadioWindows.Proofs.Scripted.Handshake

/-! Allocation on a host that answers what it likes. The driver looks at the free bytes once. If
they are too few, it does nothing; otherwise they bound what it asks for, so the size fits its
control word. If the move gives no bytes, the driver takes back whatever it has mounted. Only an
allocation that succeeds changes what the driver remembers. -/

namespace RadioWindows

def Traffic.mounting (traffic : Traffic) (size : UInt16) : Move :=
  ⟨traffic.txWindow, traffic.pool, true, size⟩

def Traffic.releasing (traffic : Traffic) : Move := ⟨traffic.txWindow, traffic.pool, false, 0⟩

/-- A control word says what a move was asked for, its size uncut. -/
structure Move.SaysAll (move : Move) : Prop where
  selector : Selector.ofBits move.word.selector = move.pool.selector
  destination : move.word.destination = move.destination
  size : move.word.size = move.size

theorem Move.saysAll_of_lt {move : Move} (fits : move.size.toNat < 4096) : move.SaysAll where
  selector := by rw [word, ControlWord.selector_forMove, Selector.ofBits_bits_selector]
  destination := ControlWord.destination_forMove _ _ _
  size := by rw [word, ControlWord.size_forMove, ControlWord.and_sizeMask_of_lt fits]

theorem toNat_and_freeCountMask_lt (value : UInt16) :
    (value &&& Register.freeCountMask).toNat < 4096 := by
  have masked : value &&& Register.freeCountMask = value &&& ControlWord.sizeMask := rfl
  rw [masked, ControlWord.toNat_and_sizeMask]
  exact Nat.mod_lt _ (by decide)

namespace ScriptedHost

def available (host : ScriptedHost) (traffic : Traffic) : UInt16 :=
  (host.answer (.read16 traffic.freeRegister)).1 &&& Register.freeCountMask

/-- The calls of one move on a host, whose word says all and which reports at most that it is
late. -/
structure Issues (timing : Timing) (host : ScriptedHost) (move : Move) (count : UInt16)
    (calls : List Call) : Prop where
  whole : move.SaysAll
  orderly : ∃ handshake : Handshake,
    handshake.Orderly timing host.recordsFaults host.interruptEnabled move count ∧
      calls = handshake.calls move count
  faults : ∀ fault, .fault fault ∈ calls → fault = .moveTimeout move.target

/-- Hosts on which moves make the same calls. -/
structure Alike (host after : ScriptedHost) : Prop where
  recordsFaults : after.recordsFaults = host.recordsFaults
  interruptEnabled : after.interruptEnabled = host.interruptEnabled

variable {timing : Timing} {host middle after : ScriptedHost} {move : Move} {count : UInt16}
  {calls : List Call}

theorem Alike.trans (first : host.Alike middle) (second : middle.Alike after) :
    host.Alike after :=
  ⟨second.recordsFaults.trans first.recordsFaults,
    second.interruptEnabled.trans first.interruptEnabled⟩

theorem Issues.of_alike (alike : host.Alike after)
    (issues : after.Issues timing move count calls) : host.Issues timing move count calls := by
  obtain ⟨handshake, orderly, spelled⟩ := issues.orderly
  rw [alike.recordsFaults, alike.interruptEnabled] at orderly
  exact ⟨issues.whole, ⟨handshake, orderly, spelled⟩, issues.faults⟩

theorem Issues.alike (issues : host.Issues timing move count calls) (adds : host.Adds after calls) :
    host.Alike after := by
  obtain ⟨handshake, orderly, rfl⟩ := issues.orderly
  exact ⟨adds.recordsFaults_eq, adds.interruptEnabled_eq.trans orderly.restored⟩

end ScriptedHost

/-- What an allocation answers, what the driver remembers after it, and what it calls once it has
looked at the free bytes. -/
inductive Allocates (traffic : Traffic) (needed : UInt16) (host : ScriptedHost) (status : Status) :
    Answer → Status → List Call → Prop where
  /-- With too few bytes free, nothing is done. -/
  | insufficient (few : host.available traffic < needed) :
      Allocates traffic needed host status
        (.refused (.insufficientPoolMemory (host.available traffic) needed)) status []
  /-- A buffer is mounted. -/
  | granted {count : UInt16} {mounting : List Call} (enough : needed ≤ host.available traffic)
      (small : needed.toNat ≤ 4095)
      (mounts : host.Issues status.timing (traffic.mounting needed) count mounting)
      (some : count ≠ 0) :
      Allocates traffic needed host status .granted
        (match traffic with
          | .management => status.unflag traffic.txWindow
          | .data => (status.unflag traffic.txWindow).mark .tx .mounted) mounting
  /-- Nothing was mounted, although there were enough bytes. -/
  | failed {released : UInt16} {mounting releasing : List Call}
      (enough : needed ≤ host.available traffic) (small : needed.toNat ≤ 4095)
      (mounts : host.Issues status.timing (traffic.mounting needed) 0 mounting)
      (releases : host.Issues status.timing traffic.releasing released releasing) :
      Allocates traffic needed host status (.refused (.allocationFailed traffic.txWindow)) status
        (mounting ++ Request.recorded host.recordsFaults
          (.report (.allocationFailed traffic.txWindow needed (host.available traffic))) () ++
          releasing)

namespace Driver

variable {α β : Type} {rounds : Nat} {host : ScriptedHost} {status : Status}

def Records (rounds : Nat) (driver : Driver α) (host : ScriptedHost) (status : Status)
    (post : α → Status → List Call → Prop) : Prop :=
  (driver.run status).Records rounds host fun out calls => post out.1 out.2 calls

theorem Records.ensures {driver : Driver α} {post : α → Status → List Call → Prop}
    (records : Records rounds driver host status post) :
    driver.Ensures (fun _ => True) rounds ⟨host, status⟩ fun value after =>
      ∃ calls, host.Adds after.host calls ∧ post value after.status calls := records

theorem records_pure {value : α} {post : α → Status → List Call → Prop}
    (none : post value status []) : Records rounds (pure value) host status post :=
  Program.records_pure none

theorem records_bind {driver : Driver α} {next : α → Driver β}
    {middle : α → Status → List Call → Prop} {post : β → Status → List Call → Prop}
    (first : Records rounds driver host status middle)
    (rest : ∀ value between calls after, host.Adds after calls → middle value between calls →
      Records rounds (next value) after between fun out last more =>
        post out last (calls ++ more)) :
    Records rounds (driver >>= next) host status post :=
  Program.records_bind first fun out calls after adds established =>
    rest out.1 out.2 calls after adds established

theorem records_lift {program : Program α} {post : α → List Call → Prop}
    (records : program.Records rounds host post) :
    Records rounds (liftM program) host status fun value last calls =>
      last = status ∧ post value calls := by
  refine Program.records_bind records fun value calls after _ established => ?_
  refine Program.records_pure ⟨rfl, ?_⟩
  rwa [List.append_nil]

theorem records_modify (change : Status → Status) :
    Records rounds (modify change : Driver Unit) host status fun _ last calls =>
      last = change status ∧ calls = [] := Program.records_pure ⟨rfl, rfl⟩

theorem records_map {driver : Driver α} {change : α → β} {post : β → Status → List Call → Prop}
    (records : Records rounds driver host status fun value => post (change value)) :
    Records rounds (change <$> driver) host status post := by
  rw [← bind_pure_comp]
  refine records_bind records fun value between calls after _ established => ?_
  refine records_pure ?_
  rwa [List.append_nil]

theorem records_markData (traffic : Traffic) (window : DataWindow) (state : MountState) :
    Records rounds (markData traffic window state) host status fun _ last calls =>
      last = (match traffic with
        | .management => status
        | .data => status.mark window state) ∧ calls = [] := by
  cases traffic with
  | management => exact records_pure ⟨rfl, rfl⟩
  | data => exact records_modify _

theorem records_get {next : Status → Driver α} {post : α → Status → List Call → Prop}
    (rest : Records rounds (next status) host status post) :
    Records rounds (get >>= next) host status post := rest

theorem records_issue {move : Move} (whole : move.SaysAll) :
    Records rounds (issue move) host status fun count last calls =>
      last = status ∧ host.Issues status.timing move count calls := by
  refine records_get (records_lift ?_)
  refine (move.issue_records status.timing).mono ?_
  rintro count _ ⟨start, waited, completed, waits, rfl⟩
  have orderly := Move.orderly_handshake waits host.recordsFaults host.interruptEnabled count
  refine ⟨whole, ⟨_, orderly, rfl⟩, fun fault member => ?_⟩
  exact ((Move.fault_mem_handshake waits _ _ _ fault).mp member).1

theorem records_discard_issue {move : Move} (whole : move.SaysAll) :
    Records rounds (discard (issue move) : Driver Unit) host status fun _ last calls =>
      last = status ∧ ∃ count, host.Issues status.timing move count calls := by
  refine records_map ((records_issue whole).mono ?_)
  rintro ⟨count, last⟩ calls ⟨same, issues⟩
  exact ⟨same, count, issues⟩

theorem records_readFree (traffic : Traffic) :
    Records rounds (liftM (Program.read16 traffic.freeRegister)) host status
      fun value last calls => last = status ∧
        value = (host.answer (.read16 traffic.freeRegister)).1 ∧
        calls = [.read16 traffic.freeRegister value] :=
  records_lift (Program.records_ask fun _ _ => Program.records_pure ⟨rfl, List.append_nil _⟩)

theorem records_allocate (traffic : Traffic) (needed : UInt16) :
    Records rounds (allocate traffic needed) host status fun verdict last calls =>
      ∃ rest, calls = .read16 traffic.freeRegister
          (host.answer (.read16 traffic.freeRegister)).1 :: rest ∧
        Allocates traffic needed host status (.ofVerdict verdict) last rest := by
  refine records_bind (records_readFree traffic) ?_
  rintro raw _ _ looked adds ⟨rfl, rfl, rfl⟩
  have alike : host.Alike looked := ⟨adds.recordsFaults_eq, adds.interruptEnabled_eq⟩
  dsimp only
  split
  · next few => exact records_pure ⟨[], rfl, .insufficient few⟩
  · next notFew =>
    have enough : needed ≤ host.available traffic := UInt16.not_lt.mp notFew
    have fits : needed.toNat < 4096 :=
      Nat.lt_of_le_of_lt (UInt16.le_iff_toNat_le.mp enough) (toNat_and_freeCountMask_lt _)
    have small := Nat.le_of_lt_succ fits
    have mounting : (traffic.mounting needed).SaysAll := Move.saysAll_of_lt fits
    have releasing : traffic.releasing.SaysAll := Move.saysAll_of_lt (by decide : 0 < 4096)
    refine records_bind (records_issue mounting) ?_
    rintro count _ calls mounted adds ⟨rfl, issues⟩
    have mounts := issues.of_alike alike
    split
    · next none =>
      subst none
      refine records_bind (records_lift (Program.records_raise _)) ?_
      rintro _ _ _ raised told ⟨rfl, rfl⟩
      have raisedAlike : mounted.Alike raised := by
        refine ⟨told.recordsFaults_eq, told.interruptEnabled_eq.trans ?_⟩
        split <;> rfl
      have same := (alike.trans (issues.alike adds)).trans raisedAlike
      refine records_bind (records_discard_issue releasing) ?_
      rintro _ _ others released _ ⟨rfl, count, releases⟩
      refine records_pure ⟨_, ?_, .failed enough small mounts (releases.of_alike same)⟩
      have records := (alike.trans (issues.alike adds)).recordsFaults
      simp [Request.recorded, records, ScriptedHost.available]
    · next some =>
      refine records_bind (records_modify _) ?_
      rintro _ _ _ unflagged _ ⟨rfl, rfl⟩
      refine records_bind (records_markData traffic .tx .mounted) ?_
      rintro _ _ _ marked _ ⟨rfl, rfl⟩
      refine records_pure ⟨calls, by simp, ?_⟩
      cases traffic <;> exact .granted enough small mounts some

end Driver

/-- The free bytes have been looked at once and first of all, and the rest has followed from what
was seen. -/
def Allots (traffic : Traffic) (needed : UInt16) (before : Session ScriptedHost) (answer : Answer)
    (after : Session ScriptedHost) : Prop :=
  ∃ calls, before.host.Adds after.host (.read16 traffic.freeRegister
      (before.host.answer (.read16 traffic.freeRegister)).1 :: calls) ∧
    Allocates traffic needed before.host before.status answer after.status calls

/-- An allocation that ends, on whatever host, has gone on according to the lower twelve bits of
what it saw and to the count of its move. -/
theorem allocate_outcome (traffic : Traffic) (needed : UInt16) (rounds : Nat)
    (session : Session ScriptedHost) (taken : Taken ScriptedHost)
    (finished : session.perform rounds (.allocate traffic needed) = .ok taken) :
    Allots traffic needed session taken.answer taken.session := by
  have ends : EndsIn (fun _ => True) (session.perform rounds (.allocate traffic needed))
      fun taken => Allots traffic needed session taken.answer taken.session := by
    refine Session.perform_endsIn (Driver.ensures_map.mpr ?_)
    refine Driver.Ensures.mono (Driver.records_allocate traffic needed).ensures ?_
    rintro verdict after ⟨_, adds, calls, rfl, allocates⟩ log
    exact ⟨calls, adds, allocates⟩
  exact ends.of_ok finished

/-- Junk above twelve bits and four free bytes, of which the host gives as many as the count
register shows. -/
def fourFree (count : UInt16) : Session ScriptedHost :=
  .start (.ofSetting
    { tapes16 := [(Register.dataFree, [0xf004]), (Window.dataTx.registers.count, [count])]
      clockStep := some 30 } true) ⟨20, 20, 10⟩

/-- Five bytes are not there; four are given; four are there but not given. -/
theorem allocate_outcome_fourFree :
    (∃ taken, (fourFree 5).perform 4 (.allocate .data 5) = .ok taken ∧
      taken.answer = .refused (.insufficientPoolMemory 4 5) ∧
      Allots .data 5 (fourFree 5) taken.answer taken.session) ∧
    (∃ taken, (fourFree 4).perform 4 (.allocate .data 4) = .ok taken ∧ taken.answer = .granted ∧
      Allots .data 4 (fourFree 4) taken.answer taken.session) ∧
    ∃ taken, (fourFree 0).perform 4 (.allocate .data 4) = .ok taken ∧
      taken.answer = .refused (.allocationFailed .dataTx) ∧
      Allots .data 4 (fourFree 0) taken.answer taken.session := by
  have finds (needed count : UInt16) (answer : Answer) (ends : EndsIn (fun _ => False)
      ((fourFree count).perform 4 (.allocate .data needed)) fun taken => taken.answer = answer) :
      ∃ taken, (fourFree count).perform 4 (.allocate .data needed) = .ok taken ∧
        taken.answer = answer ∧
        Allots .data needed (fourFree count) taken.answer taken.session := by
    obtain ⟨taken, finished, answered⟩ := exists_ok_of_endsIn ends
    exact ⟨taken, finished, answered, allocate_outcome _ _ 4 _ taken finished⟩
  exact ⟨finds 5 5 _ (by decide +kernel), finds 4 4 _ (by decide +kernel),
    finds 4 0 _ (by decide +kernel)⟩

end RadioWindows
