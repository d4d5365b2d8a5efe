import RadioWindows.Chip.Host
import RadioWindows.Proofs.Runs

/-! Conservation of pool memory. The stock of a pool is what is free in it together with what
windows hold of it. No request to the chip adds to a stock, and the only one that takes from it is
a control word that mounts something over a segment. So the stocks of a whole run stay within what
the chip starts with, and the free counts never leave their range. -/

namespace RadioWindows

def Bank.total {α : Type} (bank : Bank α) (size : α → Nat) : Nat :=
  size bank.dataRx + size bank.dataTx + size bank.mgmtRx + size bank.mgmtTx +
    size bank.scratch + size bank.spare

theorem Bank.total_set {α : Type} (bank : Bank α) (w : Window) (value : α) (size : α → Nat) :
    (bank.set w value).total size + size (bank.get w) = bank.total size + size value := by
  cases w <;> simp only [total, set, get] <;> omega

def Mount.share (traffic : Traffic) : Mount → Nat
  | .segment owner bytes => if owner = traffic then bytes.length else 0
  | _ => 0

@[simp] theorem Mount.share_segment (owner traffic : Traffic) (bytes : Bytes) :
    (segment owner bytes).share traffic = if owner = traffic then bytes.length else 0 := rfl

@[simp] theorem Mount.share_nothing (traffic : Traffic) : nothing.share traffic = 0 := rfl

@[simp] theorem Mount.share_frame (bytes : Bytes) (traffic : Traffic) :
    (frame bytes).share traffic = 0 := rfl

@[simp] theorem Mount.share_scratch (traffic : Traffic) : scratch.share traffic = 0 := rfl

def Mount.isSegment : Mount → Bool
  | .segment .. => true
  | _ => false

theorem Mount.share_eq_zero {mount : Mount} (other : ¬mount.isSegment) (traffic : Traffic) :
    mount.share traffic = 0 := by
  cases mount with
  | segment owner bytes => exact absurd rfl other
  | nothing => rfl
  | frame bytes => rfl
  | scratch => rfl

def Traffic.capacity : Traffic → Nat
  | management => 1024
  | data => 2048

namespace Chip

def held (chip : Chip) (traffic : Traffic) : Nat :=
  chip.windows.total fun window => window.mount.share traffic

/-- The bytes of a pool, free or held. -/
def stock (chip : Chip) (traffic : Traffic) : Nat := (chip.free traffic).toNat + chip.held traffic

/-- The free counts have room for all that windows hold. -/
def Roomy (chip : Chip) : Prop := ∀ traffic, chip.stock traffic < UInt16.size

def mounts (chip : Chip) (word : ControlWord) : Bool :=
  word.destination &&
    match Selector.ofBits word.selector with
    | .macFrame | .scratchPool => true
    | .mgmtPool => decide (word.size ≤ chip.mgmtFree ∧ ¬chip.failing)
    | .dataPool => decide (word.size ≤ chip.dataFree ∧ ¬chip.failing)
    | _ => false

/-- Whether a control word mounts something over a segment, whose memory is then lost. -/
def forgets (chip : Chip) (w : Window) (word : ControlWord) : Bool :=
  chip.mounts word && (chip.window w).mount.isSegment

theorem stock_congr {chip other : Chip} (windows : chip.windows = other.windows)
    (free : ∀ traffic, chip.free traffic = other.free traffic) (traffic : Traffic) :
    chip.stock traffic = other.stock traffic := by
  rw [stock, stock, held, held, windows, free]

theorem held_modifyWindow (chip : Chip) (w : Window) (change : ChipWindow → ChipWindow)
    (traffic : Traffic) :
    (chip.modifyWindow w change).held traffic + (chip.window w).mount.share traffic =
      chip.held traffic + (change (chip.window w)).mount.share traffic :=
  Bank.total_set _ _ _ _

theorem stock_modifyWindow (chip : Chip) (w : Window) (change : ChipWindow → ChipWindow)
    (keeps : (change (chip.window w)).mount = (chip.window w).mount) (traffic : Traffic) :
    (chip.modifyWindow w change).stock traffic = chip.stock traffic := by
  have moved := held_modifyWindow chip w change traffic
  rw [keeps] at moved
  simp only [stock, free_modifyWindow]
  omega

theorem stock_mount (chip : Chip) (w : Window) (mount : Mount) (traffic : Traffic) :
    (chip.mount w mount).stock traffic + (chip.window w).mount.share traffic =
      chip.stock traffic + mount.share traffic := by
  have moved : (chip.mount w mount).held traffic + (chip.window w).mount.share traffic =
      chip.held traffic + mount.share traffic := held_modifyWindow chip w _ traffic
  simp only [stock, free_mount]
  omega

theorem held_setFree (chip : Chip) (set asked : Traffic) (free : UInt16) :
    (chip.setFree set free).held asked = chip.held asked := by rw [held, windows_setFree, held]

theorem stock_setFree (chip : Chip) (set asked : Traffic) (free : UInt16) :
    (chip.setFree set free).stock asked + (if asked = set then (chip.free set).toNat else 0) =
      chip.stock asked + if asked = set then free.toNat else 0 := by
  simp only [stock, held_setFree, free_setFree]
  by_cases same : asked = set
  · subst same
    simp only [if_true]
    omega
  · simp only [same, if_false]

theorem stock_overwrite (chip : Chip) (w : Window) {bytes : Bytes}
    (fits : bytes.length = (chip.visible w).length) (traffic : Traffic) :
    (chip.overwrite w bytes).stock traffic = chip.stock traffic := by
  rw [visible] at fits
  rw [overwrite]
  cases mounted : (chip.window w).mount with
  | nothing => rfl
  | scratch => rfl
  | frame old =>
    have moved := stock_mount chip w (.frame bytes) traffic
    rw [mounted] at moved
    simpa using moved
  | segment owner old =>
    have moved := stock_mount chip w (.segment owner bytes) traffic
    rw [mounted] at fits moved
    simp only [Mount.share_segment, fits] at moved ⊢
    omega

section Latch

theorem windows_signal (chip : Chip) (w : Window) : (chip.signal w).windows = chip.windows := by
  cases w <;> rfl

theorem free_signal (chip : Chip) (w : Window) (traffic : Traffic) :
    (chip.signal w).free traffic = chip.free traffic := by cases w <;> cases traffic <;> rfl

theorem stock_latch (chip : Chip) (traffic : Traffic) :
    chip.latch.stock traffic = chip.stock traffic := by
  have signalled (windows : List Window) (chip : Chip) :
      (windows.foldl signal chip).stock traffic = chip.stock traffic := by
    induction windows generalizing chip with
    | nil => rfl
    | cons w rest ih =>
      rw [List.foldl_cons, ih]
      exact stock_congr (windows_signal chip w) (free_signal chip w) traffic
  rw [latch]
  split
  · exact signalled chip.unlatched chip
  · rfl

end Latch

/-- Anything but released memory without room in its free count. -/
def KeepsCounts : Halt → Prop
  | .freeCountOverflow _ => False
  | _ => True

theorem stock_release (allowed : Halt → Prop) {chip : Chip}
    (room : chip.Roomy) (w : Window) :
    EndsIn allowed (chip.release w) fun after =>
      ∀ traffic, after.stock traffic = chip.stock traffic := by
  rw [release]
  cases mounted : (chip.window w).mount with
  | segment owner bytes =>
    have emptied := stock_mount chip w .nothing
    rw [mounted] at emptied
    have shared := emptied owner
    have roomy := room owner
    simp only [Mount.share_segment, Mount.share_nothing, if_true, stock, free_mount] at shared roomy
    have fits : (chip.free owner).toNat + bytes.length < UInt16.size := by omega
    simp only [fits, if_true, endsIn_ok]
    intro traffic
    have returned := stock_setFree (chip.mount w .nothing) owner traffic
      (.ofNat ((chip.free owner).toNat + bytes.length))
    have moved := emptied traffic
    rw [UInt16.toNat_ofNat_of_lt' fits, free_mount] at returned
    by_cases same : traffic = owner
    · simp only [same, if_true, Mount.share_segment, Mount.share_nothing] at returned moved ⊢
      omega
    · simp only [same, Ne.symm same, if_false, Mount.share_segment, Mount.share_nothing]
        at returned moved
      omega
  | nothing | frame bytes | scratch =>
    intro traffic
    have moved := stock_mount chip w .nothing traffic
    rw [mounted] at moved
    simpa using moved

theorem stock_allocate (chip : Chip) (w : Window) (owner : Traffic) (size : UInt16)
    (traffic : Traffic) :
    (chip.allocate w owner size).2.stock traffic +
        (if size ≤ chip.free owner ∧ ¬chip.failing then
          (chip.window w).mount.share traffic else 0) =
      chip.stock traffic := by
  rw [allocate]
  by_cases fits : size ≤ chip.free owner ∧ ¬chip.failing
  · have mounted := stock_mount chip w (.segment owner (List.replicate size.toNat 0)) traffic
    have taken := stock_setFree
      (chip.mount w (.segment owner (List.replicate size.toNat 0))) owner traffic
      (chip.free owner - size)
    have le := UInt16.le_iff_toNat_le.mp fits.1
    rw [free_mount, UInt16.toNat_sub_of_le _ _ fits.1] at taken
    simp only [if_pos fits]
    by_cases same : traffic = owner
    · simp only [same, if_true, Mount.share_segment, List.length_replicate] at mounted taken ⊢
      omega
    · simp only [same, Ne.symm same, if_false, Mount.share_segment] at mounted taken
      omega
  · simp only [if_neg fits]
    omega

theorem stock_mountFrame (chip : Chip) (w : Window) (traffic : Traffic) :
    (chip.mountFrame w).2.stock traffic + (chip.window w).mount.share traffic =
      chip.stock traffic := by
  have mounted := stock_mount chip w (.frame (chip.received.headD [])) traffic
  exact mounted

theorem stock_copyInto {chip : Chip} {w : Window} {size : Nat} {out : Nat × Chip}
    (copied : chip.copyInto w size = .ok out) (traffic : Traffic) :
    out.2.stock traffic = chip.stock traffic := by
  rw [copyInto] at copied
  dsimp only at copied
  split at copied
  · split at copied
    · cases copied
      refine stock_overwrite chip w ?_ traffic
      simp only [List.length_append, List.length_take, List.length_drop]
      omega
    · cases copied
  · cases copied

theorem copyInto_keepsCounts (chip : Chip) (w : Window) (size : Nat) :
    EndsIn KeepsCounts (chip.copyInto w size) fun _ => True := by
  rw [copyInto]
  dsimp only
  split
  · split <;> trivial
  · trivial

/-- No stock has grown, and every stock is as it was unless memory has been lost. -/
def Accounts (chip : Chip) (lost : Bool) (after : Chip) : Prop :=
  ∀ traffic, after.stock traffic ≤ chip.stock traffic ∧
    (¬lost → after.stock traffic = chip.stock traffic)

section Accounts

variable {chip after : Chip}

theorem accounts_of_eq {lost : Bool} (same : ∀ traffic, after.stock traffic = chip.stock traffic) :
    chip.Accounts lost after :=
  fun traffic => ⟨Nat.le_of_eq (same traffic), fun _ => same traffic⟩

theorem accounts_of_mounts {w : Window} {word : ControlWord} (mounts : chip.mounts word)
    (missing : ∀ traffic, after.stock traffic + (chip.window w).mount.share traffic =
      chip.stock traffic) : chip.Accounts (chip.forgets w word) after := by
  intro traffic
  have total := missing traffic
  refine ⟨by omega, fun remembers => ?_⟩
  have empty : ¬(chip.window w).mount.isSegment := fun segment =>
    remembers (by rw [forgets, mounts, segment]; rfl)
  rw [Mount.share_eq_zero empty] at total
  exact total

theorem accounts_allocate {w : Window} {word : ControlWord} (owner : Traffic)
    (mounts : word.size ≤ chip.free owner ∧ ¬chip.failing → chip.mounts word) :
    chip.Accounts (chip.forgets w word) (chip.allocate w owner word.size).2 := by
  have total := stock_allocate chip w owner word.size
  by_cases fits : word.size ≤ chip.free owner ∧ ¬chip.failing
  · simp only [if_pos fits] at total
    exact accounts_of_mounts (mounts fits) total
  · simp only [if_neg fits] at total
    exact accounts_of_eq total

theorem accounts_release {allowed : Halt → Prop} {lost : Bool} (room : chip.Roomy) (w : Window)
    (sent : List (Window × Bytes)) :
    EndsIn allowed ((0, ·) <$> { chip with sent }.release w) fun out =>
      chip.Accounts lost out.2 := by
  have recorded : Roomy { chip with sent } := room
  rw [endsIn_map]
  exact EndsIn.mono (stock_release allowed recorded w) fun after same => accounts_of_eq same

theorem accounts_unmountScratch {lost : Bool} (w : Window) :
    chip.Accounts lost
      (if (chip.window w).mount = .scratch then chip.mount w .nothing else chip) := by
  refine accounts_of_eq fun traffic => ?_
  split
  · next mounted =>
    have emptied := stock_mount chip w .nothing traffic
    rw [mounted] at emptied
    exact emptied
  · rfl

end Accounts

/-- A control word adds to no stock, and keeps every stock unless it mounts something over a
segment. -/
theorem stock_carryOut (allowed : Halt → Prop) {chip : Chip} (room : chip.Roomy) (w : Window)
    (word : ControlWord)
    (copies : Selector.ofBits word.selector = .copy →
      EndsIn allowed (chip.copyInto w word.size.toNat) fun _ => True) :
    EndsIn allowed (chip.carryOut w word) fun out => chip.Accounts (chip.forgets w word) out.2 := by
  rw [carryOut]
  cases selected : Selector.ofBits word.selector <;> cases direction : word.destination
  case macFrame.true =>
    have mounts : chip.mounts word := by rw [Chip.mounts, direction, selected]; rfl
    exact accounts_of_mounts mounts (stock_mountFrame chip w)
  case macFrame.false => exact accounts_release room w _
  case mgmtPool.true =>
    refine accounts_allocate .management fun fits => ?_
    rw [Chip.mounts, direction, selected]
    exact decide_eq_true fits
  case dataPool.true =>
    refine accounts_allocate .data fun fits => ?_
    rw [Chip.mounts, direction, selected]
    exact decide_eq_true fits
  case mgmtPool.false | dataPool.false => exact accounts_release room w chip.sent
  case scratchPool.true =>
    have mounts : chip.mounts word := by rw [Chip.mounts, direction, selected]; rfl
    exact accounts_of_mounts mounts (stock_mount chip w .scratch)
  case scratchPool.false => exact accounts_unmountScratch w
  case copy.true | copy.false =>
    have ends := copies selected
    dsimp only
    cases copied : chip.copyInto w word.size.toNat with
    | error halt => exact ends.of_error copied
    | ok out => exact accounts_of_eq (stock_copyInto copied)
  all_goals exact accounts_of_eq fun traffic => rfl

theorem stock_conclude (chip : Chip) (w : Window) (count : Nat) (traffic : Traffic) :
    (chip.conclude w count).stock traffic = chip.stock traffic := by
  have same : (chip.restart w count).stock traffic = chip.stock traffic :=
    stock_modifyWindow chip w _ rfl traffic
  rw [conclude]
  split
  · exact same
  · exact same

def overwrites (chip : Chip) : Request → Bool
  | .write16 register value => (Window.owning? (·.control) register).any (chip.forgets · ⟨value⟩)
  | _ => false

theorem stock_write16 {chip : Chip} (room : chip.Roomy)
    (register : UInt8) (value : UInt16) :
    EndsIn KeepsCounts (chip.write16 register value)
      (chip.Accounts (chip.overwrites (.write16 register value))) := by
  rw [write16]
  split
  · exact accounts_of_eq fun traffic => rfl
  · split
    · next w owns =>
      simp only [move, endsIn_bind, endsIn_pure]
      have recorded : Roomy { chip with moves := chip.moves ++ [(w, ⟨value⟩)] } := room
      have carried := stock_carryOut KeepsCounts recorded w ⟨value⟩ fun _ =>
        copyInto_keepsCounts _ _ _
      refine EndsIn.mono carried fun out moved traffic => ?_
      rw [stock_conclude]
      exact ⟨(moved traffic).1, fun spares =>
        (moved traffic).2 fun forgets => spares (by rw [overwrites, owns]; exact forgets)⟩
    · split
      · exact accounts_of_eq fun traffic => stock_modifyWindow chip _ _ rfl traffic
      · split
        · exact accounts_of_eq fun traffic => stock_modifyWindow chip _ _ rfl traffic
        · trivial

theorem stock_writeBytes (chip : Chip) (register : UInt8) (bytes : Bytes) :
    EndsIn KeepsCounts (chip.writeBytes register bytes) fun after =>
      ∀ traffic, after.stock traffic = chip.stock traffic := by
  rw [writeBytes]
  split
  · next w owns =>
    intro traffic
    rw [advance, stock_modifyWindow _ w _ rfl, stock_overwrite chip w (Memory.length_write _ _ _)]
  · trivial

theorem stock_read16 (chip : Chip) (register : UInt8) :
    EndsIn KeepsCounts (chip.read16 register) fun answered =>
      ∀ traffic, answered.2.stock traffic = chip.stock traffic := by
  rw [read16]
  split
  · exact fun traffic => rfl
  · split
    · exact fun traffic => rfl
    · split
      · exact stock_latch chip
      · split
        · exact fun traffic => rfl
        · split
          · exact fun traffic => rfl
          · trivial

theorem stock_look (chip : Chip) {request : Request} (look : request.IsLook) :
    EndsIn KeepsCounts (Host.answer request chip) fun answered =>
      ∀ traffic, answered.2.stock traffic = chip.stock traffic := by
  cases request with
  | read8 register =>
    change EndsIn _ (if register = Register.interrupt then _ else _) _
    split
    · exact stock_latch chip
    · trivial
  | read16 register => exact stock_read16 chip register
  | now => exact fun traffic => rfl
  | delay microseconds =>
    change EndsIn _ (((), ·) <$> chip.delay microseconds) _
    rw [endsIn_map, delay]
    dsimp only
    split
    · exact fun traffic => rfl
    · trivial
  | _ => exact look.elim

theorem stock_answer {chip : Chip} (room : chip.Roomy)
    (request : Request) :
    EndsIn KeepsCounts (Host.answer request chip) fun answered =>
      chip.Accounts (chip.overwrites request) answered.2 := by
  by_cases look : request.IsLook
  · exact EndsIn.mono (stock_look chip look) fun answered same => accounts_of_eq same
  · cases request with
    | write8 register value =>
      change EndsIn _ (if register = Register.interrupt then _ else _) _
      split
      · exact accounts_of_eq fun traffic => rfl
      · trivial
    | write16 register value =>
      change EndsIn _ (((), ·) <$> chip.write16 register value) _
      rw [endsIn_map]
      exact stock_write16 room register value
    | readBytes register count =>
      change EndsIn _ (chip.readBytes register count) _
      rw [readBytes]
      split
      · exact accounts_of_eq fun traffic => stock_modifyWindow chip _ _ rfl traffic
      · trivial
    | writeBytes register bytes =>
      change EndsIn _ (((), ·) <$> chip.writeBytes register bytes) _
      rw [endsIn_map]
      exact EndsIn.mono (stock_writeBytes chip register bytes) fun after same => accounts_of_eq same
    | enableInterrupt | disableInterrupt => exact accounts_of_eq fun traffic => rfl
    | report fault => exact accounts_of_eq fun traffic => rfl
    | read8 _ | read16 _ | now | delay _ => exact absurd trivial look

theorem windows_adjust (change : Change) (chip : Chip) :
    (adjust change chip).windows = chip.windows := by
  cases change with
  | setFree traffic free => exact windows_setFree chip traffic free
  | _ => rfl

theorem window_adjust (change : Change) (chip : Chip) (w : Window) :
    (adjust change chip).window w = chip.window w := by
  rw [window, windows_adjust, window]

theorem stock_adjust {change : Change} (keeps : ∀ traffic free, change ≠ .setFree traffic free)
    (chip : Chip) (traffic : Traffic) :
    (adjust change chip).stock traffic = chip.stock traffic := by
  cases change with
  | setFree owner free => exact absurd rfl (keeps owner free)
  | _ => rfl

theorem Roomy.adjust {change : Change} {chip : Chip} (room : chip.Roomy)
    (keeps : ∀ traffic free, change ≠ .setFree traffic free) : (adjust change chip).Roomy := by
  intro traffic
  rw [stock_adjust keeps]
  exact room traffic

theorem stock_atReset (traffic : Traffic) : atReset.stock traffic = traffic.capacity := by
  cases traffic <;> rfl

theorem capacity_lt (traffic : Traffic) : traffic.capacity < UInt16.size := by
  cases traffic <;> decide

theorem roomy_of_le_capacity {chip : Chip}
    (within : ∀ traffic, chip.stock traffic ≤ traffic.capacity) : chip.Roomy := fun traffic =>
  Nat.lt_of_le_of_lt (within traffic) (capacity_lt traffic)

theorem roomy_atReset : atReset.Roomy :=
  roomy_of_le_capacity fun traffic => Nat.le_of_eq (stock_atReset traffic)

variable {timing : Timing} {rounds : Nat} {steps : List (Step Change)}

theorem stock_le_capacity (untouched : ∀ traffic free, .adjust (.setFree traffic free) ∉ steps)
    {session : Session Chip}
    (within : ∀ traffic, session.host.stock traffic ≤ traffic.capacity) :
    EndsIn KeepsCounts (session.run rounds steps) fun taken =>
      ∀ one ∈ taken, ∀ traffic, one.session.host.stock traffic ≤ traffic.capacity := by
  refine Session.run_keeps (fun chip : Chip => ∀ traffic, chip.stock traffic ≤ traffic.capacity)
    (fun _ _ => True) trivial ?looks ?asks ?adjusts
    (Session.always_of_forall (fun _ _ => trivial) _ _) within
  case looks =>
    intro request chip look within
    exact EndsIn.mono (stock_look chip look) fun answered same traffic =>
      (same traffic).symm ▸ within traffic
  case asks =>
    intro request chip _ within
    exact EndsIn.mono (stock_answer (roomy_of_le_capacity within) request)
      fun answered moved traffic => Nat.le_trans (moved traffic).1 (within traffic)
  case adjusts =>
    intro change member chip within traffic
    rw [show Adjustable.adjust change chip = adjust change chip from rfl, stock_adjust]
    · exact within traffic
    · intro owner free same
      exact untouched owner free (same ▸ member)

theorem stock_eq_capacity (untouched : ∀ traffic free, .adjust (.setFree traffic free) ∉ steps)
    (spares : Session.Always (fun request chip => ¬chip.overwrites request) rounds steps
      (Session.start atReset timing)) :
    EndsIn KeepsCounts ((Session.start atReset timing).run rounds steps) fun taken =>
      ∀ one ∈ taken, ∀ traffic, one.session.host.stock traffic = traffic.capacity := by
  refine Session.run_keeps (fun chip : Chip => ∀ traffic, chip.stock traffic = traffic.capacity)
    (fun request (chip : Chip) => ¬chip.overwrites request) trivial ?looks ?asks ?adjusts
    spares stock_atReset
  case looks =>
    intro request chip look full
    exact EndsIn.mono (stock_look chip look) fun answered same traffic =>
      (same traffic).trans (full traffic)
  case asks =>
    intro request chip spared full
    have room := roomy_of_le_capacity fun traffic => Nat.le_of_eq (full traffic)
    exact EndsIn.mono (stock_answer room request)
      fun answered moved traffic => ((moved traffic).2 spared).trans (full traffic)
  case adjusts =>
    intro change member chip full traffic
    rw [show Adjustable.adjust change chip = adjust change chip from rfl, stock_adjust]
    · exact full traffic
    · intro owner free same
      exact untouched owner free (same ▸ member)

/-- In every run from a reset in which the free counts are not set from outside, no pool ever has
more memory than it was built with, free or held, and no free count leaves its range. A pool has
exactly that much as long as no control word mounts something over a segment. -/
theorem pool_memory_conserved (timing : Timing) (rounds : Nat) (steps : List (Step Change))
    (untouched : ∀ traffic free, .adjust (.setFree traffic free) ∉ steps) :
    (∀ traffic, (Session.start atReset timing).run rounds steps ≠
      .error (.freeCountOverflow traffic)) ∧
    ∀ taken, (Session.start atReset timing).run rounds steps = .ok taken →
      (∀ one ∈ taken, ∀ traffic, one.session.host.stock traffic ≤ traffic.capacity) ∧
      (Session.Always (fun request chip => ¬chip.overwrites request) rounds steps
          (Session.start atReset timing) →
        ∀ one ∈ taken, ∀ traffic, one.session.host.stock traffic = traffic.capacity) := by
  have within : EndsIn KeepsCounts ((Session.start atReset timing).run rounds steps) _ :=
    stock_le_capacity untouched fun traffic => Nat.le_of_eq (stock_atReset traffic)
  refine ⟨fun traffic halted => within.of_error halted, fun taken finished => ⟨?_, ?_⟩⟩
  · exact within.of_ok finished
  · intro spares
    exact (stock_eq_capacity untouched spares).of_ok finished

/-- An allocation that fails while the window holds a buffer, a release into the other pool and a
received frame. -/
def mixedSteps : List (Step Change) :=
  [.perform .setUp, .perform (.allocate .data 4), .adjust (.setFailing true),
    .perform (.allocate .data 4), .adjust (.setFailing false),
    .perform (.move ⟨.spare, .dataPool, true, 7⟩), .perform (.move ⟨.spare, .mgmtPool, false, 0⟩),
    .perform (.allocate .management 100), .adjust (.receive [1, 2]), .perform (.mountRx .dataRx)]

theorem pool_memory_conserved_mixedSteps :
    (∀ traffic free, .adjust (.setFree traffic free) ∉ mixedSteps) ∧
    ((Session.start atReset {}).run 2 mixedSteps).isOk ∧
    ∀ taken, (Session.start atReset {}).run 2 mixedSteps = .ok taken →
      ∀ one ∈ taken, ∀ traffic, one.session.host.stock traffic = traffic.capacity := by
  have untouched : ∀ traffic free, .adjust (.setFree traffic free) ∉ mixedSteps := by
    intro traffic free
    simp [mixedSteps]
  refine ⟨untouched, by decide +kernel, fun taken finished => ?_⟩
  exact ((pool_memory_conserved {} 2 mixedSteps untouched).2 taken finished).2 (by decide +kernel)

end Chip

end RadioWindows
