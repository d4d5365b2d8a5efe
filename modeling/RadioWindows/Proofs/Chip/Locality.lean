import RadioWindows.Proofs.Chip.Accessing

/-! Accesses by the window they are made at. What an access returns and reports depends on what the
window shows, on its cursor and on its flag; and what it changes lies there, but for the time that
an index past the end takes. So accesses at two windows can change places, unless both windows show
the scratch memory. -/

namespace RadioWindows

namespace Bank

variable {α : Type} (bank : Bank α)

theorem set_set (w : Window) (first second : α) :
    (bank.set w first).set w second = bank.set w second := by cases w <;> rfl

theorem set_comm {v w : Window} (other : v ≠ w) (first second : α) :
    (bank.set v first).set w second = (bank.set w second).set v first := by
  cases v <;> cases w <;> first | rfl | exact absurd rfl other

end Bank

namespace WindowMask

variable (mask : WindowMask) {v w : Window}

theorem insert_comm (v w : Window) :
    (mask.insert v).insert w = (mask.insert w).insert v := by
  rw [insert, insert, insert, insert, UInt8.or_assoc, UInt8.or_comm (bitOf v), ← UInt8.or_assoc]

theorem erase_comm (v w : Window) :
    (mask.erase v).erase w = (mask.erase w).erase v := by
  rw [erase, erase, erase, erase, UInt8.and_assoc, UInt8.and_comm (~~~bitOf v), ← UInt8.and_assoc]

theorem erase_insert (other : v ≠ w) :
    (mask.insert v).erase w = (mask.erase w).insert v := by
  have apart := congrArg UInt8.toBitVec (bitOf_disjoint other)
  rw [insert, insert, erase, erase, mk.injEq]
  apply UInt8.toBitVec_inj.mp
  ext i
  have bit := congrArg (BitVec.getLsbD · i) apart
  simp at bit ⊢
  grind

end WindowMask

inductive Access where
  | seek (index : UInt16)
  | read (count : Nat)
  | write (bytes : Bytes)
deriving DecidableEq, Repr

def Operation.parts : Operation → List Access
  | setIndex _ index => [.seek index]
  | read _ count => [.read count]
  | readAt _ index count => [.seek index, .read count]
  | write _ bytes => [.write bytes]
  | writeAt _ index bytes => [.seek index, .write bytes]
  | _ => []

structure View where
  bytes : Bytes
  cursor : Nat
  /-- Whether the driver has the window flagged. -/
  flagged : Bool
deriving DecidableEq, Repr

namespace Access

/-- Whether the access is an index past the end; nothing, if it is no index. -/
def past? : Access → View → Option Bool
  | seek index, found => some (decide (found.bytes.length < index.toNat))
  | _, _ => none

def next : Access → View → View
  | seek index, found =>
    ⟨found.bytes, index.toNat, decide (found.bytes.length < index.toNat)⟩
  | read count, found => { found with cursor := found.cursor + count }
  | write bytes, found =>
    ⟨Memory.write found.bytes found.cursor bytes, found.cursor + bytes.length, found.flagged⟩

def answer : Access → View → Answer
  | read count, found => .bytes (Memory.read found.bytes found.cursor count)
  | _, _ => .nothing

def reports (w : Window) : Access → View → List Fault
  | seek index, found =>
    if found.bytes.length < index.toNat then [.indexOutOfBounds w index] else []
  | _, found => if found.flagged then [.outOfBoundsAccess w] else []

/-- What some accesses in a row leave to be found of their window. -/
def leave (accesses : List Access) (found : View) : View :=
  accesses.foldl (fun found access => access.next found) found

def reportsOf (w : Window) : List Access → View → List Fault
  | [], _ => []
  | access :: rest, found => access.reports w found ++ reportsOf w rest (access.next found)

def lastAnswer : List Access → View → Answer
  | [], _ => .nothing
  | [access], found => access.answer found
  | access :: rest, found => lastAnswer rest (access.next found)

theorem lastAnswer_seek (index : UInt16) (rest : List Access) (found : View) :
    lastAnswer (seek index :: rest) found = lastAnswer rest ((seek index).next found) := by
  cases rest <;> rfl

theorem reportsOf_append (w : Window) (first second : List Access) (found : View) :
    reportsOf w (first ++ second) found =
      reportsOf w first found ++ reportsOf w second (leave first found) := by
  induction first generalizing found with
  | nil => rfl
  | cons access rest ih =>
    rw [List.cons_append, reportsOf, reportsOf, ih, List.append_assoc]
    rfl

theorem window_reports {w : Window} {access : Access} {found : View} {fault : Fault}
    (reported : fault ∈ access.reports w found) : fault.window = w := by
  rw [reports.eq_def] at reported
  split at reported
  all_goals
    split at reported
    · cases List.mem_singleton.mp reported
      rfl
    · cases reported

theorem window_reportsOf {w : Window} {accesses : List Access} {found : View} {fault : Fault}
    (reported : fault ∈ reportsOf w accesses found) : fault.window = w := by
  induction accesses generalizing found with
  | nil => cases reported
  | cons access rest ih => exact (List.mem_append.mp reported).elim window_reports ih

theorem length_next (access : Access) (found : View) :
    (access.next found).bytes.length = found.bytes.length := by
  cases access with
  | seek index | read count => rfl
  | write bytes => exact Memory.length_write _ _ _

theorem flagged_next (access : Access) (found : View) :
    (access.next found).flagged = (access.past? found).getD found.flagged := by
  cases access <;> rfl

end Access

def Status.learn (status : Status) (w : Window) : Option Bool → Status
  | none => status
  | some false => status.unflag w
  | some true => status.flag w

namespace Status

variable (status : Status) {v w : Window}

theorem learn_comm (other : v ≠ w) (first second : Option Bool) :
    (status.learn v first).learn w second = (status.learn w second).learn v first := by
  have erased := status.outOfBounds.erase_comm v w
  have inserted := status.outOfBounds.insert_comm v w
  have left := status.outOfBounds.erase_insert other
  have right := status.outOfBounds.erase_insert other.symm
  rcases first with _ | _ | _ <;> rcases second with _ | _ | _ <;>
    simp [learn, flag, unflag, erased, inserted, left, right]

@[simp] theorem timing_learn (past? : Option Bool) :
    (status.learn w past?).timing = status.timing := by
  rcases past? with _ | _ | _ <;> rfl

theorem contains_learn (past? : Option Bool) : (status.learn w past?).outOfBounds.contains w =
    past?.getD (status.outOfBounds.contains w) := by
  rcases past? with _ | _ | _ <;>
    simp [learn, flag, unflag, WindowMask.contains_insert, WindowMask.contains_erase]

theorem contains_learn_of_ne (other : v ≠ w) (past? : Option Bool) :
    (status.learn w past?).outOfBounds.contains v = status.outOfBounds.contains v := by
  rcases past? with _ | _ | _ <;>
    simp [learn, flag, unflag, WindowMask.contains_insert, WindowMask.contains_erase, other]

end Status

def Mount.holding : Mount → Bytes → Mount
  | nothing, _ => nothing
  | segment owner _, bytes => segment owner bytes
  | frame _, bytes => frame bytes
  | scratch, _ => scratch

@[simp] theorem Mount.holding_eq_scratch {mount : Mount} {bytes : Bytes} :
    mount.holding bytes = scratch ↔ mount = scratch := by cases mount <;> simp [holding]

namespace Chip

/-- The chip with other bytes in what a window shows and with the window changed besides. -/
def altered (chip : Chip) (w : Window) (bytes : Bytes) (change : ChipWindow → ChipWindow) : Chip :=
  (chip.overwrite w bytes).modifyWindow w change

/-- Two windows that do not show the same memory. -/
structure Apart (chip : Chip) (v w : Window) : Prop where
  other : v ≠ w
  unshared : (chip.window v).mount = .scratch → (chip.window w).mount ≠ .scratch

theorem Apart.symm {chip : Chip} {v w : Window} (apart : chip.Apart v w) : chip.Apart w v :=
  ⟨apart.other.symm, fun shared both => apart.unshared both shared⟩

section Altered

variable (chip : Chip) {v w : Window} {bytes others : Bytes}
  {change alter : ChipWindow → ChipWindow}

theorem altered_eq (bytes : Bytes) (change : ChipWindow → ChipWindow) :
    chip.altered w bytes change =
      { chip with
        windows := chip.windows.set w
          (change { chip.window w with mount := (chip.window w).mount.holding bytes })
        scratch := if (chip.window w).mount = .scratch then bytes else chip.scratch } := by
  have same : { chip.window w with mount := (chip.window w).mount } = chip.window w := rfl
  rw [altered, overwrite]
  cases mounted : (chip.window w).mount with
  | nothing =>
    rw [mounted] at same
    simp only [Mount.holding, same, reduceCtorEq, if_false]
    rfl
  | scratch =>
    rw [mounted] at same
    simp only [Mount.holding, same, if_true]
    rfl
  | segment owner old | frame old =>
    simp only [modifyWindow, mount, window, Bank.get_set_self, Bank.set_set, Mount.holding,
      reduceCtorEq, if_false]

theorem window_altered_self : (chip.altered w bytes change).window w =
    change { chip.window w with mount := (chip.window w).mount.holding bytes } := by
  rw [altered_eq]
  exact Bank.get_set_self _ _ _

theorem window_altered_of_ne (other : v ≠ w) :
    (chip.altered w bytes change).window v = chip.window v := by
  rw [altered_eq]
  exact Bank.get_set_of_ne _ _ other

theorem scratch_altered : (chip.altered w bytes change).scratch =
    if (chip.window w).mount = .scratch then bytes else chip.scratch := by
  rw [altered_eq]

theorem visible_altered_self (keeps : ∀ old, (change old).mount = old.mount)
    (fits : bytes.length = (chip.visible w).length) :
    (chip.altered w bytes change).visible w = bytes := by
  rw [visible] at fits
  rw [visible, window_altered_self, keeps, scratch_altered]
  cases mounted : (chip.window w).mount with
  | nothing =>
    rw [mounted] at fits
    exact (List.eq_nil_of_length_eq_zero fits).symm
  | segment owner old | frame old => rfl
  | scratch => simp [Mount.holding]

theorem visible_altered_of_apart (apart : chip.Apart v w) :
    (chip.altered w bytes change).visible v = chip.visible v := by
  rw [visible, visible, window_altered_of_ne _ apart.other, scratch_altered]
  cases mounted : (chip.window v).mount with
  | nothing | segment _ _ | frame _ => rfl
  | scratch => rw [if_neg (apart.unshared mounted)]

theorem altered_comm (apart : chip.Apart v w) :
    (chip.altered v bytes change).altered w others alter =
      (chip.altered w others alter).altered v bytes change := by
  rw [(chip.altered v bytes change).altered_eq, (chip.altered w others alter).altered_eq,
    window_altered_of_ne _ apart.other, window_altered_of_ne _ apart.other.symm,
    chip.altered_eq bytes, chip.altered_eq others]
  by_cases shared : (chip.window v).mount = .scratch
  · simp only [Bank.set_comm _ apart.other, if_pos shared, if_neg (apart.unshared shared)]
  · simp only [Bank.set_comm _ apart.other, if_neg shared]

end Altered

theorem modifyWindow_modifyWindow (chip : Chip) (w : Window)
    (change alter : ChipWindow → ChipWindow) :
    (chip.modifyWindow w change).modifyWindow w alter =
      chip.modifyWindow w fun old => alter (change old) := by
  have twice (first second : ChipWindow) :
      (chip.windows.set w first).set w second = chip.windows.set w second := Bank.set_set _ _ _ _
  rw [modifyWindow, window_modifyWindow_self, modifyWindow, modifyWindow, twice]

theorem modifyWindow_self (chip : Chip) (w : Window) {change : ChipWindow → ChipWindow}
    (same : change (chip.window w) = chip.window w) : chip.modifyWindow w change = chip := by
  have back : chip.windows.set w (chip.windows.get w) = chip.windows := by cases w <;> rfl
  rw [modifyWindow, same, window, back]

theorem altered_altered (chip : Chip) (w : Window) (bytes others : Bytes)
    {change alter : ChipWindow → ChipWindow}
    (keeps : ∀ old mount, change { old with mount } = { change old with mount }) :
    (chip.altered w bytes change).altered w others alter =
      chip.altered w others (alter ∘ change) := by
  have mounted (old : ChipWindow) : (change old).mount = old.mount := by
    have same : change old = { change old with mount := old.mount } := keeps old old.mount
    rw [same]
  have held : ((chip.window w).mount.holding bytes).holding others =
      (chip.window w).mount.holding others := by
    cases (chip.window w).mount <;> rfl
  rw [(chip.altered w bytes change).altered_eq, window_altered_self, mounted, held, ← keeps,
    scratch_altered, chip.altered_eq bytes, chip.altered_eq others]
  simp only [Bank.set_set, Mount.holding_eq_scratch, Function.comp_apply]
  split
  · rfl
  · rfl

/-- The chip once an index is known to lie past the end or within, if one was set. -/
def lingering (chip : Chip) (timing : Timing) (past? : Option Bool) : Chip :=
  if past? = some true then chip.delayed timing.indexTimeout timing.pollInterval else chip

theorem altered_lingering (chip : Chip) (timing : Timing) (past? : Option Bool) (w : Window)
    (bytes : Bytes) (change : ChipWindow → ChipWindow) :
    (chip.lingering timing past?).altered w bytes change =
      (chip.altered w bytes change).lingering timing past? := by
  rw [lingering, lingering]
  split
  · rw [altered_eq, altered_eq]
    rfl
  · rfl

theorem lingering_comm (chip : Chip) (timing : Timing) (first second : Option Bool) :
    (chip.lingering timing first).lingering timing second =
      (chip.lingering timing second).lingering timing first := by
  rcases first with _ | _ | _ <;> rcases second with _ | _ | _ <;> rfl

theorem alike_lingering (chip : Chip) (timing : Timing) (past? : Option Bool) :
    (chip.lingering timing past?).Alike chip := by
  rw [lingering]
  split
  · exact alike_delayed _ _ _
  · exact .refl _

def view (session : Session Chip) (w : Window) : View where
  bytes := session.host.visible w
  cursor := (session.host.window w).cursor
  flagged := session.status.outOfBounds.contains w

/-- The session once a window has been accessed, but for what is reported. -/
def touched (session : Session Chip) (w : Window) (access : Access) : Session Chip :=
  let past? := access.past? (view session w)
  let next := access.next (view session w)
  { host := (session.host.altered w next.bytes fun old =>
      { old with cursor := next.cursor, indexBusy := past?.getD old.indexBusy }).lingering
        session.status.timing past?
    status := session.status.learn w past? }

section Touched

variable (session : Session Chip) {v w : Window} (access other : Access)

theorem touched_of_view {found : View} (finds : view session w = found) :
    touched session w access =
      { host := (session.host.altered w (access.next found).bytes fun old =>
          { old with
            cursor := (access.next found).cursor
            indexBusy := (access.past? found).getD old.indexBusy }).lingering
              session.status.timing (access.past? found)
        status := session.status.learn w (access.past? found) } := by
  rw [touched, finds]

@[simp] theorem timing_touched :
    (touched session w access).status.timing = session.status.timing :=
  Status.timing_learn _ _

theorem mount_touched (v : Window) : ((touched session w access).host.window v).mount =
    if v = w then (session.host.window w).mount.holding (access.next (view session w)).bytes
    else (session.host.window v).mount := by
  rw [touched, (alike_lingering _ _ _).window]
  by_cases same : v = w
  · rw [same, window_altered_self, if_pos rfl]
  · rw [window_altered_of_ne _ same, if_neg same]

theorem view_touched_self :
    view (touched session w access) w = access.next (view session w) := by
  have shown :
      (touched session w access).host.visible w = (access.next (view session w)).bytes := by
    rw [touched, (alike_lingering _ _ _).visible]
    exact visible_altered_self _ (fun _ => rfl) (access.length_next _)
  rw [view, shown, touched, (alike_lingering _ _ _).window, window_altered_self,
    Status.contains_learn]
  exact congrArg (View.mk _ _) (access.flagged_next _).symm

theorem view_touched_of_apart (apart : session.host.Apart v w) :
    view (touched session w access) v = view session v := by
  rw [view, touched, (alike_lingering _ _ _).visible, (alike_lingering _ _ _).window,
    visible_altered_of_apart _ apart, window_altered_of_ne _ apart.other,
    Status.contains_learn_of_ne _ apart.other, view]

theorem Apart.touched {session : Session Chip} {v w : Window} (apart : session.host.Apart v w)
    (x : Window) (access : Access) : (touched session x access).host.Apart v w := by
  refine ⟨apart.other, fun shared both => ?_⟩
  have mounted (u : Window)
      (now : ((Chip.touched session x access).host.window u).mount = .scratch) :
      (session.host.window u).mount = .scratch := by
    rw [mount_touched] at now
    split at now
    · next same => rw [same, Mount.holding_eq_scratch.mp now]
    · exact now
  exact apart.unshared (mounted v shared) (mounted w both)

/-- Accesses at windows that do not show the same memory can change places. -/
theorem touched_comm (apart : session.host.Apart v w) :
    touched (touched session v access) w other = touched (touched session w other) v access := by
  rw [touched_of_view _ other (view_touched_of_apart _ _ apart.symm), timing_touched,
    touched_of_view _ access (view_touched_of_apart _ _ apart), timing_touched]
  simp only [touched, altered_lingering, altered_comm _ apart, Status.learn_comm _ apart.other]
  rw [lingering_comm]

end Touched

section Reporting

variable (session : Session Chip) (w : Window) (faults : List Fault)

def reporting : Session Chip :=
  { session with host := { session.host with faults := session.host.faults ++ faults } }

@[simp] theorem view_reporting : view (reporting session faults) w = view session w := rfl

@[simp] theorem reporting_nil : reporting session [] = session := by simp [reporting]

theorem reporting_append (more : List Fault) :
    reporting session (faults ++ more) = reporting (reporting session faults) more := by
  simp [reporting]

theorem touched_reporting (access : Access) :
    touched (reporting session faults) w access = reporting (touched session w access) faults := by
  rw [touched_of_view _ access (view_reporting session w faults), touched, altered_eq, altered_eq,
    lingering, lingering]
  split <;> rfl

theorem checked_eq : checked session w =
    reporting session (if (view session w).flagged then [.outOfBoundsAccess w] else []) := by
  have flagged : (view session w).flagged = session.status.outOfBounds.contains w := rfl
  rw [checked, flagged]
  split
  · rfl
  · exact (reporting_nil session).symm

theorem altered_visible (chip : Chip) (change : ChipWindow → ChipWindow) :
    chip.altered w (chip.visible w) change = chip.modifyWindow w change := by
  have same : { chip.window w with mount := (chip.window w).mount } = chip.window w := rfl
  rw [altered_eq, modifyWindow, visible]
  cases mounted : (chip.window w).mount <;> rw [mounted] at same <;> simp [Mount.holding, same]

theorem touched_read (count : Nat) : touched session w (.read count) =
    ⟨session.host.advance w count, session.status⟩ := by
  have unfolded : touched session w (.read count) =
      ⟨session.host.altered w (session.host.visible w) fun old =>
        { old with cursor := (session.host.window w).cursor + count }, session.status⟩ := rfl
  rw [unfolded, altered_visible]
  rfl

theorem touched_write (bytes : Bytes) : touched session w (.write bytes) =
    ⟨(session.host.overwrite w (Memory.write (session.host.visible w)
      (session.host.window w).cursor bytes)).advance w bytes.length, session.status⟩ := by
  have advanced (stored : Bytes) : (session.host.overwrite w stored).advance w bytes.length =
      session.host.altered w stored fun old =>
        { old with cursor := old.cursor + bytes.length } := rfl
  rw [advanced, altered_eq]
  have unfolded : touched session w (.write bytes) = ⟨session.host.altered w
      (Memory.write (session.host.visible w) (session.host.window w).cursor bytes) fun old =>
        { old with cursor := (session.host.window w).cursor + bytes.length },
      session.status⟩ := rfl
  rw [unfolded, altered_eq]

theorem indexed_eq (index : UInt16) : indexed session w index =
    reporting (touched session w (.seek index))
      ((Access.seek index).reports w (view session w)) := by
  have unfolded : touched session w (.seek index) =
      ⟨(session.host.altered w (session.host.visible w) fun old =>
          { old with
            cursor := index.toNat
            indexBusy := decide ((session.host.visible w).length < index.toNat) }).lingering
        session.status.timing (some (decide ((session.host.visible w).length < index.toNat))),
        session.status.learn w (some (decide ((session.host.visible w).length < index.toNat)))⟩ :=
    rfl
  have reports : (Access.seek index).reports w (view session w) =
      if (session.host.visible w).length < index.toNat then [.indexOutOfBounds w index] else [] :=
    rfl
  rw [unfolded, reports, altered_visible, indexed, sought, setIndex]
  by_cases past : (session.host.visible w).length < index.toNat
  · rw [if_neg (Nat.not_le_of_lt past), if_neg (Nat.not_le_of_lt past), if_pos past,
      decide_eq_true past]
    rfl
  · rw [if_pos (Nat.le_of_not_lt past), if_pos (Nat.le_of_not_lt past), if_neg past,
      decide_eq_false past, reporting_nil]
    rfl

end Reporting

section Treated

variable (session : Session Chip) (w : Window)

def treated (accesses : List Access) : Session Chip :=
  accesses.foldl (fun session access => touched session w access) session

theorem treated_append (first second : List Access) :
    treated session w (first ++ second) = treated (treated session w first) w second :=
  List.foldl_append

theorem treated_reporting (accesses : List Access) (faults : List Fault) :
    treated (reporting session faults) w accesses =
      reporting (treated session w accesses) faults := by
  induction accesses generalizing session with
  | nil => rfl
  | cons access rest ih =>
    rw [treated, List.foldl_cons, touched_reporting]
    exact ih (touched session w access)

@[simp] theorem timing_treated (accesses : List Access) :
    (treated session w accesses).status.timing = session.status.timing := by
  induction accesses generalizing session with
  | nil => rfl
  | cons access rest ih =>
    exact (ih (touched session w access)).trans (timing_touched session access)

theorem view_treated_self (accesses : List Access) :
    view (treated session w accesses) w = Access.leave accesses (view session w) := by
  induction accesses generalizing session with
  | nil => rfl
  | cons access rest ih =>
    have left := ih (touched session w access)
    rwa [view_touched_self] at left

section Apart

variable {session} {v w : Window} (apart : session.host.Apart v w)
include apart

theorem Apart.treated (x : Window) (accesses : List Access) :
    (treated session x accesses).host.Apart v w := by
  induction accesses generalizing session with
  | nil => exact apart
  | cons access rest ih => exact ih (apart.touched x access)

theorem view_treated_of_apart (accesses : List Access) :
    view (Chip.treated session w accesses) v = view session v := by
  induction accesses generalizing session with
  | nil => rfl
  | cons access rest ih =>
    exact (ih (apart.touched w access)).trans (view_touched_of_apart _ _ apart)

theorem treated_touched (accesses : List Access) (access : Access) :
    Chip.treated (touched session w access) v accesses =
      touched (Chip.treated session v accesses) w access := by
  induction accesses generalizing session with
  | nil => rfl
  | cons first rest ih =>
    have moved := ih (apart.touched v first)
    rwa [touched_comm _ _ _ apart] at moved

theorem treated_comm (first second : List Access) :
    Chip.treated (Chip.treated session w second) v first =
      Chip.treated (Chip.treated session v first) w second := by
  induction second generalizing session with
  | nil => rfl
  | cons access rest ih =>
    have moved := ih (apart.touched w access)
    rwa [treated_touched apart] at moved

end Apart

end Treated

end Chip

end RadioWindows
