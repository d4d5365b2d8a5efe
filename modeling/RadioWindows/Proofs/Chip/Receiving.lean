import RadioWindows.Proofs.Bookkeeping
import RadioWindows.Proofs.Chip.Accessing
import RadioWindows.Proofs.Chip.Settling

/-! Received frames. A mount takes the oldest frame from the queue and puts the cursor at its start;
what is then read of the frame are slices of it. Nothing else touches the queue. -/

namespace RadioWindows

def Fault.isEmptyMount : Fault → Bool
  | .emptyRxMount _ => true
  | _ => false

/-- So many bytes of a frame from a position on, with `0xff` past its end. -/
def slice (frame : Bytes) (start count : Nat) : Bytes :=
  (List.range count).map fun k => frame[start + k]?.getD 0xff

theorem read_eq_slice (frame : Bytes) (start count : Nat) :
    Memory.read frame start count = slice frame start count := by
  apply List.ext_getElem?
  intro k
  by_cases inside : k < count
  · rw [Memory.getElem?_read frame start count k inside]
    simp [slice, inside, Memory.absent]
  · rw [List.getElem?_eq_none (by simpa using inside),
      List.getElem?_eq_none (by simpa [slice] using inside)]

namespace Chip

def emptyMounts (before after : Chip) : List Fault :=
  (after.faults.drop before.faults.length).filter Fault.isEmptyMount

theorem emptyMounts_append {before after : Chip} {reports : List Fault}
    (faults : after.faults = before.faults ++ reports) :
    before.emptyMounts after = reports.filter Fault.isEmptyMount := by
  rw [emptyMounts, faults, List.drop_left]

/-- The window shows a received frame and stands at a position of it, and these frames wait. -/
structure Shows (w : Window) (frame : Bytes) (position : Nat) (waiting : List Bytes)
    (chip : Chip) : Prop where
  mount : (chip.window w).mount = .frame frame
  cursor : (chip.window w).cursor = position
  received : chip.received = waiting

/-- No mount has found the queue empty between two moments. -/
def Unheard (before after : Chip) : Prop :=
  ∃ reports, after.faults = before.faults ++ reports ∧ reports.filter Fault.isEmptyMount = []

section Unheard

variable {before middle after : Chip}

theorem unheard_of_same (same : after.faults = before.faults) : before.Unheard after :=
  ⟨[], by rw [same, List.append_nil], rfl⟩

theorem unheard_reported (chip : Chip) {fault : Fault} (other : ¬fault.isEmptyMount) :
    chip.Unheard (chip.reported fault) := ⟨[fault], rfl, List.filter_cons_of_neg other⟩

theorem Unheard.trans (first : before.Unheard middle) (second : middle.Unheard after) :
    before.Unheard after := by
  obtain ⟨reports, faults, none⟩ := first
  obtain ⟨more, later, still⟩ := second
  refine ⟨reports ++ more, by rw [later, faults, List.append_assoc], ?_⟩
  rw [List.filter_append, none, still, List.append_nil]

theorem Unheard.emptyMounts_eq (unheard : before.Unheard after) :
    before.emptyMounts after = [] := by
  obtain ⟨reports, faults, none⟩ := unheard
  rw [emptyMounts_append faults, none]

theorem Unheard.emptyMounts_reported (unheard : before.Unheard after) {fault : Fault}
    (empty : fault.isEmptyMount) : before.emptyMounts (after.reported fault) = [fault] := by
  obtain ⟨reports, faults, none⟩ := unheard
  have later : (after.reported fault).faults = before.faults ++ (reports ++ [fault]) := by
    rw [reported, faults, List.append_assoc]
  rw [emptyMounts_append later, List.filter_append, none, List.filter_cons_of_pos empty,
    List.filter_nil, List.nil_append]

theorem unheard_settled (chip : Chip) (timing : Timing) (move : Move) (out : Nat × Chip) :
    chip.Unheard (chip.settled timing move out) := by
  obtain ⟨late, faults, others⟩ := chip.faults_settled timing move out
  refine ⟨late, faults, List.filter_eq_nil_iff.mpr fun report member => ?_⟩
  rw [others report member]
  exact Bool.false_ne_true

theorem unheard_checked (session : Session Chip) (w : Window) :
    session.host.Unheard (checked session w).host := by
  rw [checked]
  split
  · exact unheard_reported _ Bool.false_ne_true
  · exact unheard_of_same rfl

theorem unheard_indexed (session : Session Chip) (w : Window) (index : UInt16) :
    session.host.Unheard (indexed session w index).host := by
  have sought : session.host.Unheard (session.host.sought session.status.timing w index) := by
    refine unheard_of_same ?_
    rw [Chip.sought]
    split <;> rfl
  rw [indexed]
  split
  · exact sought
  · exact sought.trans (unheard_reported _ Bool.false_ne_true)

end Unheard

section Look

variable {rounds : Nat} {session : Session Chip} {w : Window} {frame : Bytes} {position : Nat}
  {waiting : List Bytes}

theorem Shows.indexed (shows : Shows w frame position waiting session.host) (index : UInt16) :
    Shows w frame index.toNat waiting (indexed session w index).host where
  mount := by
    rw [window_indexed_self]
    exact shows.mount
  cursor := by rw [window_indexed_self]
  received := (alike_indexed session w index).received.trans shows.received

theorem ensures_read_shows (shows : Shows w frame position waiting session.host) (count : Nat) :
    (Driver.read w count).Ensures (session.status.timing.Allows rounds) rounds session
      fun bytes after => bytes = slice frame position count ∧
        Shows w frame (position + count) waiting after.host ∧
        session.host.Unheard after.host := by
  refine (ensures_read count).mono ?_
  rintro bytes _ ⟨read, rfl⟩
  have alike := alike_checked session w
  have window : (((checked session w).host.advance w count).window w) =
      { session.host.window w with cursor := (session.host.window w).cursor + count } := by
    rw [advance, window_modifyWindow_self, alike.window]
  refine ⟨?_, ⟨?_, ?_, ?_⟩, (unheard_checked session w).trans (unheard_of_same rfl)⟩
  · have visible : session.host.visible w = frame := by rw [Chip.visible, shows.mount]
    rw [read, visible, shows.cursor, read_eq_slice]
  · rw [window]
    exact shows.mount
  · rw [window]
    exact congrArg (· + count) shows.cursor
  · exact alike.received.trans shows.received

theorem Shows.of_alike {chip after : Chip} (shows : Shows w frame position waiting chip)
    (alike : after.Alike chip) : Shows w frame position waiting after where
  mount := by rw [alike.window, shows.mount]
  cursor := by rw [alike.window, shows.cursor]
  received := alike.received.trans shows.received

theorem shows_settled (chip : Chip) (timing : Timing) (w : Window) (size : UInt16) :
    Shows w (chip.received.headD []) 0 chip.received.tail
      (chip.settled timing ⟨w, .macFrame, true, size⟩ (chip.mountFrame w)) where
  mount := by
    rw [(chip.alike_settled timing ⟨w, .macFrame, true, size⟩ (chip.mountFrame w)).window,
      mount_restart]
    exact congrArg ChipWindow.mount (window_mount_self chip w _)
  cursor := congrArg ChipWindow.cursor
    (chip.window_settled_self timing ⟨w, .macFrame, true, size⟩ (chip.mountFrame w))
  received := (chip.alike_settled timing ⟨w, .macFrame, true, size⟩ (chip.mountFrame w)).received

theorem ensures_mountRx (room : session.host.Roomy) (w : Window) :
    (Driver.mountRx w).Ensures (session.status.timing.Allows rounds) rounds session
      fun length after => length = .ofNat (session.host.received.headD []).length ∧
        Shows w (session.host.received.headD []) 0 session.host.received.tail after.host ∧
        session.host.emptyMounts after.host = if length = 0 then [.emptyRxMount w] else [] := by
  rw [Driver.mountRx, Driver.issue, Driver.ensures_bind, Driver.ensures_bind, Driver.ensures_get,
    Driver.ensures_lift]
  refine (ensures_settled session.status.timing rounds room _).mono fun count moved ended => ?_
  obtain ⟨out, carried, rfl, rfl, -⟩ := ended
  obtain rfl : session.host.mountFrame w = out :=
    Except.ok.inj ((carryOut_receives rfl).symm.trans carried)
  have shows := shows_settled session.host session.status.timing w 0
  have unheard := unheard_settled session.host session.status.timing ⟨w, .macFrame, true, 0⟩
    (session.host.mountFrame w)
  generalize session.host.settled session.status.timing ⟨w, .macFrame, true, 0⟩
    (session.host.mountFrame w) = moved at shows unheard ⊢
  rw [Driver.ensures_bind, Driver.ensures_lift, Program.ensures_raiseIf, answer_report, endsIn_ok]
  split
  · next empty =>
    have reports : session.host.emptyMounts (moved.reported (.emptyRxMount w)) = _ :=
      unheard.emptyMounts_reported rfl
    rw [Driver.ensures_ite]
    split <;> exact ⟨rfl, shows.of_alike (alike_reported _ _), by
      rw [if_pos (eq_of_beq empty)]
      exact reports⟩
  · next bytes =>
    rw [Driver.ensures_ite]
    split <;> exact ⟨rfl, shows, by
      rw [if_neg fun none => bytes (beq_iff_eq.mpr none)]
      exact unheard.emptyMounts_eq⟩

theorem ensures_discardRx (room : session.host.Roomy) (traffic : Traffic) :
    (Driver.discardRx traffic).Ensures (session.status.timing.Allows rounds) rounds session
      fun _ after => session.host.Unheard after.host := by
  rw [Driver.discardRx, Driver.ensures_bind, Driver.ensures_markData, Driver.ensures_discard,
    Driver.issue, Driver.ensures_bind, Driver.ensures_get, Driver.ensures_lift]
  have timing : (session.status.markFor traffic .rx .unmounted).timing = session.status.timing := by
    cases traffic <;> rfl
  dsimp only
  rw [timing]
  refine (ensures_settled session.status.timing rounds room _).mono fun count moved ended => ?_
  obtain ⟨out, -, -, rfl, -⟩ := ended
  exact unheard_settled _ _ _ out

end Look

theorem perform_received {operation : Operation} {rounds : Nat} {session : Session Chip}
    (room : session.host.Roomy) (others : ∀ move ∈ operation.moves, move.receives = false) :
    operation.perform.Ensures (session.status.timing.Allows rounds) rounds session
      fun _ after => after.host.received = session.host.received := by
  have steady : operation.perform.Ensures (session.status.timing.Allows rounds) rounds session
      fun _ after => session.host.Steady after.host := by
    refine perform_keeps session.host.Steady room ?moves ?seeks ?advances ?overwrites ?reports
      (.refl _)
    case moves =>
      exact fun move issued chip out before carried =>
        before.trans (steady_settled _ (others move issued) carried)
    case seeks =>
      intro w accessed chip index before
      have set : chip.Steady (chip.setIndex w index) := ⟨rfl, rfl⟩
      exact (before.trans set).trans (.of_alike (alike_sought chip _ w index))
    case advances => exact fun w accessed chip count before => before.trans (.modifyWindow _ _ _)
    case overwrites =>
      exact fun w accessed chip bytes fits before => before.trans (.overwrite chip w fits)
    case reports =>
      exact fun chip fault before => before.trans (.of_alike (alike_reported chip fault))
  exact steady.mono fun _ after kept => kept.received

end Chip

end RadioWindows
