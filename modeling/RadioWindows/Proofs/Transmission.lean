import RadioWindows.Proofs.Chip.Accessing
import RadioWindows.Proofs.Chip.Allocating
import RadioWindows.Proofs.Runs

/-! A frame from its buffer to the air. The chunks of a frame may be written in any order, and any
work may be done on other windows in between; the invariant is that every byte of the buffer is in
place or covered by a chunk that is still to be written. -/

namespace RadioWindows

namespace Chip

/-- The sessions that can come about on a chip. The free counts may be set from outside as long as
what windows hold still has room. -/
inductive Reachable : Session Chip → Prop where
  | start (timing : Timing) : Reachable (Session.start atReset timing)
  | perform {session : Session Chip} {operation : Operation} {rounds : Nat} {taken : Taken Chip}
      (before : Reachable session) (finished : session.perform rounds operation = .ok taken) :
      Reachable taken.session
  | adjust {session : Session Chip} {change : Change} (before : Reachable session)
      (room : ∀ traffic free, change = .setFree traffic free →
        free.toNat + session.host.held traffic < UInt16.size) :
      Reachable { session with host := adjust change session.host }

theorem Reachable.roomy {session : Session Chip} (reachable : Reachable session) :
    session.host.Roomy := by
  induction reachable with
  | start timing => exact roomy_atReset
  | perform before finished ih =>
    exact ((perform_frame _ _ ih).of_ok finished).1
  | adjust before room ih =>
    next session change =>
    by_cases set : ∃ owner free, change = .setFree owner free
    · intro traffic
      obtain ⟨owner, free, rfl⟩ := set
      have moved := stock_setFree session.host owner traffic free
      have roomy := ih traffic
      have fits := room owner free rfl
      by_cases same : traffic = owner
      · subst same
        simp only [if_true, stock] at moved
        change (session.host.setFree traffic free).stock traffic < _
        rw [stock]
        omega
      · simp only [if_neg same, Nat.add_zero] at moved
        exact moved.symm ▸ roomy
    · exact ih.adjust fun owner free same => set ⟨owner, free, same⟩

section Write

variable {session : Session Chip} {w : Window} {traffic : Traffic} {bytes : Bytes}

theorem visible_of_segment {chip : Chip} (held : (chip.window w).mount = .segment traffic bytes) :
    chip.visible w = bytes := by rw [visible, held]

theorem overwrite_segment {chip : Chip} (stored : Bytes)
    (held : (chip.window w).mount = .segment traffic bytes) :
    ((chip.overwrite w stored).window w).mount = .segment traffic stored ∧
      ∀ pool, (chip.overwrite w stored).free pool = chip.free pool := by
  rw [overwrite]
  simp only [held]
  exact ⟨by rw [window_mount_self], fun pool => free_mount _ _ _ pool⟩

theorem ensures_writeAt (rounds : Nat) (index : UInt16) (chunk : Bytes)
    (held : (session.host.window w).mount = .segment traffic bytes) :
    (Driver.writeAt w index chunk).Ensures (session.status.timing.Allows rounds) rounds session
      fun _ after =>
        (after.host.window w).mount = .segment traffic (Memory.write bytes index.toNat chunk) ∧
        after.host.sent = session.host.sent ∧
        ∀ pool, after.host.free pool = session.host.free pool := by
  rw [Driver.writeAt, Driver.ensures_bind]
  refine (ensures_setIndex index).mono ?_
  rintro _ _ rfl
  refine (ensures_write chunk).mono ?_
  rintro _ _ rfl
  rw [visible_indexed, visible_of_segment held, window_indexed_self]
  have alike : (checked (indexed session w index) w).host.Alike (session.host.setIndex w index) :=
    (alike_checked _ w).trans (alike_indexed session w index)
  have mount : ((checked (indexed session w index) w).host.window w).mount =
      .segment traffic bytes := by
    rw [alike.window, setIndex, window_modifyWindow_self]
    exact held
  obtain ⟨stores, frees⟩ := overwrite_segment (Memory.write bytes index.toNat chunk) mount
  refine ⟨?_, ?_, fun pool => ?_⟩
  · rw [advance, window_modifyWindow_self]
    exact stores
  · rw [advance]
    exact (sent_overwrite _ _ _).trans alike.sent
  · rw [advance, free_modifyWindow, frees, alike.free, setIndex, free_modifyWindow]

end Write

section Chunks

def operationsOn (w : Window) (steps : List (Step Change)) : List Operation :=
  steps.filterMap fun
    | .perform operation => if w ∈ operation.targets then some operation else none
    | .adjust _ => none

def chunkWrites (w : Window) : Nat → List Bytes → List Operation
  | _, [] => []
  | start, chunk :: rest =>
    .writeAt w (.ofNat start) chunk :: chunkWrites w (start + chunk.length) rest

def IsPiece (w : Window) (payload : Bytes) (operation : Operation) : Prop :=
  ∃ index chunk, operation = .writeAt w index chunk ∧
    index.toNat + chunk.length ≤ payload.length ∧
    ∀ k, k < chunk.length → chunk[k]? = payload[index.toNat + k]?

def Covers (operation : Operation) (position : Nat) : Prop :=
  ∃ w index chunk, operation = .writeAt w index chunk ∧ index.toNat ≤ position ∧
    position < index.toNat + chunk.length

variable {w : Window} {payload before : Bytes} {chunks : List Bytes}

theorem isPiece_of_mem_chunkWrites (whole : before ++ chunks.flatten = payload)
    (small : payload.length < UInt16.size) {operation : Operation}
    (member : operation ∈ chunkWrites w before.length chunks) : IsPiece w payload operation := by
  induction chunks generalizing before with
  | nil => exact absurd member List.not_mem_nil
  | cons chunk rest ih =>
    have split : payload = before ++ (chunk ++ rest.flatten) := by
      rw [← whole, List.flatten_cons]
    have size : payload.length = before.length + (chunk.length + rest.flatten.length) := by
      rw [split, List.length_append, List.length_append]
    rw [chunkWrites, List.mem_cons] at member
    cases member with
    | inl first =>
      have index : (UInt16.ofNat before.length).toNat = before.length :=
        UInt16.toNat_ofNat_of_lt' (by omega)
      refine ⟨_, _, first, by omega, fun k inside => ?_⟩
      rw [index, split, List.getElem?_append_right (Nat.le_add_right _ _), Nat.add_sub_cancel_left,
        List.getElem?_append_left inside]
    | inr later =>
      have longer : before.length + chunk.length = (before ++ chunk).length := by
        rw [List.length_append]
      rw [longer] at later
      refine ih ?_ later
      rw [split, List.append_assoc]

theorem exists_covers_of_lt {start position : Nat} (after : start ≤ position)
    (inside : position < start + chunks.flatten.length)
    (small : start + chunks.flatten.length < UInt16.size) :
    ∃ operation ∈ chunkWrites w start chunks, Covers operation position := by
  induction chunks generalizing start with
  | nil =>
    rw [List.flatten_nil, List.length_nil] at inside
    omega
  | cons chunk rest ih =>
    rw [List.flatten_cons, List.length_append] at inside small
    by_cases first : position < start + chunk.length
    · have index : (UInt16.ofNat start).toNat = start := UInt16.toNat_ofNat_of_lt' (by omega)
      refine ⟨_, List.mem_cons_self, w, _, chunk, rfl, ?_, ?_⟩
      · omega
      · omega
    · have later : start + chunk.length ≤ position := by omega
      obtain ⟨operation, member, covers⟩ := ih later (by omega) (by omega)
      exact ⟨operation, List.mem_cons_of_mem _ member, covers⟩

end Chunks

section Stages

variable {w : Window} {traffic : Traffic} {payload : Bytes} {sent : List Bytes}
  {pending : List Operation} {rounds : Nat} {session : Session Chip}

/-- The buffer is there, and each of its bytes is in place or about to be written. -/
structure Loaded (traffic : Traffic) (payload : Bytes) (sent : List Bytes)
    (pending : List Operation) (session : Session Chip) : Prop where
  room : session.host.Roomy
  pieces : ∀ operation ∈ pending, IsPiece traffic.txWindow payload operation
  buffer : ∃ bytes, (session.host.window traffic.txWindow).mount = .segment traffic bytes ∧
    bytes.length = payload.length ∧
    ∀ k, k < payload.length → bytes[k]? = payload[k]? ∨ ∃ operation ∈ pending, Covers operation k
  unsent : session.host.sentBy traffic.txWindow = sent

structure Gone (traffic : Traffic) (payload : Bytes) (sent : List Bytes)
    (session : Session Chip) : Prop where
  room : session.host.Roomy
  mount : (session.host.window traffic.txWindow).mount = .nothing
  sent : session.host.sentBy traffic.txWindow = sent ++ [payload]
  state : traffic = .data → session.status.dataStates.get .tx = .unmounted

def share (chip : Chip) (w : Window) (traffic : Traffic) : Nat :=
  (chip.window w).mount.share traffic

/-- The memory of a frame goes back to its pool when the frame is sent, and by no other step. -/
def Returns (traffic : Traffic) (size : UInt16) (before : Session Chip) (step : Step Change)
    (taken : Taken Chip) : Prop :=
  if step = .perform (.send traffic size) then
    before.host.share traffic.txWindow traffic = size.toNat ∧
    taken.session.host.share traffic.txWindow traffic = 0 ∧
    (taken.session.host.free traffic).toNat = (before.host.free traffic).toNat + size.toNat
  else
    taken.session.host.share traffic.txWindow traffic =
        before.host.share traffic.txWindow traffic ∧
      ∀ operation, step = .perform operation → traffic.txWindow ∈ operation.targets →
        taken.session.host.free traffic = before.host.free traffic

theorem Loaded.of_same {after : Session Chip} (loaded : Loaded traffic payload sent pending session)
    (room : after.host.Roomy)
    (window : after.host.window traffic.txWindow = session.host.window traffic.txWindow)
    (sentBy : after.host.sentBy traffic.txWindow = session.host.sentBy traffic.txWindow) :
    Loaded traffic payload sent pending after where
  room := room
  pieces := loaded.pieces
  buffer := window ▸ loaded.buffer
  unsent := sentBy.trans loaded.unsent

theorem Gone.of_same {after : Session Chip} (gone : Gone traffic payload sent session)
    (room : after.host.Roomy)
    (window : after.host.window traffic.txWindow = session.host.window traffic.txWindow)
    (sentBy : after.host.sentBy traffic.txWindow = session.host.sentBy traffic.txWindow)
    (state : traffic = .data →
      after.status.dataStates.get .tx = session.status.dataStates.get .tx) :
    Gone traffic payload sent after where
  room := room
  mount := window ▸ gone.mount
  sent := sentBy.trans gone.sent
  state data := (state data).trans (gone.state data)

theorem Loaded.write {operation : Operation}
    (loaded : Loaded traffic payload sent (operation :: pending) session) :
    EndsIn (session.status.timing.Allows rounds) (session.perform rounds operation) fun taken =>
      taken.session.status.timing = session.status.timing ∧
        Loaded traffic payload sent pending taken.session ∧
        Returns traffic (.ofNat payload.length) session (.perform operation) taken := by
  obtain ⟨index, chunk, rfl, within, piece⟩ := loaded.pieces operation List.mem_cons_self
  obtain ⟨bytes, mount, length, covered⟩ := loaded.buffer
  have writes : (Operation.writeAt traffic.txWindow index chunk).perform.Ensures
      (session.status.timing.Allows rounds) rounds session fun _ after =>
        (after.host.window traffic.txWindow).mount =
          .segment traffic (Memory.write bytes index.toNat chunk) ∧
        after.host.sent = session.host.sent ∧
        ∀ pool, after.host.free pool = session.host.free pool := by
    rw [Operation.perform, Driver.ensures_bind]
    exact ensures_writeAt rounds index chunk mount
  have framed := ensures_frame (.writeAt traffic.txWindow index chunk) rounds loaded.room
  refine Session.perform_endsIn ((framed.and writes).mono fun _ after established log => ?_)
  obtain ⟨⟨room, frame⟩, stored, sentSame, freeSame⟩ := established
  refine ⟨frame.timing, ⟨room, fun later member => loaded.pieces later
    (List.mem_cons_of_mem _ member), ⟨_, stored, ?_, fun k inside => ?_⟩, ?_⟩, ?_⟩
  · rw [Memory.length_write, length]
  · -- A byte of this chunk is in place now; any other is so already or waits for a later chunk.
    rw [Memory.getElem?_write _ _ _ _ (by omega)]
    split
    · next here =>
      refine .inl ((piece (k - index.toNat) (by omega)).trans ?_)
      rw [Nat.add_sub_cancel' here.1]
    · next elsewhere =>
      obtain good | ⟨later, member, covers⟩ := covered k inside
      · exact .inl good
      · rw [List.mem_cons] at member
        obtain rfl | member := member
        · obtain ⟨_, _, _, same, low, high⟩ := covers
          cases same
          exact absurd ⟨low, high⟩ elsewhere
        · exact .inr ⟨later, member, covers⟩
  · rw [sentBy, sentSame]
    exact loaded.unsent
  · rw [Returns, if_neg (by simp)]
    refine ⟨?_, fun _ _ _ => freeSame traffic⟩
    simp only [share, stored, mount, Mount.share_segment, Memory.length_write]

theorem Loaded.complete (loaded : Loaded traffic payload sent [] session) :
    (session.host.window traffic.txWindow).mount = .segment traffic payload := by
  obtain ⟨bytes, mount, length, covered⟩ := loaded.buffer
  have same : bytes = payload := by
    apply List.ext_getElem?
    intro k
    by_cases inside : k < payload.length
    · obtain good | ⟨operation, member, -⟩ := covered k inside
      · exact good
      · exact absurd member List.not_mem_nil
    · rw [List.getElem?_eq_none (by omega), List.getElem?_eq_none (by omega)]
  rw [mount, same]

theorem Loaded.send (loaded : Loaded traffic payload sent [] session)
    (small : payload.length < 4096) :
    EndsIn (session.status.timing.Allows rounds)
      (session.perform rounds (.send traffic (.ofNat payload.length))) fun taken =>
        taken.session.status.timing = session.status.timing ∧
          Gone traffic payload sent taken.session ∧
          Returns traffic (.ofNat payload.length) session
            (.perform (.send traffic (.ofNat payload.length))) taken := by
  have mount := loaded.complete
  have size : (UInt16.ofNat payload.length).toNat = payload.length :=
    UInt16.toNat_ofNat_of_lt' (Nat.lt_trans small (by decide))
  have sends : (Operation.send traffic (.ofNat payload.length)).perform.Ensures
      (session.status.timing.Allows rounds) rounds session fun _ after =>
        (after.host.window traffic.txWindow).mount = .nothing ∧
        after.host.sentBy traffic.txWindow = session.host.sentBy traffic.txWindow ++ [payload] ∧
        (after.host.free traffic).toNat = (session.host.free traffic).toNat + payload.length ∧
        (traffic = .data → after.status.dataStates.get .tx = .unmounted) := by
    have issues := ensures_send session.status.timing rounds traffic.txWindow
      (.ofNat payload.length) loaded.room
    rw [size, Nat.mod_eq_of_lt small, visible_of_segment mount, mount, List.take_length] at issues
    simp only [Operation.perform, Driver.send, Driver.issue, Driver.ensures_bind,
      Driver.ensures_discard, Driver.ensures_get, Driver.ensures_lift, Driver.ensures_pure]
    refine issues.mono fun _ after established => ?_
    have freed := established.2.2 traffic
    rw [Mount.share_segment, if_pos rfl] at freed
    cases traffic with
    | management => exact ⟨established.1, established.2.1, freed, by simp⟩
    | data => exact ⟨established.1, established.2.1, freed, fun _ => rfl⟩
  have framed := ensures_frame (.send traffic (.ofNat payload.length)) rounds loaded.room
  refine Session.perform_endsIn ((framed.and sends).mono fun _ after established log => ?_)
  obtain ⟨⟨room, frame⟩, gone, sentNow, freed, state⟩ := established
  refine ⟨frame.timing, ⟨room, gone, ?_, state⟩, ?_⟩
  · rw [sentNow, loaded.unsent]
  · rw [Returns, if_pos rfl, size]
    refine ⟨?_, ?_, freed⟩
    · rw [share, mount, Mount.share_segment, if_pos rfl]
    · rw [share, gone, Mount.share_nothing]

/-- Where the frame is, by the operations on its window that are still to come. -/
def Stage (traffic : Traffic) (payload : Bytes) (sent : List Bytes) (remaining : List Operation)
    (session : Session Chip) : Prop :=
  (remaining = [] ∧ Gone traffic payload sent session) ∨
    ∃ pending, remaining = pending ++ [.send traffic (.ofNat payload.length)] ∧
      Loaded traffic payload sent pending session

theorem Stage.of_same {remaining : List Operation} {after : Session Chip}
    (stage : Stage traffic payload sent remaining session) (room : after.host.Roomy)
    (window : after.host.window traffic.txWindow = session.host.window traffic.txWindow)
    (sentBy : after.host.sentBy traffic.txWindow = session.host.sentBy traffic.txWindow)
    (state : traffic = .data →
      after.status.dataStates.get .tx = session.status.dataStates.get .tx) :
    Stage traffic payload sent remaining after := by
  obtain ⟨none, gone⟩ | ⟨pending, ahead, loaded⟩ := stage
  · exact .inl ⟨none, gone.of_same room window sentBy state⟩
  · exact .inr ⟨pending, ahead, loaded.of_same room window sentBy⟩

theorem Stage.room {remaining : List Operation}
    (stage : Stage traffic payload sent remaining session) : session.host.Roomy := by
  obtain ⟨-, gone⟩ | ⟨pending, -, loaded⟩ := stage
  · exact gone.room
  · exact loaded.room

theorem Stage.next {operation : Operation} {remaining : List Operation}
    (stage : Stage traffic payload sent (operation :: remaining) session)
    (small : payload.length < 4096) :
    EndsIn (session.status.timing.Allows rounds) (session.perform rounds operation) fun taken =>
      taken.session.status.timing = session.status.timing ∧
        Stage traffic payload sent remaining taken.session ∧
        Returns traffic (.ofNat payload.length) session (.perform operation) taken := by
  obtain ⟨none, -⟩ | ⟨pending, ahead, loaded⟩ := stage
  · cases none
  · cases pending with
    | nil =>
      obtain ⟨rfl, rfl⟩ := List.cons.inj ahead
      exact EndsIn.mono (loaded.send small) fun taken gone =>
        ⟨gone.1, .inl ⟨rfl, gone.2.1⟩, gone.2.2⟩
    | cons first pending =>
      obtain ⟨rfl, rest⟩ := List.cons.inj ahead
      exact EndsIn.mono loaded.write fun taken written =>
        ⟨written.1, .inr ⟨pending, rest, written.2.1⟩, written.2.2⟩

theorem Stage.other {operation : Operation} {remaining : List Operation}
    (stage : Stage traffic payload sent remaining session)
    (apart : traffic.txWindow ∉ operation.targets) :
    EndsIn (session.status.timing.Allows rounds) (session.perform rounds operation) fun taken =>
      taken.session.status.timing = session.status.timing ∧
        Stage traffic payload sent remaining taken.session ∧
        Returns traffic (.ofNat payload.length) session (.perform operation) taken := by
  refine EndsIn.mono (perform_frame operation rounds stage.room) fun taken framed => ?_
  obtain ⟨room, frame⟩ := framed
  have window := frame.window traffic.txWindow apart
  refine ⟨frame.timing, stage.of_same room window (frame.sentBy _ apart) fun data => ?_, ?_⟩
  · subst data
    exact frame.state .tx fun marked => apart (Operation.dataTx_mem_targets marked)
  · have other : Step.perform operation ≠ (.perform (.send traffic (.ofNat payload.length)) :
        Step Change) := by
      intro same
      cases same
      exact apart (by simp)
    rw [Returns, if_neg other, share, share, window]
    refine ⟨rfl, fun issued same targeted => ?_⟩
    cases same
    exact absurd targeted apart

theorem Stage.adjust {change : Change} {remaining : List Operation}
    (stage : Stage traffic payload sent remaining session)
    (fixed : ∀ pool free, change ≠ .setFree pool free) :
    Stage traffic payload sent remaining { session with host := adjust change session.host } := by
  refine stage.of_same (stage.room.adjust fixed) ?_ ?_ fun _ => rfl
  · exact window_adjust ..
  · cases change with
    | setFree pool free => exact absurd rfl (fixed pool free)
    | _ => rfl

/-- Any run whose operations on the window are the ones to come takes the frame to its end. -/
theorem Stage.run {timing : Timing} {steps : List (Step Change)}
    (stage : Stage traffic payload sent (operationsOn traffic.txWindow steps) session)
    (same : session.status.timing = timing) (small : payload.length < 4096)
    (untouched : ∀ pool free, .adjust (.setFree pool free) ∉ steps) :
    EndsIn (timing.Allows rounds) (session.run rounds steps) fun taken =>
      Stage traffic payload sent [] (session.after taken) ∧
        Session.Along (Returns traffic (.ofNat payload.length)) session steps taken := by
  induction steps generalizing session with
  | nil => exact ⟨stage, trivial⟩
  | cons step rest ih =>
    have later : ∀ pool free, .adjust (.setFree pool free) ∉ rest := fun pool free member =>
      untouched pool free (List.mem_cons_of_mem _ member)
    have taking : EndsIn (timing.Allows rounds) (session.take rounds step) fun taken =>
        taken.session.status.timing = session.status.timing ∧
          Stage traffic payload sent (operationsOn traffic.txWindow rest) taken.session ∧
          Returns traffic (.ofNat payload.length) session step taken := by
      rw [← same]
      cases step with
      | perform operation =>
        -- What acts on the window is the next operation to come.
        by_cases targeted : traffic.txWindow ∈ operation.targets
        · have ahead : operationsOn traffic.txWindow (.perform operation :: rest) =
              operation :: operationsOn traffic.txWindow rest := by
            simp [operationsOn, targeted]
          rw [ahead] at stage
          exact stage.next small
        · have ahead : operationsOn traffic.txWindow (.perform operation :: rest) =
              operationsOn traffic.txWindow rest := by
            simp [operationsOn, targeted]
          rw [ahead] at stage
          exact stage.other targeted
      | adjust change =>
        refine ⟨rfl, stage.adjust fun pool free set => ?_, ?_⟩
        · exact untouched pool free (set ▸ List.mem_cons_self)
        · rw [Returns, if_neg (by simp)]
          have window : (Adjustable.adjust change session.host).window traffic.txWindow =
              session.host.window traffic.txWindow := by
            rw [Chip.window, Chip.window]
            exact window_adjust change session.host traffic.txWindow
          exact ⟨by rw [share, share, window], fun _ performed => by cases performed⟩
    rw [Session.run, endsIn_bind]
    refine EndsIn.mono taking fun taken moved => ?_
    rw [endsIn_bind]
    refine EndsIn.mono (ih moved.2.1 (moved.1.trans same) later) fun others arrived => ?_
    rw [endsIn_pure, Session.after_cons]
    exact ⟨arrived.1, moved.2.2, arrived.2⟩

end Stages

variable {traffic : Traffic} {session : Session Chip}

theorem perform_allocate (rounds : Nat) {size : UInt16} (room : session.host.Roomy)
    (steady : ¬session.host.failing) (valid : (session.host.free traffic).toNat ≤ 4095)
    (some : 1 ≤ size.toNat) (fits : size ≤ session.host.free traffic) :
    EndsIn (session.status.timing.Allows rounds) (session.perform rounds (.allocate traffic size))
      fun taken => taken.answer = .granted ∧
        Allocated traffic size session (.ok ()) taken.session := by
  refine Session.perform_endsIn ?_
  rw [Operation.perform, Driver.ensures_map]
  refine (ensures_allocate room).mono fun verdict after outcome log => ?_
  cases outcome with
  | insufficient lacking =>
    have all : session.host.free traffic &&& Register.freeCountMask = session.host.free traffic :=
      ControlWord.and_sizeMask_of_lt (by omega)
    rw [all] at lacking
    exact absurd fits (UInt16.not_le.mpr lacking)
  | failed _ refused mount status =>
    obtain none | failing := refused
    · rw [none] at some
      exact absurd some (by decide)
    · exact absurd failing steady
  | granted _ fits mount free sent state =>
    exact ⟨rfl, .granted after fits mount free sent state⟩

theorem loaded_of_granted {payload : Bytes} {chunks : List Bytes} {writes : List Operation}
    {after : Session Chip} (small : payload.length < 4096) (whole : chunks.flatten = payload)
    (order : writes.Perm (chunkWrites traffic.txWindow 0 chunks)) (room : after.host.Roomy)
    (allocated : Allocated traffic (.ofNat payload.length) session (.ok ()) after) :
    Loaded traffic payload (session.host.sentBy traffic.txWindow) writes after := by
  have size : (UInt16.ofNat payload.length).toNat = payload.length :=
    UInt16.toNat_ofNat_of_lt' (Nat.lt_trans small (by decide))
  have fits : payload.length < UInt16.size := Nat.lt_trans small (by decide)
  cases allocated with
  | granted _ _ mount _ sent _ =>
    refine ⟨room, fun operation member => ?_, ⟨_, mount, ?_, fun k inside => .inr ?_⟩, ?_⟩
    · have all : [] ++ chunks.flatten = payload := whole
      exact isPiece_of_mem_chunkWrites all fits (order.mem_iff.mp member)
    · rw [List.length_replicate, size]
    · obtain ⟨operation, member, covers⟩ : ∃ operation ∈ chunkWrites traffic.txWindow 0 chunks,
          Covers operation k :=
        exists_covers_of_lt (Nat.zero_le k) (by rw [whole]; omega) (by rw [whole]; omega)
      exact ⟨operation, order.mem_iff.mpr member, covers⟩
    · rw [sentBy, sent, sentBy]

/-- A payload for which the pool has room is sent whole: its chunks may be written in any order, and
anything may be done on other windows from the allocation on. The window then holds nothing, its
pool has the memory back, once, and the driver remembers no frame. -/
theorem payload_sent (traffic : Traffic) (session : Session Chip) (rounds : Nat) (payload : Bytes)
    (chunks : List Bytes) (writes : List Operation) (steps : List (Step Change))
    (reachable : Reachable session) (moving : session.status.timing.pollInterval ≠ 0)
    (enough : session.status.timing.enoughRounds ≤ rounds) (steady : ¬session.host.failing)
    (valid : (session.host.free traffic).toNat ≤ 4095) (some : 1 ≤ payload.length)
    (fits : payload.length ≤ (session.host.free traffic).toNat)
    (whole : chunks.flatten = payload)
    (order : writes.Perm (chunkWrites traffic.txWindow 0 chunks))
    (own : operationsOn traffic.txWindow steps =
      writes ++ [.send traffic (.ofNat payload.length)])
    (untouched : ∀ pool free, .adjust (.setFree pool free) ∉ steps)
    (clock : session.run rounds
      (.perform (.allocate traffic (.ofNat payload.length)) :: steps) ≠ .error .clockOverflow) :
    ∃ first taken, session.run rounds
        (.perform (.allocate traffic (.ofNat payload.length)) :: steps) = .ok (first :: taken) ∧
      first.answer = .granted ∧
      (first.session.host.free traffic).toNat + payload.length =
        (session.host.free traffic).toNat ∧
      Session.Along (Returns traffic (.ofNat payload.length)) first.session steps taken ∧
      (first.session.after taken).host.sentBy traffic.txWindow =
        session.host.sentBy traffic.txWindow ++ [payload] ∧
      ((first.session.after taken).host.window traffic.txWindow).mount = .nothing ∧
      (traffic = .data →
        (first.session.after taken).status.dataStates.get .tx = .unmounted) := by
  have size : (UInt16.ofNat payload.length).toNat = payload.length :=
    UInt16.toNat_ofNat_of_lt' (Nat.lt_of_le_of_lt (Nat.le_trans fits valid) (by decide))
  have enoughFree : UInt16.ofNat payload.length ≤ session.host.free traffic :=
    UInt16.le_iff_toNat_le.mpr (by omega)
  have allocates := perform_allocate rounds reachable.roomy steady valid (by omega) enoughFree
  have framed := perform_frame (.allocate traffic (.ofNat payload.length)) rounds reachable.roomy
  have runs : EndsIn (session.status.timing.Allows rounds) (session.run rounds
      (.perform (.allocate traffic (.ofNat payload.length)) :: steps)) fun all =>
        ∃ first taken, all = first :: taken ∧ first.answer = .granted ∧
          Allocated traffic (.ofNat payload.length) session (.ok ()) first.session ∧
          Stage traffic payload (session.host.sentBy traffic.txWindow) []
            (first.session.after taken) ∧
          Session.Along (Returns traffic (.ofNat payload.length)) first.session steps taken := by
    rw [Session.run, endsIn_bind]
    refine EndsIn.mono (allocates.and framed) fun first established => ?_
    obtain ⟨⟨granted, allocated⟩, room, frame⟩ := established
    have loaded := loaded_of_granted (by omega) whole order room allocated
    have stage : Stage traffic payload (session.host.sentBy traffic.txWindow)
        (operationsOn traffic.txWindow steps) first.session := .inr ⟨writes, own, loaded⟩
    rw [endsIn_bind]
    exact EndsIn.mono (stage.run frame.timing (by omega) untouched) fun taken arrived =>
      ⟨first, taken, rfl, granted, allocated, arrived⟩
  obtain ⟨all, finished, first, taken, rfl, granted, allocated, stage, returns⟩ :=
    runs.exists_ok fun halt halted allows => by
      rw [allows.eq_clockOverflow moving enough] at halted
      exact clock halted
  -- With no operation left to come, the frame has been sent.
  obtain ⟨-, gone⟩ | ⟨pending, ahead, -⟩ := stage
  · refine ⟨first, taken, finished, granted, ?_, returns, gone.sent, gone.mount, gone.state⟩
    cases allocated with
    | granted _ _ _ free _ _ =>
      rw [free, UInt16.toNat_sub_of_le _ _ enoughFree, size]
      omega
  · exact absurd ahead (by simp)

def hasty : Timing := ⟨20, 20, 10⟩

def readied : Session Chip :=
  match (Session.start atReset hasty).perform 4 .setUp with
  | .ok taken => taken.session
  | .error _ => Session.start atReset hasty

theorem reachable_readied : Reachable readied := by
  rw [readied]
  split
  · next taken finished => exact (Reachable.start hasty).perform finished
  · exact .start hasty

/-- Two chunks are written last first. In between completions stop being signalled and other
windows are at work, one of them on the same pool. -/
def interleavedSteps : List (Step Change) :=
  [.perform (.move ⟨.spare, .dataPool, true, 100⟩), .perform (.writeAt .dataTx 2 [3, 4, 5]),
    .adjust (.setStalled true), .adjust (.receive [9, 9]), .perform (.mountRx .dataRx),
    .perform (.copy .dataTx .spare 5), .perform (.writeAt .dataTx 0 [1, 2]),
    .perform (.allocate .management 7), .perform (.send .data 5), .perform (.discardRx .data)]

theorem payload_sent_interleavedSteps :
    ∃ first taken, readied.run 4
        (.perform (.allocate .data 5) :: interleavedSteps) = .ok (first :: taken) ∧
      first.answer = .granted ∧
      (first.session.host.free .data).toNat + 5 = (readied.host.free .data).toNat ∧
      Session.Along (Returns .data 5) first.session interleavedSteps taken ∧
      (first.session.after taken).host.sentBy .dataTx =
        readied.host.sentBy .dataTx ++ [[1, 2, 3, 4, 5]] ∧
      ((first.session.after taken).host.window .dataTx).mount = .nothing ∧
      (Traffic.data = .data →
        (first.session.after taken).status.dataStates.get .tx = .unmounted) := by
  refine payload_sent .data readied 4 [1, 2, 3, 4, 5] [[1, 2], [3, 4, 5]]
    [.writeAt .dataTx 2 [3, 4, 5], .writeAt .dataTx 0 [1, 2]] interleavedSteps reachable_readied
    ?_ ?_ ?_ ?_ ?_ ?_ rfl (.swap _ _ _) ?_ ?_ ?_
  · decide +kernel
  · decide +kernel
  · decide +kernel
  · decide +kernel
  · decide
  · decide +kernel
  · decide +kernel
  · simp [interleavedSteps]
  · intro halted
    exact absurd (congrArg Except.isOk halted) (by decide +kernel)

end Chip

end RadioWindows
