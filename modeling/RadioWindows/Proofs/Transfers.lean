import RadioWindows.Proofs.Interleaving

/-! Transfers in a row at one window. What the operations of a row return and leave is that of their
accesses in order, so bytes that are written are found by a later read wherever the two overlap; and
a transfer in pieces, each of which takes up the cursor where the last has left it, is a transfer of
all the bytes at once. -/

namespace RadioWindows

namespace Access

theorem reportsOf_transfers (w : Window) {accesses : List Access} (found : View)
    (transfers : ∀ access ∈ accesses, ∀ found, access.past? found = none) :
    reportsOf w accesses found =
      if found.flagged then List.replicate accesses.length (.outOfBoundsAccess w) else [] := by
  induction accesses generalizing found with
  | nil => simp [reportsOf]
  | cons access rest ih =>
    obtain ⟨first, others⟩ := List.forall_mem_cons.mp transfers
    have flagged : (access.next found).flagged = found.flagged := by
      rw [flagged_next, first, Option.getD_none]
    have reports : access.reports w found =
        if found.flagged then [.outOfBoundsAccess w] else [] := by
      cases access with
      | seek index => cases first found
      | read _ | write _ => rfl
    rw [reportsOf, ih _ others, flagged, reports]
    split <;> simp [List.replicate_succ]

end Access

namespace Chip

/-- What is reported of transfers at an index of a window: the index, if it lies past the end, and
then each of them. -/
def strays (length : Nat) (w : Window) (index : UInt16) (transfers : Nat) : List Fault :=
  if length < index.toNat then
    .indexOutOfBounds w index :: List.replicate transfers (.outOfBoundsAccess w)
  else []

theorem reportsOf_seek (w : Window) (index : UInt16) {accesses : List Access} (found : View)
    (transfers : ∀ access ∈ accesses, ∀ found, access.past? found = none) :
    Access.reportsOf w (.seek index :: accesses) found =
      strays found.bytes.length w index accesses.length := by
  rw [Access.reportsOf, Access.reportsOf_transfers w _ transfers, Access.reports, Access.next,
    strays]
  by_cases past : found.bytes.length < index.toNat
  · simp [past]
  · simp [past]

theorem spentOn_strays (timing : Timing) (length : Nat) (w : Window) (index : UInt16)
    (transfers : Nat) :
    timing.spentOn (strays length w index transfers) =
      timing.spentOn (strays length w index 0) := by
  have none : (List.replicate transfers (Fault.outOfBoundsAccess w)).countP
      Fault.isIndexOutOfBounds = 0 := by
    rw [List.countP_replicate]
    rfl
  rw [strays, strays]
  split
  · rw [Timing.spentOn, Timing.spentOn, List.countP_cons, none]
    rfl
  · rfl

section Runs

structure ServesOne (session : Session Chip) (w : Window) (operations : List Operation)
    (taken : List (Taken Chip)) : Prop where
  answers : taken.map (·.answer) = answersFrom operations (view session w)
  ended : session.after taken = reporting
    (treated session w (operations.flatMap Operation.parts))
    (reportsFrom w operations (view session w))

variable {session : Session Chip} {w : Window} {rounds : Nat}

theorem ServesOne.cons {operation : Operation} {rest : List Operation} {first : Taken Chip}
    {others : List (Taken Chip)} (accessed : Accessed session w operation first)
    (serves : ServesOne first.session w rest others) :
    ServesOne session w (operation :: rest) (first :: others) where
  answers := by
    rw [List.map_cons, accessed.answer, serves.answers, accessed.view_self, answersFrom]
  ended := by
    rw [Session.after_cons, serves.ended, accessed.view_self, accessed.ended, treated_reporting,
      ← reporting_append, ← treated_append, ← List.flatMap_cons, ← reportsFrom_cons]

theorem run_serves_one {operations : List Operation}
    (here : ∀ operation ∈ operations, operation.accesses = [w]) :
    EndsIn (Overruns session rounds
        (session.status.timing.spentOn (reportsFrom w operations (view session w))))
      (session.run rounds (operations.map Step.perform)) (ServesOne session w operations) := by
  induction operations generalizing session with
  | nil =>
    have nothing : reporting session [] = session := reporting_nil session
    exact ⟨rfl, nothing.symm⟩
  | cons operation rest ih =>
    obtain ⟨first, others⟩ := List.forall_mem_cons.mp here
    rw [reportsFrom_cons, Timing.spentOn_append]
    refine run_access session first fun taken accessed => ?_
    rw [← accessed.timing, ← accessed.view_self]
    exact EndsIn.mono (ih others) fun more serves => serves.cons accessed

end Runs

/-- The chip holds the same bytes, and in the same places. -/
structure SameMemory (chip after : Chip) : Prop where
  mount : ∀ v, (after.window v).mount = (chip.window v).mount
  scratch : after.scratch = chip.scratch
  received : after.received = chip.received

section Recall

variable {session : Session Chip} {w : Window}

theorem SameMemory.trans {chip middle after : Chip} (first : chip.SameMemory middle)
    (second : middle.SameMemory after) : chip.SameMemory after where
  mount v := (second.mount v).trans (first.mount v)
  scratch := second.scratch.trans first.scratch
  received := second.received.trans first.received

theorem SameMemory.of_alike {chip after : Chip} (alike : after.Alike chip) :
    chip.SameMemory after where
  mount v := by rw [alike.window]
  scratch := alike.scratch
  received := alike.received

theorem sameMemory_touched {access : Access}
    (keeps : (access.next (view session w)).bytes = (view session w).bytes) :
    session.host.SameMemory (touched session w access).host := by
  refine SameMemory.trans ?_ (.of_alike (alike_lingering _ _ _))
  have shown : (view session w).bytes = session.host.visible w := rfl
  rw [keeps, shown, altered_visible]
  refine ⟨fun v => ?_, rfl, rfl⟩
  by_cases same : v = w
  · rw [same, window_modifyWindow_self]
  · rw [window_modifyWindow_of_ne _ _ same]

theorem sameMemory_treated (index : UInt16) {access : Access}
    (keeps : (access.next ((Access.seek index).next (view session w))).bytes =
      (view session w).bytes) :
    session.host.SameMemory (treated session w [.seek index, access]).host := by
  have sought : session.host.SameMemory (touched session w (.seek index)).host :=
    sameMemory_touched rfl
  refine sought.trans (sameMemory_touched ?_)
  rw [view_touched_self]
  exact keeps

theorem faults_treated (accesses : List Access) :
    (treated session w accesses).host.faults = session.host.faults := by
  induction accesses generalizing session with
  | nil => rfl
  | cons access rest ih =>
    have rests : (treated (touched session w access) w rest).host.faults =
        (touched session w access).host.faults := ih
    refine rests.trans ?_
    rw [touched, altered_eq, lingering]
    split <;> rfl

/-- What is found by a read after a write at the same window: what was written wherever the two
overlap, and what the window showed before elsewhere. -/
structure Recalls (session : Session Chip) (w : Window) (start : UInt16) (bytes : Bytes)
    (index : UInt16) (count : Nat) (wrote found : Taken Chip) : Prop where
  answer : ∃ read : Bytes, found.answer = .bytes read ∧ read.length = count ∧
    ∀ k < count, read[k]? =
      if (session.host.visible w).length ≤ index.toNat + k then some 0xff
      else if start.toNat ≤ index.toNat + k ∧ index.toNat + k < start.toNat + bytes.length then
        bytes[index.toNat + k - start.toNat]?
      else (session.host.visible w)[index.toNat + k]?
  writeFaults : wrote.session.host.faults = session.host.faults ++
    if (session.host.visible w).length < start.toNat then
      [.indexOutOfBounds w start, .outOfBoundsAccess w]
    else []
  readFaults : found.session.host.faults = wrote.session.host.faults ++
    if (session.host.visible w).length < index.toNat then
      [.indexOutOfBounds w index, .outOfBoundsAccess w]
    else []
  past : (session.host.visible w).length < start.toNat →
    session.host.SameMemory wrote.session.host
  kept : wrote.session.host.SameMemory found.session.host

theorem recalls_of_accessed {start index : UInt16} {bytes : Bytes} {count : Nat}
    {wrote found : Taken Chip} (first : Accessed session w (.writeAt w start bytes) wrote)
    (second : Accessed wrote.session w (.readAt w index count) found) :
    Recalls session w start bytes index count wrote found := by
  have left : view wrote.session w =
      ⟨Memory.write (session.host.visible w) start.toNat bytes, start.toNat + bytes.length,
        decide ((session.host.visible w).length < start.toNat)⟩ := first.view_self
  have length : (view wrote.session w).bytes.length = (session.host.visible w).length := by
    rw [left]
    exact Memory.length_write _ _ _
  refine ⟨?answer, ?writeFaults, ?readFaults, fun past => ?past, ?kept⟩
  case answer =>
    have answer : found.answer =
        .bytes (Memory.read (view wrote.session w).bytes index.toNat count) := second.answer
    rw [left] at answer
    exact ⟨_, answer, Memory.length_read _ _ _, fun k inside =>
      Memory.getElem?_read_write _ _ _ _ inside⟩
  case writeFaults =>
    rw [first.ended, reporting, faults_treated]
    exact congrArg _ (reportsOf_seek w start (view session w) (by simp [Access.past?]))
  case readFaults =>
    rw [second.ended, reporting, faults_treated, ← length]
    exact congrArg _ (reportsOf_seek w index (view wrote.session w) (by simp [Access.past?]))
  case past =>
    have same : session.host.SameMemory (treated session w [.seek start, .write bytes]).host :=
      sameMemory_treated start (Memory.write_past _ _ _ (Nat.le_of_lt past))
    rw [first.ended]
    exact same.trans ⟨fun _ => rfl, rfl, rfl⟩
  case kept =>
    have same : wrote.session.host.SameMemory
        (treated wrote.session w [.seek index, .read count]).host := sameMemory_treated index rfl
    rw [second.ended]
    exact same.trans ⟨fun _ => rfl, rfl, rfl⟩

/-- Read after write is memory, for every overlap of the two ranges with each other and with the end
of the window. -/
theorem read_after_write (rounds : Nat) (session : Session Chip) (w : Window) (start : UInt16)
    (bytes : Bytes) (index : UInt16) (count : Nat)
    (moving : session.status.timing.pollInterval ≠ 0)
    (enough : session.status.timing.enoughRounds ≤ rounds)
    (clock : session.run rounds
      [.perform (.writeAt w start bytes), .perform (.readAt w index count)] ≠
        .error .clockOverflow) :
    ∃ wrote found, session.run rounds
        [.perform (.writeAt w start bytes), .perform (.readAt w index count)] = .ok [wrote, found] ∧
      Recalls session w start bytes index count wrote found := by
  have ends : EndsIn (Overruns session rounds _) _
      (ServesOne session w [.writeAt w start bytes, .readAt w index count]) :=
    run_serves_one (by simp [Operation.accesses])
  obtain ⟨taken, finished, -⟩ :=
    Timing.finishes (ends.allow fun _ overruns => overruns.1) moving enough clock
  obtain ⟨wrote, found, rfl, writes, reads⟩ := Session.run_pair finished
  have first : EndsIn (Overruns session rounds _) _ (Accessed session w (.writeAt w start bytes)) :=
    perform_access session rfl
  have second : EndsIn (Overruns wrote.session rounds _) _
      (Accessed wrote.session w (.readAt w index count)) := perform_access wrote.session rfl
  exact ⟨wrote, found, finished, recalls_of_accessed (first.of_ok writes) (second.of_ok reads)⟩

/-- Three bytes written at the end of a buffer of five, and four read from the middle. -/
theorem read_after_write_loaded :
    ∃ wrote found, loaded.run 4
        [.perform (.writeAt .dataTx 3 [1, 2, 3]), .perform (.readAt .dataTx 2 4)] =
          .ok [wrote, found] ∧
      found.answer = .bytes [0, 1, 2, 255] ∧
      Recalls loaded .dataTx 3 [1, 2, 3] 2 4 wrote found := by
  obtain ⟨taken, finished, answers⟩ : ∃ taken, loaded.run 4
      [.perform (.writeAt .dataTx 3 [1, 2, 3]), .perform (.readAt .dataTx 2 4)] = .ok taken ∧
        taken.map (·.answer) = [.nothing, .bytes [0, 1, 2, 255]] :=
    exists_ok_of_endsIn (by decide +kernel)
  obtain ⟨wrote, found, ended, recalls⟩ := read_after_write 4 loaded .dataTx 3 [1, 2, 3] 2 4
    (by decide +kernel) (by decide +kernel) fun halted => nomatch finished.symm.trans halted
  obtain rfl : taken = [wrote, found] := Except.ok.inj (finished.symm.trans ended)
  exact ⟨wrote, found, finished, (by simpa using answers : _ ∧ _).2, recalls⟩

end Recall

section Pieces

variable {session : Session Chip} {w : Window}

theorem touched_transfer {access : Access} (transfers : ∀ found, access.past? found = none) :
    touched session w access =
      { session with
        host := session.host.altered w (access.next (view session w)).bytes fun old =>
          { old with cursor := (access.next (view session w)).cursor } } := by
  rw [touched, transfers]
  rfl

/-- Transfers of one kind that can be made in pieces: two in a row leave their window as one. -/
structure Divides {α : Type} (piece : α → Access) (whole : List α → Access) : Prop where
  part : ∀ part found, (piece part).past? found = none
  all : ∀ parts found, (whole parts).past? found = none
  nothing : ∀ found, (whole []).next found = found
  more : ∀ first rest found,
    (whole rest).next ((piece first).next found) = (whole (first :: rest)).next found

def total : List Nat → Nat
  | [] => 0
  | count :: rest => count + total rest

theorem divides_write : Divides Access.write fun chunks => .write chunks.flatten where
  part _ _ := rfl
  all _ _ := rfl
  nothing found := by
    simp [Access.next, Memory.write_nil]
  more first rest found := by
    simp [Access.next, Memory.write_append, Nat.add_assoc]

theorem divides_read : Divides Access.read fun counts => .read (total counts) where
  part _ _ := rfl
  all _ _ := rfl
  nothing _ := rfl
  more first rest found := by
    simp [Access.next, total, Nat.add_assoc]

variable {α : Type} {piece : α → Access} {whole : List α → Access}

theorem Divides.treated (divides : Divides piece whole) (session : Session Chip) (parts : List α) :
    treated session w (parts.map piece) = touched session w (whole parts) := by
  induction parts generalizing session with
  | nil =>
    rw [touched_transfer (divides.all []), divides.nothing]
    -- A transfer of nothing stores what it finds, the cursor with it.
    have same : session.host.altered w (session.host.visible w) (fun old =>
        { old with cursor := (session.host.window w).cursor }) = session.host := by
      rw [altered_visible, modifyWindow_self]
      rfl
    exact (congrArg (Session.mk · session.status) same).symm
  | cons first rest ih =>
    refine (ih (touched session w (piece first))).trans ?_
    rw [touched_transfer (divides.all rest), view_touched_self, divides.more,
      touched_transfer (divides.all (first :: rest)), touched_transfer (divides.part first)]
    exact congrArg (Session.mk · session.status) (altered_altered _ _ _ _ fun _ _ => rfl)

/-- A transfer at an index made at once and in pieces: everything is the same but for how often an
index past the end is reported again. -/
structure Piecewise (session : Session Chip) (w : Window) (index : UInt16) (pieces : Nat)
    (whole divided : Session Chip) : Prop where
  status : divided.status = whole.status
  host : { divided.host with faults := [] } = { whole.host with faults := [] }
  within : index.toNat ≤ (session.host.visible w).length →
    whole.host.faults = session.host.faults ∧ divided.host.faults = session.host.faults
  past : (session.host.visible w).length < index.toNat →
    whole.host.faults =
        session.host.faults ++ [.indexOutOfBounds w index, .outOfBoundsAccess w] ∧
      divided.host.faults = session.host.faults ++
        .indexOutOfBounds w index :: List.replicate pieces (.outOfBoundsAccess w)

theorem piecewise_of_strays {index : UInt16} {pieces : Nat} {whole divided last : Session Chip}
    (faults : last.host.faults = session.host.faults)
    (atOnce : whole = reporting last (strays (session.host.visible w).length w index 1))
    (inPieces : divided = reporting last (strays (session.host.visible w).length w index pieces)) :
    Piecewise session w index pieces whole divided := by
  subst atOnce inPieces
  refine ⟨rfl, rfl, fun within => ?_, fun past => ?_⟩
  · have none (count : Nat) : strays (session.host.visible w).length w index count = [] :=
      if_neg (Nat.not_lt.mpr within)
    rw [none, none, reporting_nil]
    exact ⟨faults, faults⟩
  · have some (count : Nat) : strays (session.host.visible w).length w index count =
        .indexOutOfBounds w index :: List.replicate count (.outOfBoundsAccess w) := if_pos past
    rw [some, some, reporting, reporting, faults]
    exact ⟨rfl, rfl⟩

theorem flatMap_parts {operation : α → Operation}
    (each : ∀ part, (operation part).parts = [piece part]) (parts : List α) :
    (parts.map operation).flatMap Operation.parts = parts.map piece := by
  induction parts with
  | nil => rfl
  | cons first rest ih =>
    rw [List.map_cons, List.flatMap_cons, ih, each, List.map_cons, List.singleton_append]

theorem room_of_setIndex {rounds : Nat} {index : UInt16}
    (moving : session.status.timing.pollInterval ≠ 0)
    (enough : session.status.timing.enoughRounds ≤ rounds)
    (clock : session.perform rounds (.setIndex w index) ≠ .error .clockOverflow) (count : Nat) :
    session.host.clock.toNat + session.status.timing.spentOn
      (strays (session.host.visible w).length w index count) < UInt64.size := by
  have seeking : EndsIn (Overruns session rounds _) _ (Accessed session w (.setIndex w index)) :=
    perform_access session rfl
  obtain ⟨sought, -, accessed⟩ :=
    Timing.finishes (seeking.allow fun _ overruns => overruns.1) moving enough clock
  have reports : Access.reportsOf w [.seek index] (view session w) =
      strays (session.host.visible w).length w index 0 := reportsOf_seek w index _ (by simp)
  have time : sought.session.host.clock.toNat = session.host.clock.toNat +
      session.status.timing.spentOn (strays (session.host.visible w).length w index 0) := by
    rw [← reports]
    exact accessed.time
  rw [spentOn_strays, ← time]
  exact UInt64.toNat_lt_size _

/-- A transfer at an index and its pieces after the index was set come to the same. -/
theorem Divides.runs (divides : Divides piece whole) (operation : α → Operation)
    (once : Operation) {rounds : Nat} {index : UInt16} {parts : List α}
    (here : ∀ part, (operation part).accesses = [w]) (hereOnce : once.accesses = [w])
    (each : ∀ part, (operation part).parts = [piece part])
    (all : once.parts = [.seek index, whole parts])
    (moving : session.status.timing.pollInterval ≠ 0)
    (enough : session.status.timing.enoughRounds ≤ rounds)
    (clock : session.perform rounds (.setIndex w index) ≠ .error .clockOverflow) :
    ∃ atOnce inPieces, session.perform rounds once = .ok atOnce ∧
      session.run rounds ((.setIndex w index :: parts.map operation).map Step.perform) =
        .ok inPieces ∧
      atOnce.answer = (whole parts).answer ((Access.seek index).next (view session w)) ∧
      inPieces.map (·.answer) = .nothing ::
        answersFrom (parts.map operation) ((Access.seek index).next (view session w)) ∧
      Piecewise session w index parts.length atOnce.session (session.after inPieces) := by
  let reports := strays (session.host.visible w).length w index
  -- Only setting the index takes time, so there is time for the pieces if there is for the whole.
  have room (count : Nat) :
      session.host.clock.toNat + session.status.timing.spentOn (reports count) < UInt64.size :=
    room_of_setIndex moving enough clock count
  have reportsOnce : Access.reportsOf w once.parts (view session w) = reports 1 := by
    rw [all]
    exact reportsOf_seek w index _ (by simpa using divides.all parts)
  have joined : (Operation.setIndex w index :: parts.map operation).flatMap Operation.parts =
      .seek index :: parts.map piece := by
    rw [List.flatMap_cons, flatMap_parts each]
    rfl
  have reportsPieces : reportsFrom w (.setIndex w index :: parts.map operation) (view session w) =
      reports parts.length := by
    have transfers : ∀ access ∈ parts.map piece, ∀ found, access.past? found = none := by
      simpa using fun part _ => divides.part part
    rw [reportsFrom, joined, reportsOf_seek w index _ transfers, List.length_map]
    rfl
  have transferring : EndsIn (Overruns session rounds _) _ (Accessed session w once) :=
    perform_access session hereOnce
  obtain ⟨atOnce, finished, accessed⟩ := transferring.exists_ok fun halt _ =>
    not_overruns moving enough (reportsOnce ▸ room 1)
  have dividing : EndsIn (Overruns session rounds _) _
      (ServesOne session w (.setIndex w index :: parts.map operation)) :=
    run_serves_one (List.forall_mem_cons.mpr ⟨rfl, by simpa using fun part _ => here part⟩)
  obtain ⟨inPieces, ended, serves⟩ := dividing.exists_ok fun halt _ =>
    not_overruns moving enough (reportsPieces ▸ room parts.length)
  refine ⟨atOnce, inPieces, finished, ended, ?_, serves.answers, ?_⟩
  · rw [accessed.answer, all]
    rfl
  · have faults : (Chip.treated session w [.seek index, whole parts]).host.faults =
        session.host.faults := faults_treated _
    refine piecewise_of_strays faults ?_ ?_
    · rw [accessed.ended, reportsOnce, all]
    · rw [serves.ended, reportsPieces, joined]
      exact congrArg (reporting · _) (divides.treated (touched session w (.seek index)) parts)

theorem answersFrom_reads (counts : List Nat) (found : View) :
    ∃ read : List Bytes, read.map List.length = counts ∧
      answersFrom (counts.map (Operation.read w)) found = read.map Answer.bytes ∧
      Memory.read found.bytes found.cursor (total counts) = read.flatten := by
  induction counts generalizing found with
  | nil => exact ⟨[], rfl, rfl, by simp [Memory.read, total]⟩
  | cons count rest ih =>
    obtain ⟨read, lengths, answers, joined⟩ := ih ((Access.read count).next found)
    refine ⟨Memory.read found.bytes found.cursor count :: read, ?_, ?_, ?_⟩
    · rw [List.map_cons, lengths, Memory.length_read]
    · rw [List.map_cons, List.map_cons, ← answers]
      rfl
    · rw [List.flatten_cons, ← joined, total]
      exact (Memory.read_append _ _ _ _).symm

/-- Bytes transferred in pieces from one index on are transferred as they are at once, be they
written or read. -/
theorem transfers_in_pieces (rounds : Nat) (session : Session Chip) (w : Window) (index : UInt16)
    (moving : session.status.timing.pollInterval ≠ 0)
    (enough : session.status.timing.enoughRounds ≤ rounds)
    (clock : session.perform rounds (.setIndex w index) ≠ .error .clockOverflow) :
    (∀ chunks : List Bytes, ∃ atOnce inPieces,
      session.perform rounds (.writeAt w index chunks.flatten) = .ok atOnce ∧
      session.run rounds ((.setIndex w index :: chunks.map (.write w)).map Step.perform) =
        .ok inPieces ∧
      Piecewise session w index chunks.length atOnce.session (session.after inPieces)) ∧
    ∀ counts : List Nat, ∃ atOnce inPieces, ∃ read : List Bytes,
      session.perform rounds (.readAt w index (total counts)) = .ok atOnce ∧
      session.run rounds ((.setIndex w index :: counts.map (.read w)).map Step.perform) =
        .ok inPieces ∧
      read.map List.length = counts ∧
      inPieces.map (·.answer) = .nothing :: read.map .bytes ∧
      atOnce.answer = .bytes read.flatten ∧
      Piecewise session w index counts.length atOnce.session (session.after inPieces) := by
  refine ⟨fun chunks => ?_, fun counts => ?_⟩
  · obtain ⟨atOnce, inPieces, finished, ended, -, -, same⟩ := divides_write.runs (.write w)
      (.writeAt w index chunks.flatten) (fun _ => rfl) rfl (fun _ => rfl) rfl moving enough clock
    exact ⟨atOnce, inPieces, finished, ended, same⟩
  · obtain ⟨atOnce, inPieces, finished, ended, answer, answers, same⟩ := divides_read.runs
      (.read w) (.readAt w index (total counts)) (fun _ => rfl) rfl (fun _ => rfl) rfl moving enough
      clock
    obtain ⟨read, lengths, each, joined⟩ :=
      answersFrom_reads (w := w) counts ((Access.seek index).next (view session w))
    refine ⟨atOnce, inPieces, read, finished, ended, lengths, ?_, ?_, same⟩
    · rw [answers, each]
    · rw [answer, ← joined]
      rfl

/-- Three bytes past the end of a buffer of five, in three pieces of which one is empty. -/
theorem transfers_in_pieces_loaded :
    ((loaded.host.visible .dataTx).length < (6 : UInt16).toNat ∧
      loaded.perform 4 (.setIndex .dataTx 6) ≠ .error .clockOverflow) ∧
    (∃ atOnce inPieces, loaded.perform 4 (.writeAt .dataTx 6 [1, 2, 3]) = .ok atOnce ∧
      loaded.run 4 ([.setIndex .dataTx 6, .write .dataTx [1], .write .dataTx [],
        .write .dataTx [2, 3]].map Step.perform) = .ok inPieces ∧
      Piecewise loaded .dataTx 6 3 atOnce.session (loaded.after inPieces)) ∧
    ∃ atOnce inPieces, ∃ read : List Bytes,
      loaded.perform 4 (.readAt .dataTx 6 3) = .ok atOnce ∧
      loaded.run 4 ([.setIndex .dataTx 6, .read .dataTx 1, .read .dataTx 0,
        .read .dataTx 2].map Step.perform) = .ok inPieces ∧
      read.map List.length = [1, 0, 2] ∧ inPieces.map (·.answer) = .nothing :: read.map .bytes ∧
      atOnce.answer = .bytes read.flatten ∧
      Piecewise loaded .dataTx 6 3 atOnce.session (loaded.after inPieces) := by
  obtain ⟨sought, ended, -⟩ : ∃ taken, loaded.perform 4 (.setIndex .dataTx 6) = .ok taken ∧ True :=
    exists_ok_of_endsIn (by decide +kernel)
  have clock : loaded.perform 4 (.setIndex .dataTx 6) ≠ .error .clockOverflow := fun halted =>
    nomatch ended.symm.trans halted
  have same := transfers_in_pieces 4 loaded .dataTx 6 (by decide +kernel) (by decide +kernel) clock
  exact ⟨⟨by decide +kernel, clock⟩, same.1 [[1], [], [2, 3]], same.2 [1, 0, 2]⟩

end Pieces

end Chip

end RadioWindows
