import RadioWindows.Proofs.Chip.Issuing
import RadioWindows.Proofs.Conservation

/-! What the firmware does with the word of a move. It changes the window the word is written to
and the pools, and leaves the other windows and what they have sent alone. Copies and transfers
change bytes; only the other moves change what a window is tied to. -/

namespace RadioWindows

inductive MountKind where
  | nothing
  | segment (traffic : Traffic)
  | frame
  | scratch
deriving DecidableEq, Repr

def Mount.kind : Mount → MountKind
  | .nothing => .nothing
  | .segment traffic _ => .segment traffic
  | .frame _ => .frame
  | .scratch => .scratch

theorem Mount.kind_eq_scratch {mount : Mount} : mount.kind = .scratch ↔ mount = .scratch := by
  cases mount <;> simp [kind]

/-- Whether a move releases whatever its window is tied to. -/
def Move.releases (move : Move) : Bool :=
  !move.destination && match move.pool with
    | .macFrame | .mgmtPool | .dataPool => true
    | _ => false

def Move.receives (move : Move) : Bool := move.destination && move.pool = .macFrame

namespace Chip

def sentBy (chip : Chip) (w : Window) : List Bytes :=
  chip.sent.filterMap fun entry => if entry.1 = w then some entry.2 else none

section Overwrite

variable (chip : Chip) {v w : Window} (bytes : Bytes)

theorem kind_overwrite (chip : Chip) (v w : Window) (bytes : Bytes) :
    ((chip.overwrite w bytes).window v).mount.kind = (chip.window v).mount.kind := by
  rw [overwrite]
  by_cases same : v = w
  · subst same
    split
    · rfl
    · next mounted => rw [window_mount_self, mounted, Mount.kind, Mount.kind]
    · next mounted => rw [window_mount_self, mounted, Mount.kind, Mount.kind]
    · rfl
  · split
    · rfl
    · rw [window_mount_of_ne _ _ same]
    · rw [window_mount_of_ne _ _ same]
    · rfl

theorem window_overwrite_of_ne (other : v ≠ w) :
    (chip.overwrite w bytes).window v = chip.window v := by
  rw [overwrite]
  split
  · rfl
  · rw [window_mount_of_ne _ _ other]
  · rw [window_mount_of_ne _ _ other]
  · rfl

theorem sent_overwrite (chip : Chip) (w : Window) (bytes : Bytes) :
    (chip.overwrite w bytes).sent = chip.sent := by
  rw [overwrite]
  split <;> rfl

end Overwrite

section Release

variable {chip after : Chip} {w : Window}

theorem release_eq (released : chip.release w = .ok after) :
    after = { chip.mount w .nothing with mgmtFree := after.mgmtFree, dataFree := after.dataFree } ∧
      ∀ traffic, (after.free traffic).toNat =
        (chip.free traffic).toNat + (chip.window w).mount.share traffic := by
  rw [release] at released
  cases mounted : (chip.window w).mount with
  | segment owner bytes =>
    simp only [mounted] at released
    by_cases fits : (chip.free owner).toNat + bytes.length < UInt16.size
    · rw [if_pos fits] at released
      cases released
      refine ⟨by cases owner <;> rfl, fun traffic => ?_⟩
      rw [free_setFree]
      by_cases same : traffic = owner
      · subst same
        rw [if_pos rfl, UInt16.toNat_ofNat_of_lt' fits, Mount.share_segment, if_pos rfl]
      · rw [if_neg same, free_mount, Mount.share_segment, if_neg (Ne.symm same), Nat.add_zero]
    · rw [if_neg fits] at released
      cases released
  | nothing | frame _ | scratch =>
    simp only [mounted] at released
    cases released
    exact ⟨rfl, fun traffic => rfl⟩

theorem window_release (released : chip.release w = .ok after) (v : Window) :
    after.window v = (chip.mount w .nothing).window v := by
  rw [(release_eq released).1]
  rfl

theorem sent_release (released : chip.release w = .ok after) : after.sent = chip.sent := by
  rw [(release_eq released).1]
  rfl

end Release

section Words

variable (chip : Chip) (w : Window) (size : UInt16)

theorem carryOut_forMove (pool : Pool) (destination : Bool) :
    chip.carryOut w (.forMove pool destination size) =
      match pool, destination with
      | .macFrame, true => .ok (chip.mountFrame w)
      | .macFrame, false => (0, ·) <$> chip.sendFrame w (size.toNat % 4096)
      | .mgmtPool, true => .ok (chip.allocate w .management (size &&& ControlWord.sizeMask))
      | .dataPool, true => .ok (chip.allocate w .data (size &&& ControlWord.sizeMask))
      | .mgmtPool, false => (0, ·) <$> chip.release w
      | .dataPool, false => (0, ·) <$> chip.release w
      | .scratchPool, true => .ok (chip.scratch.length, chip.mount w .scratch)
      | .scratchPool, false =>
        .ok (0, if (chip.window w).mount = .scratch then chip.mount w .nothing else chip)
      | .copy _ _, _ => chip.copyInto w (size.toNat % 4096)
      | .stackMem, _ => .ok (0, chip) := by
  rw [carryOut, ControlWord.selector_forMove, Selector.ofBits_bits_selector,
    ControlWord.destination_forMove, ControlWord.size_forMove, ControlWord.toNat_and_sizeMask]
  cases pool <;> cases destination <;> rfl

theorem operands_source (src dst : Window) :
    Window.ofId? ((Move.operands src dst >>> 4) &&& 0xf).toUInt8 = some src := by
  have nibble : ((Move.operands src dst >>> 4) &&& 0xf).toUInt8 = src.id := by
    cases src <;> cases dst <;> rfl
  rw [nibble, Window.ofId?_id]

theorem operands_destination (src dst : Window) :
    (Move.operands src dst &&& 0xf).toUInt8 = dst.id := by
  cases src <;> cases dst <;> rfl

/-- The bytes that a copy of so many takes: no more than the one window shows and the other has room
for. -/
def copied (chip : Chip) (src dst : Window) (size : Nat) : Bytes :=
  ((chip.visible src).take size).take (chip.visible dst).length

def copiedOver (chip : Chip) (src dst : Window) (size : Nat) : Bytes :=
  chip.copied src dst size ++ (chip.visible dst).drop (chip.copied src dst size).length

theorem copyInto_operands {chip : Chip} {src dst : Window} (size : Nat)
    (placed : (chip.window dst).count = Move.operands src dst) :
    chip.copyInto dst size = .ok ((chip.copied src dst size).length,
      chip.overwrite dst (chip.copiedOver src dst size)) := by
  rw [copyInto]
  dsimp only
  rw [placed, operands_source, operands_destination]
  exact if_pos rfl

end Words

/-- What a move may do to a chip: tie its window to something, change the free counts, send from the
window, take a received frame and store in what the window shows. What each of these keeps, carrying
out the word of the move keeps. -/
theorem carryOut_keeps (kept : Chip → Prop) {chip : Chip} {w : Window} {move : Move}
    {out : Nat × Chip} (mounts : ∀ chip mount, kept chip → kept (chip.mount w mount))
    (frees : ∀ chip mgmtFree dataFree, kept chip → kept { chip with mgmtFree, dataFree })
    (sends : ∀ chip bytes, kept chip → kept { chip with sent := chip.sent ++ [(w, bytes)] })
    (receives : move.receives = true → ∀ chip received, kept chip → kept { chip with received })
    (stores : ∀ src dst, move.pool = .copy src dst → ∀ bytes,
      bytes.length = (chip.visible w).length → kept (chip.overwrite w bytes))
    (carried : chip.carryOut w move.word = .ok out) (before : kept chip) : kept out.2 := by
  have released {start : Chip} (now : kept start) (ends : (0, ·) <$> start.release w = .ok out) :
      kept out.2 := by
    cases result : start.release w with
    | error halt =>
      rw [result] at ends
      cases ends
    | ok after =>
      rw [result] at ends
      cases ends
      rw [(release_eq result).1]
      exact frees _ _ _ (mounts _ _ now)
  have allocated (traffic : Traffic) (size : UInt16) : kept (chip.allocate w traffic size).2 := by
    rw [allocate]
    split
    · cases traffic <;> exact frees _ _ _ (mounts _ _ before)
    · exact before
  obtain ⟨asked, pool, destination, size⟩ := move
  rw [Move.word, carryOut_forMove] at carried
  cases pool with
  | macFrame =>
    cases destination with
    | true =>
      cases carried
      exact receives rfl _ _ (mounts _ _ before)
    | false => exact released (sends _ _ before) carried
  | mgmtPool | dataPool =>
    cases destination with
    | true =>
      cases carried
      exact allocated _ _
    | false => exact released before carried
  | scratchPool =>
    cases destination with
    | true =>
      cases carried
      exact mounts _ _ before
    | false =>
      cases carried
      dsimp only
      split
      · exact mounts _ _ before
      · exact before
  | copy src dst =>
    have copied : chip.copyInto w (size.toNat % 4096) = .ok out := by
      cases destination <;> exact carried
    rw [copyInto] at copied
    dsimp only at copied
    split at copied
    · split at copied
      · cases copied
        refine stores src dst rfl _ ?_
        simp only [List.length_append, List.length_take, List.length_drop]
        omega
      · cases copied
    · cases copied
  | stackMem =>
    cases destination <;> cases carried <;> exact before

/-- Chips that differ at most in one window, in what it has sent and in what windows share. -/
structure Confined (chip after : Chip) (w : Window) : Prop where
  elsewhere : ∀ v, v ≠ w → after.window v = chip.window v
  unsent : ∀ v, v ≠ w → after.sentBy v = chip.sentBy v

namespace Confined

variable {chip middle after : Chip} {w : Window}

theorem refl (chip : Chip) (w : Window) : chip.Confined chip w := ⟨fun _ _ => rfl, fun _ _ => rfl⟩

theorem trans (first : chip.Confined middle w) (second : middle.Confined after w) :
    chip.Confined after w where
  elsewhere v other := (second.elsewhere v other).trans (first.elsewhere v other)
  unsent v other := (second.unsent v other).trans (first.unsent v other)

theorem of_alike (alike : after.Alike chip) (w : Window) : chip.Confined after w where
  elsewhere v _ := alike.window v
  unsent v _ := by rw [sentBy, alike.sent, sentBy]

theorem modifyWindow (chip : Chip) (w : Window) (change : ChipWindow → ChipWindow) :
    chip.Confined (chip.modifyWindow w change) w where
  elsewhere _ other := window_modifyWindow_of_ne _ _ other
  unsent _ _ := rfl

theorem mount (chip : Chip) (w : Window) (mount : Mount) : chip.Confined (chip.mount w mount) w :=
  modifyWindow chip w _

theorem overwrite (chip : Chip) (w : Window) (bytes : Bytes) :
    chip.Confined (chip.overwrite w bytes) w where
  elsewhere _ other := window_overwrite_of_ne _ _ other
  unsent v _ := by rw [sentBy, sent_overwrite, sentBy]

theorem placed {move : Move} (chip : Chip) : chip.Confined (chip.placed move) move.target := by
  rw [Chip.placed]
  split
  · exact modifyWindow chip _ _
  · exact refl chip _

theorem carryOut {move : Move} {out : Nat × Chip}
    (carried : chip.carryOut w move.word = .ok out) : chip.Confined out.2 w := by
  have same {before after : Chip} (confined : chip.Confined before w)
      (windows : after.windows = before.windows)
      (unsent : ∀ v, v ≠ w → after.sentBy v = before.sentBy v) : chip.Confined after w :=
    confined.trans ⟨fun v _ => by rw [window, windows, window], unsent⟩
  refine carryOut_keeps (chip.Confined · w) ?_ ?_ ?_ ?_ ?_ carried (refl chip w)
  · exact fun _ _ confined => confined.trans (mount _ w _)
  · exact fun _ _ _ confined => same confined rfl fun _ _ => rfl
  · exact fun _ _ confined => same confined rfl fun v other => by simp [sentBy, Ne.symm other]
  · exact fun _ _ _ confined => same confined rfl fun _ _ => rfl
  · exact fun _ _ _ _ _ => overwrite chip w _

end Confined

theorem stock_alike {chip other : Chip} (alike : chip.Alike other) (traffic : Traffic) :
    chip.stock traffic = other.stock traffic := stock_congr alike.windows alike.free traffic

theorem Roomy.of_alike {chip other : Chip} (room : other.Roomy) (alike : chip.Alike other) :
    chip.Roomy := by
  intro traffic
  rw [stock_alike alike]
  exact room traffic

theorem stock_placed (chip : Chip) (move : Move) (traffic : Traffic) :
    (chip.placed move).stock traffic = chip.stock traffic := by
  rw [placed]
  split
  · exact stock_modifyWindow chip _ _ rfl traffic
  · rfl

theorem mount_placed (chip : Chip) (move : Move) (v : Window) :
    ((chip.placed move).window v).mount = (chip.window v).mount := by
  rw [placed]
  split
  · by_cases same : v = move.target
    · rw [same, window_modifyWindow_self]
    · rw [window_modifyWindow_of_ne _ _ same]
  · rfl

theorem mount_restart (chip : Chip) (w v : Window) (count : Nat) :
    ((chip.restart w count).window v).mount = (chip.window v).mount := by
  rw [restart]
  by_cases same : v = w
  · rw [same, window_modifyWindow_self]
  · rw [window_modifyWindow_of_ne _ _ same]

section Issue

variable (timing : Timing) (rounds : Nat) {chip : Chip} {move : Move}

theorem carryOut_copying (chip : Chip) (w src dst : Window) (destination : Bool) (size : UInt16) :
    (chip.placed ⟨w, .copy src dst, destination, size⟩).carryOut dst
      (Move.word ⟨w, .copy src dst, destination, size⟩) =
        let chip := chip.placed ⟨w, .copy src dst, destination, size⟩
        .ok ((chip.copied src dst (size.toNat % 4096)).length,
          chip.overwrite dst (chip.copiedOver src dst (size.toNat % 4096))) := by
  have operands : ((chip.placed ⟨w, .copy src dst, destination, size⟩).window dst).count =
      Move.operands src dst :=
    congrArg ChipWindow.count (window_modifyWindow_self chip dst _)
  rw [Move.word, carryOut_forMove]
  exact copyInto_operands _ operands

theorem carryOut_copy (chip : Chip) {src dst : Window} (copies : move.pool = .copy src dst) :
    ∃ count bytes, (chip.placed move).carryOut move.target move.word =
      .ok (count, (chip.placed move).overwrite move.target bytes) := by
  obtain ⟨w, pool, destination, size⟩ := move
  cases copies
  exact ⟨_, _, carryOut_copying chip w src dst destination size⟩

/-- The pool whose free count has no room for what a window holds of it, if there is one. -/
def overfull? (chip : Chip) (w : Window) : Option Traffic :=
  match (chip.window w).mount with
  | .segment traffic bytes =>
    if (chip.free traffic).toNat + bytes.length < UInt16.size then none else some traffic
  | _ => none

/-- The pool to which a move gives back more than its free count has room for, if there is one. -/
def spills? (chip : Chip) (move : Move) : Option Traffic :=
  if move.releases then chip.overfull? move.target else none

theorem release_overfull (chip : Chip) (w : Window) :
    EndsIn (fun halt => ∃ traffic, chip.overfull? w = some traffic ∧
        halt = .freeCountOverflow traffic) (chip.release w)
      fun _ => chip.overfull? w = none := by
  rw [release, overfull?]
  cases (chip.window w).mount with
  | segment traffic bytes =>
    dsimp only
    split
    · rfl
    · exact ⟨traffic, rfl, rfl⟩
  | nothing | frame _ | scratch => rfl

theorem carryOut_spills (chip : Chip) (move : Move) :
    EndsIn (fun halt => ∃ traffic, chip.spills? move = some traffic ∧
        halt = .freeCountOverflow traffic)
      ((chip.placed move).carryOut move.target move.word) fun _ => chip.spills? move = none := by
  obtain ⟨w, pool, destination, size⟩ := move
  cases pool with
  | copy src dst =>
    have copies : (Move.mk w (.copy src dst) destination size).pool = .copy src dst := rfl
    obtain ⟨count, bytes, copied⟩ := carryOut_copy chip copies
    rw [copied]
    cases destination <;> rfl
  | macFrame =>
    rw [Move.word, carryOut_forMove]
    cases destination with
    | true => rfl
    | false =>
      rw [endsIn_map]
      exact release_overfull { chip with sent := _ } w
  | mgmtPool | dataPool =>
    rw [Move.word, carryOut_forMove]
    cases destination with
    | true => rfl
    | false =>
      rw [endsIn_map]
      exact release_overfull chip w
  | scratchPool | stackMem =>
    rw [Move.word, carryOut_forMove]
    cases destination <;> rfl

theorem carryOut_roomy (room : chip.Roomy) (move : Move) :
    ∃ out, (chip.placed move).carryOut move.target move.word = .ok out ∧ out.2.Roomy := by
  have placedRoom : (chip.placed move).Roomy := fun traffic => by
    rw [stock_placed]
    exact room traffic
  have ends := stock_carryOut (fun _ => False) placedRoom move.target move.word
    fun selected => ?copies
  case copies =>
    obtain ⟨src, dst, copies⟩ : ∃ src dst, move.pool = .copy src dst := by
      rw [Move.word, ControlWord.selector_forMove, Selector.ofBits_bits_selector] at selected
      cases named : move.pool with
      | copy src dst => exact ⟨src, dst, rfl⟩
      | _ =>
        rw [named] at selected
        cases selected
    obtain ⟨count, bytes, copied⟩ := carryOut_copy chip copies
    rw [carryOut, selected] at copied
    dsimp only at copied
    rw [copied]
    trivial
  obtain ⟨out, carried, stocks⟩ := exists_ok_of_endsIn ends
  exact ⟨out, carried, fun traffic => Nat.lt_of_le_of_lt (stocks traffic).1 (placedRoom traffic)⟩

theorem confined_carried {out : Nat × Chip} {last : Chip}
    (carried : (chip.placed move).carryOut move.target move.word = .ok out)
    (ended : last.Alike (out.2.restart move.target out.1)) : chip.Confined last move.target := by
  have restarted : out.2.Confined (out.2.restart move.target out.1) move.target :=
    .modifyWindow _ _ _
  exact ((Confined.placed chip).trans (.carryOut carried)).trans
    (restarted.trans (.of_alike ended move.target))

theorem kind_carried {src dst : Window} (copies : move.pool = .copy src dst) {out : Nat × Chip}
    {last : Chip} (carried : (chip.placed move).carryOut move.target move.word = .ok out)
    (ended : last.Alike (out.2.restart move.target out.1)) (v : Window) :
    (last.window v).mount.kind = (chip.window v).mount.kind := by
  obtain ⟨count, bytes, copied⟩ := carryOut_copy chip copies
  rw [carried] at copied
  cases copied
  rw [ended.window, mount_restart, kind_overwrite, mount_placed]

theorem ensures_issue_confined (move : Move) (room : chip.Roomy) :
    (move.issue timing).Ensures (timing.Allows rounds) rounds chip fun _ after =>
      after.Roomy ∧ chip.Confined after move.target ∧
        ∀ src dst, move.pool = .copy src dst →
          ∀ v, (after.window v).mount.kind = (chip.window v).mount.kind := by
  obtain ⟨out, carried, roomy⟩ := carryOut_roomy room move
  refine ensures_carried ?_
  rw [carried]
  intro last ended
  refine ⟨fun traffic => ?_, confined_carried carried ended,
    fun src dst copies => kind_carried copies carried ended⟩
  rw [stock_alike ended, restart, stock_modifyWindow _ _ _ rfl]
  exact roomy traffic

theorem target_pool (w : Window) (traffic : Traffic) (destination : Bool) (size : UInt16) :
    Move.target ⟨w, traffic.pool, destination, size⟩ = w := by cases traffic <;> rfl

theorem carryOut_releasing (chip : Chip) (w : Window) (traffic : Traffic) (size : UInt16) :
    (chip.placed ⟨w, traffic.pool, false, size⟩).carryOut
      (Move.target ⟨w, traffic.pool, false, size⟩) (Move.word ⟨w, traffic.pool, false, size⟩) =
        (0, ·) <$> chip.release w := by
  rw [Move.word, carryOut_forMove]
  cases traffic <;> rfl

theorem carryOut_mounting (chip : Chip) (w : Window) (traffic : Traffic) (size : UInt16) :
    (chip.placed ⟨w, traffic.pool, true, size⟩).carryOut
      (Move.target ⟨w, traffic.pool, true, size⟩) (Move.word ⟨w, traffic.pool, true, size⟩) =
        .ok (chip.allocate w traffic (size &&& ControlWord.sizeMask)) := by
  rw [Move.word, carryOut_forMove]
  cases traffic <;> rfl

theorem ensures_release (w : Window) (owner : Traffic) (size : UInt16) (room : chip.Roomy) :
    (Move.issue timing ⟨w, owner.pool, false, size⟩).Ensures (timing.Allows rounds) rounds chip
      fun _ after => (after.window w).mount = .nothing := by
  refine ensures_carried ?_
  rw [carryOut_releasing, target_pool, endsIn_map]
  have ends := stock_release (timing.Allows rounds) room w
  cases released : chip.release w with
  | error halt => exact ends.of_error released
  | ok after =>
    intro last ended
    rw [ended.window, mount_restart, window_release released, window_mount_self]

theorem ensures_send (w : Window) (size : UInt16) (room : chip.Roomy) :
    (Move.issue timing ⟨w, .macFrame, false, size⟩).Ensures (timing.Allows rounds) rounds chip
      fun _ after => (after.window w).mount = .nothing ∧
        after.sentBy w = chip.sentBy w ++ [(chip.visible w).take (size.toNat % 4096)] ∧
        ∀ traffic, (after.free traffic).toNat =
          (chip.free traffic).toNat + (chip.window w).mount.share traffic := by
  refine ensures_carried ?_
  have carries : (chip.placed ⟨w, .macFrame, false, size⟩).carryOut w
      (Move.word ⟨w, .macFrame, false, size⟩) =
        (0, ·) <$> chip.sendFrame w (size.toNat % 4096) :=
    carryOut_forMove chip w size .macFrame false
  change EndsIn _ ((chip.placed ⟨w, .macFrame, false, size⟩).carryOut w
    (Move.word ⟨w, .macFrame, false, size⟩)) _
  rw [carries, endsIn_map]
  have recorded : Roomy { chip with
      sent := chip.sent ++ [(w, (chip.visible w).take (size.toNat % 4096))] } := room
  have ends := stock_release (timing.Allows rounds) recorded w
  cases sent : chip.sendFrame w (size.toNat % 4096) with
  | error halt => exact ends.of_error sent
  | ok after =>
    intro last ended
    have final : ((after.restart w 0).sentBy w) = chip.sentBy w ++
        [(chip.visible w).take (size.toNat % 4096)] := by
      change List.filterMap _ after.sent = _
      rw [sent_release sent]
      simp [sentBy]
    refine ⟨?_, ?_, fun traffic => ?_⟩
    · rw [ended.window, mount_restart, window_release sent, window_mount_self]
    · rw [sentBy, ended.sent]
      exact final
    · rw [ended.free, restart, free_modifyWindow]
      exact (release_eq sent).2 traffic

theorem ensures_grant (chip : Chip) (w : Window) (traffic : Traffic) (size : UInt16) :
    (Move.issue timing ⟨w, traffic.pool, true, size⟩).Ensures (timing.Allows rounds) rounds chip
      fun count after =>
        if size &&& ControlWord.sizeMask ≤ chip.free traffic ∧ ¬chip.failing then
          count = size &&& ControlWord.sizeMask ∧
          (after.window w).mount =
            .segment traffic (List.replicate (size &&& ControlWord.sizeMask).toNat 0) ∧
          after.free traffic = chip.free traffic - (size &&& ControlWord.sizeMask) ∧
          after.sent = chip.sent
        else count = 0 ∧ (after.window w).mount = (chip.window w).mount := by
  refine ensures_carried ?_
  rw [carryOut_mounting, target_pool, endsIn_ok, allocate]
  intro last ended
  by_cases fits : size &&& ControlWord.sizeMask ≤ chip.free traffic ∧ ¬chip.failing
  · simp only [if_pos fits] at ended ⊢
    refine ⟨UInt16.ofNat_toNat, ?_, ?_, ?_⟩
    · rw [ended.window, mount_restart, window_setFree, window_mount_self]
    · rw [ended.free, restart, free_modifyWindow, free_setFree, if_pos rfl]
    · rw [ended.sent]
      cases traffic <;> rfl
  · simp only [if_neg fits] at ended ⊢
    exact ⟨rfl, by rw [ended.window, mount_restart]⟩

theorem ensures_mountFrame (w : Window) (size : UInt16) :
    (Move.issue timing ⟨w, .macFrame, true, size⟩).Ensures (timing.Allows rounds) rounds chip
      fun _ after => (after.window w).mount.kind = .frame := by
  refine ensures_carried ?_
  have carries : (chip.placed ⟨w, .macFrame, true, size⟩).carryOut w
      (Move.word ⟨w, .macFrame, true, size⟩) = .ok (chip.mountFrame w) :=
    carryOut_forMove chip w size .macFrame true
  change EndsIn _ ((chip.placed ⟨w, .macFrame, true, size⟩).carryOut w
    (Move.word ⟨w, .macFrame, true, size⟩)) _
  rw [carries]
  intro last ended
  have mounted : ((chip.mountFrame w).2.window w).mount = .frame (chip.received.headD []) :=
    congrArg ChipWindow.mount (window_mount_self chip w _)
  rw [ended.window]
  change (((chip.mountFrame w).2.restart w _).window w).mount.kind = _
  rw [mount_restart, mounted]
  rfl

theorem ensures_unmountScratch (w : Window) (size : UInt16)
    (mounted : (chip.window w).mount = .scratch) :
    (Move.issue timing ⟨w, .scratchPool, false, size⟩).Ensures (timing.Allows rounds) rounds chip
      fun _ after => (after.window w).mount = .nothing := by
  refine ensures_carried ?_
  have carries : (chip.placed ⟨w, .scratchPool, false, size⟩).carryOut w
      (Move.word ⟨w, .scratchPool, false, size⟩) = .ok (0, chip.mount w .nothing) := by
    refine (carryOut_forMove chip w size .scratchPool false).trans ?_
    dsimp only
    rw [if_pos mounted]
  change EndsIn _ ((chip.placed ⟨w, .scratchPool, false, size⟩).carryOut w
    (Move.word ⟨w, .scratchPool, false, size⟩)) _
  rw [carries]
  intro last ended
  rw [ended.window]
  change (((chip.mount w .nothing).restart w 0).window w).mount = _
  rw [mount_restart, window_mount_self]

end Issue

end Chip

end RadioWindows
