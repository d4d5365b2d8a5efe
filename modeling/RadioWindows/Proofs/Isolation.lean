import RadioWindows.Proofs.Bookkeeping
import RadioWindows.Proofs.Chip.Making
import RadioWindows.Proofs.Chip.Settling
import RadioWindows.Proofs.Transmission

/-! What operations leave alone of the windows that they do not act on. Registers and flags are each
window's own; scratch memory is the one thing that windows share, and it changes only where
something is written or copied into a window that shows it. -/

namespace RadioWindows

namespace Operation

def stores : Operation → List Window
  | write w _ | writeAt w _ _ => [w]
  | copy _ dst _ | move ⟨_, .copy _ dst, _, _⟩ => [dst]
  | _ => []

theorem mem_targets_of_stores {operation : Operation} {w : Window}
    (stored : w ∈ operation.stores) : w ∈ operation.targets := by
  cases operation with
  | move issued =>
    obtain ⟨asked, pool, destination, size⟩ := issued
    cases pool with
    | copy src dst => exact stored
    | _ => cases stored
  | write v bytes | writeAt v index bytes | copy src dst size => exact stored
  | _ => cases stored

theorem mem_stores_of_copies {operation : Operation} {move : Move} {src dst : Window}
    (issued : move ∈ operation.moves) (copies : move.pool = .copy src dst) :
    move.target ∈ operation.stores := by
  cases operation with
  | copy src dst size =>
    cases List.mem_singleton.mp issued
    exact List.mem_cons_self
  | move other =>
    cases List.mem_singleton.mp issued
    obtain ⟨asked, pool, destination, size⟩ := move
    cases copies
    exact List.mem_cons_self
  | allocate traffic size =>
    obtain rfl | last := List.mem_cons.mp issued
    · cases traffic <;> cases copies
    · cases List.mem_singleton.mp last
      cases traffic <;> cases copies
  | discardTx traffic | discardRx traffic =>
    cases traffic <;> cases List.mem_singleton.mp issued <;> cases copies
  | setUp =>
    obtain rfl | last := List.mem_cons.mp issued
    · cases copies
    · cases List.mem_singleton.mp last
      cases copies
  | mountScratch w | unmountScratch w | mountRx w | send traffic size =>
    cases List.mem_singleton.mp issued
    cases copies
  | _ => cases issued

theorem copies_of_stores {operation : Operation} {move : Move} {w : Window}
    (issued : move ∈ operation.moves) (stored : w ∈ operation.stores) :
    ∃ src dst, move.pool = .copy src dst := by
  cases operation with
  | copy src dst size =>
    cases List.mem_singleton.mp issued
    exact ⟨src, dst, rfl⟩
  | move other =>
    cases List.mem_singleton.mp issued
    obtain ⟨asked, pool, destination, size⟩ := move
    cases pool with
    | copy src dst => exact ⟨src, dst, rfl⟩
    | _ => cases stored
  | write v bytes | writeAt v index bytes => cases issued
  | _ => cases stored

theorem accesses_cases (operation : Operation) :
    operation.accesses = [] ∨ ∃ w, operation.accesses = [w] := by
  cases operation <;> simp [accesses]

theorem mem_stores_of_write {operation : Operation} {w : Window} {bytes : Bytes}
    (accesses : operation.accesses = [w]) (written : .write bytes ∈ operation.parts) :
    w ∈ operation.stores := by
  cases operation with
  | write v bytes | writeAt v index bytes =>
    cases accesses
    exact List.mem_cons_self
  | _ => simp [parts] at written

theorem Flags.contains_of_apart {operation : Operation} {answer : Answer}
    {before after : WindowMask} {v : Window} (flags : operation.Flags answer before after)
    (apart : v ∉ operation.targets) : after.contains v = before.contains v := by
  cases operation with
  | allocate traffic size =>
    have other : v ≠ traffic.txWindow := fun same => apart (by simp [same])
    rw [Flags] at flags
    rw [flags]
    split
    · simp [WindowMask.contains_erase, other]
    · rfl
  | setIndex w index | readAt w index count | writeAt w index bytes =>
    have other : v ≠ w := fun same => apart (same ▸ List.mem_cons_self)
    rcases flags with rfl | rfl
    · simp [WindowMask.contains_insert, other]
    · simp [WindowMask.contains_erase, other]
  | _ => exact congrArg (WindowMask.contains · v) flags

end Operation

namespace Chip

section Scratch

variable {chip : Chip} {w : Window}

theorem scratch_overwrite {bytes : Bytes} (other : (chip.window w).mount ≠ .scratch) :
    (chip.overwrite w bytes).scratch = chip.scratch := by
  rw [overwrite]
  split
  · rfl
  · rfl
  · rfl
  · next shared => exact absurd shared other

theorem scratch_settled (timing : Timing) {move : Move} {out : Nat × Chip}
    (carried : (chip.placed move).carryOut move.target move.word = .ok out)
    (spared : ∀ src dst, move.pool = .copy src dst →
      (chip.window move.target).mount ≠ .scratch) :
    (chip.settled timing move out).scratch = chip.scratch := by
  have placed : (chip.placed move).scratch = chip.scratch := by
    rw [Chip.placed]
    split <;> rfl
  have moved : out.2.scratch = chip.scratch := by
    refine carryOut_keeps (·.scratch = chip.scratch) ?_ ?_ ?_ ?_ ?_ carried placed
    · exact fun _ _ same => same
    · exact fun _ _ _ same => same
    · exact fun _ _ same => same
    · exact fun _ _ _ same => same
    · intro src dst copies bytes _
      rw [scratch_overwrite (by rw [mount_placed]; exact spared src dst copies), placed]
  exact (chip.alike_settled timing move out).scratch.trans moved

theorem scratch_touched {session : Session Chip} {access : Access}
    (spared : ∀ bytes, access = .write bytes → (session.host.window w).mount ≠ .scratch) :
    (touched session w access).host.scratch = session.host.scratch := by
  rw [touched, (alike_lingering _ _ _).scratch, scratch_altered]
  split
  · next shared =>
    have shown : (view session w).bytes = session.host.scratch := by
      change session.host.visible w = _
      rw [visible, shared]
    cases access with
    | seek index | read count => exact shown
    | write bytes => exact absurd shared (spared bytes rfl)
  · rfl

theorem scratch_treated {session : Session Chip} {accesses : List Access}
    (spared : ∀ bytes, .write bytes ∈ accesses → (session.host.window w).mount ≠ .scratch) :
    (treated session w accesses).host.scratch = session.host.scratch := by
  induction accesses generalizing session with
  | nil => rfl
  | cons access rest ih =>
    have first : (touched session w access).host.scratch = session.host.scratch :=
      scratch_touched fun bytes same => spared bytes (same ▸ List.mem_cons_self)
    refine (ih fun bytes later => ?_).trans first
    rw [mount_touched, if_pos rfl, ne_eq, Mount.holding_eq_scratch]
    exact spared bytes (List.mem_cons_of_mem _ later)

end Scratch

variable {operation : Operation} {rounds : Nat} {session : Session Chip}

theorem perform_scratch (room : session.host.Roomy)
    (spared : ∀ w ∈ operation.stores, (session.host.window w).mount ≠ .scratch) :
    EndsIn (session.status.timing.Allows rounds) (session.perform rounds operation) fun taken =>
      taken.session.host.scratch = session.host.scratch := by
  obtain none | ⟨w, accesses⟩ := operation.accesses_cases
  · have absent {w : Window} (accessed : w ∈ operation.accesses) : False := by
      simp [none] at accessed
    let kept (chip : Chip) : Prop := chip.scratch = session.host.scratch ∧
      ∀ w ∈ operation.stores, (chip.window w).mount.kind ≠ .scratch
    have keeps : operation.perform.Ensures (session.status.timing.Allows rounds) rounds session
        fun _ after => kept after.host :=
      perform_keeps kept room ?moves (fun w accessed => (absent accessed).elim)
        (fun w accessed => (absent accessed).elim) (fun w accessed => (absent accessed).elim)
        (fun chip fault kept => kept)
        ⟨rfl, fun w stored => mt Mount.kind_eq_scratch.mp (spared w stored)⟩
    case moves =>
      intro move issued chip out kept carried
      refine ⟨(scratch_settled _ carried fun src dst copies => ?_).trans kept.1,
        fun w stored => ?_⟩
      · exact mt Mount.kind_eq_scratch.mpr
          (kept.2 _ (Operation.mem_stores_of_copies issued copies))
      · obtain ⟨src, dst, copies⟩ := Operation.copies_of_stores issued stored
        rw [kind_carried copies carried (chip.alike_settled _ move out)]
        exact kept.2 w stored
    exact Session.perform_endsIn (keeps.mono fun _ _ kept _ => kept.1)
  · have accessed : EndsIn (Overruns session rounds _) _ (Accessed session w operation) :=
      perform_access session accesses
    refine EndsIn.mono (accessed.allow fun halt overruns => overruns.1) fun taken accessed => ?_
    rw [accessed.ended]
    exact scratch_treated fun bytes written =>
      spared w (Operation.mem_stores_of_write accesses written)

/-- What an operation leaves alone. A window that it does not act on keeps what it is tied to, its
cursor, its busy bit, its count and its flag; and what such a window shows changes only if it shows
scratch memory and the operation stores something by way of another window that does. -/
structure Isolated (operation : Operation) (before after : Session Chip) : Prop where
  window : ∀ v, v ∉ operation.targets → after.host.window v = before.host.window v
  flag : ∀ v, v ∉ operation.targets →
    after.status.outOfBounds.contains v = before.status.outOfBounds.contains v
  visible : ∀ v, v ∉ operation.targets → after.host.visible v ≠ before.host.visible v →
    (before.host.window v).mount = .scratch ∧
      ∃ w ∈ operation.targets, w ∈ operation.stores ∧ (before.host.window w).mount = .scratch

theorem perform_isolated (rounds : Nat) (operation : Operation) {session : Session Chip}
    (room : session.host.Roomy) :
    EndsIn (session.status.timing.Allows rounds) (session.perform rounds operation) fun taken =>
      Isolated operation session taken.session := by
  have leaves : EndsIn (fun _ => True) (session.perform rounds operation) fun taken =>
      operation.Leaves taken.answer session.status taken.session.status :=
    Session.perform_endsIn ((operation.perform_leaves rounds session).mono fun _ _ left _ => left)
  have scratch : EndsIn (fun _ => True) (session.perform rounds operation) fun taken =>
      (∀ w ∈ operation.stores, (session.host.window w).mount ≠ .scratch) →
        taken.session.host.scratch = session.host.scratch :=
    endsIn_true_iff.mpr fun taken finished spared => (perform_scratch room spared).of_ok finished
  have framed := perform_frame operation rounds room
  refine EndsIn.mono ((framed.and_partial leaves).and_partial scratch)
    fun taken ⟨⟨⟨_, framed⟩, left⟩, stored⟩ => ?_
  refine ⟨framed.window, fun v apart => left.flags.contains_of_apart apart,
    fun v apart changed => ⟨?_, ?_⟩⟩
  · cases mounted : (session.host.window v).mount with
    | scratch => rfl
    | nothing | segment _ _ | frame _ =>
      refine absurd ?_ changed
      rw [visible, visible, framed.window v apart, mounted]
  · refine Classical.byContradiction fun none => ?_
    have same : taken.session.host.scratch = session.host.scratch :=
      stored fun w member shown =>
        none ⟨w, Operation.mem_targets_of_stores member, member, shown⟩
    exact changed (by rw [visible, visible, framed.window v apart, same])

/-- Whatever an operation comes to, it leaves alone the windows that it does not act on; and nothing
halts it but the end of the clock or a lack of rounds. -/
theorem windows_isolated (rounds : Nat) (operation : Operation) {session : Session Chip}
    (reachable : Reachable session) :
    (∀ halt, session.perform rounds operation = .error halt →
      session.status.timing.Allows rounds halt) ∧
    ∀ taken, session.perform rounds operation = .ok taken →
      Isolated operation session taken.session := by
  have ends := perform_isolated rounds operation reachable.roomy
  exact ⟨fun halt halted => ends.of_error halted, fun taken finished => ends.of_ok finished⟩

def doubled : Session Chip :=
  match readied.perform 4 (.mountScratch .spare) with
  | .ok taken => taken.session
  | .error _ => readied

theorem reachable_doubled : Reachable doubled := by
  rw [doubled]
  split
  · next taken finished => exact reachable_readied.perform finished
  · exact reachable_readied

/-- A write into scratch memory is seen through the other window that shows it. -/
theorem windows_isolated_doubled :
    ∃ taken, doubled.perform 4 (.writeAt .scratch 1 [7, 8]) = .ok taken ∧
      (taken.session.host.visible .spare).take 4 = [0, 7, 8, 0] ∧
      (doubled.host.visible .spare).take 4 = [0, 0, 0, 0] ∧
      Isolated (.writeAt .scratch 1 [7, 8]) doubled taken.session := by
  obtain ⟨taken, finished, seen⟩ : ∃ taken,
      doubled.perform 4 (.writeAt .scratch 1 [7, 8]) = .ok taken ∧
        (taken.session.host.visible .spare).take 4 = [0, 7, 8, 0] :=
    exists_ok_of_endsIn (by decide +kernel)
  have isolated := (windows_isolated 4 (.writeAt .scratch 1 [7, 8]) reachable_doubled).2
  exact ⟨taken, finished, seen, by decide +kernel, isolated taken finished⟩

end Chip

end RadioWindows
