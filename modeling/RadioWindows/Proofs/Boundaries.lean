import RadioWindows.Proofs.Bookkeeping
import RadioWindows.Proofs.Chip.Accessing
import RadioWindows.Proofs.Chip.Settling

/-! The flags of the driver against the busy bits of the chip. An index past the end sets both, a
move clears the bit and an allocation the flag as well; so no index that the chip has refused goes
without a flag, and until the window is moved both say whether the index lies past its end. -/

namespace RadioWindows

def Operation.indexOn (operation : Operation) (w : Window) : Option UInt16 :=
  operation.setting?.bind fun setting => if setting.1 = w then some setting.2 else none

theorem Operation.indexOn_eq_some {operation : Operation} {w : Window} {index : UInt16} :
    operation.indexOn w = some index ↔ operation.setting? = some (w, index) := by
  rw [indexOn]
  cases operation.setting? with
  | none => simp
  | some setting =>
    obtain ⟨v, set⟩ := setting
    simp

theorem Performed.sets_eq {σ : Type} (one : Performed σ) (w : Window) :
    one.sets w = (one.operation.indexOn w).isSome := by
  rw [sets, Operation.indexOn]
  cases one.operation.setting? with
  | none => rfl
  | some setting =>
    by_cases same : setting.1 = w <;> simp [same]

namespace Chip

/-- What comes of a window while no index is set on it: these moves are issued, one on the window
clears its busy bit, and without one it stays as it was. -/
structure Passes (w : Window) (issued : List (Window × ControlWord)) (earlier later : Chip) :
    Prop where
  moves : later.moves = earlier.moves ++ issued
  busy : (later.window w).indexBusy =
    if w ∈ issued.map (·.1) then false else (earlier.window w).indexBusy
  length : w ∉ issued.map (·.1) → (later.visible w).length = (earlier.visible w).length

section Passes

variable {w v : Window} {issued more : List (Window × ControlWord)}
  {earlier middle later chip : Chip}

theorem Passes.trans (first : Passes w issued earlier middle)
    (second : Passes w more middle later) : Passes w (issued ++ more) earlier later where
  moves := by rw [second.moves, first.moves, List.append_assoc]
  busy := by
    rw [second.busy, first.busy, List.map_append]
    by_cases later : w ∈ more.map (·.1)
    · rw [if_pos later, if_pos (List.mem_append_right _ later)]
    · by_cases before : w ∈ issued.map (·.1)
      · rw [if_neg later, if_pos before, if_pos (List.mem_append_left _ before)]
      · rw [if_neg later, if_neg before,
          if_neg fun either => (List.mem_append.mp either).elim before later]
  length apart := by
    rw [List.map_append, List.mem_append, not_or] at apart
    exact (second.length apart.2).trans (first.length apart.1)

theorem passes_of_same (moves : later.moves = earlier.moves)
    (busy : (later.window w).indexBusy = (earlier.window w).indexBusy)
    (length : (later.visible w).length = (earlier.visible w).length) :
    Passes w [] earlier later where
  moves := by rw [moves, List.append_nil]
  busy := busy
  length _ := length

theorem passes_refl (chip : Chip) (w : Window) : Passes w [] chip chip := passes_of_same rfl rfl rfl

theorem passes_of_alike (alike : later.Alike earlier) (moves : later.moves = earlier.moves) :
    Passes w [] earlier later :=
  passes_of_same moves (by rw [alike.window]) (by rw [alike.visible])

theorem passes_advance (chip : Chip) (v w : Window) (count : Nat) :
    Passes w [] chip (chip.advance v count) := by
  refine passes_of_same rfl ?_ (by rw [visible_advance])
  rw [advance]
  by_cases same : w = v
  · rw [same, window_modifyWindow_self]
  · rw [window_modifyWindow_of_ne _ _ same]

theorem passes_setIndex (chip : Chip) (index : UInt16) (other : w ≠ v) :
    Passes w [] chip (chip.setIndex v index) := by
  refine passes_of_same rfl ?_ (by rw [visible_setIndex])
  rw [setIndex, window_modifyWindow_of_ne _ _ other]

theorem passes_overwrite (chip : Chip) (v w : Window) {bytes : Bytes}
    (fits : bytes.length = (chip.visible v).length) :
    Passes w [] chip (chip.overwrite v bytes) := by
  have moves : (chip.overwrite v bytes).moves = chip.moves :=
    congrArg Circumstances.moves (circumstances_overwrite chip v bytes)
  by_cases same : w = v
  · subst same
    refine passes_of_same moves ?_ (length_visible_overwrite chip w fits)
    rw [overwrite]
    split
    · rfl
    · rw [window_mount_self]
    · rw [window_mount_self]
    · rfl
  · have window := window_overwrite_of_ne chip bytes same
    refine passes_of_same moves (by rw [window]) ?_
    exact length_visible_congr (by rw [window]) (Steady.overwrite chip v fits).scratch

theorem passes_settled {timing : Timing} {move : Move} {out : Nat × Chip}
    (carried : (chip.placed move).carryOut move.target move.word = .ok out) (w : Window) :
    Passes w [(move.target, move.word)] chip (chip.settled timing move out) := by
  have alike := chip.alike_settled timing move out
  have confined := confined_carried carried alike
  have steady := length_scratch_settled timing carried
  refine ⟨moves_settled chip timing move out, ?_, fun apart => ?_⟩
  · by_cases same : w = move.target
    · subst same
      rw [if_pos (by simp), window_settled_self]
    · rw [if_neg (by simpa using same), confined.elsewhere w same]
  · have other : w ≠ move.target := by simpa using apart
    exact length_visible_congr (by rw [confined.elsewhere w other]) steady

theorem ensures_issue_passes (timing : Timing) (rounds : Nat) (room : chip.Roomy) (move : Move) :
    (move.issue timing).Ensures (timing.Allows rounds) rounds chip fun _ after =>
      after.Roomy ∧ ∀ w, Passes w [(move.target, move.word)] chip after := by
  refine (ensures_settled timing rounds room move).mono fun _ after ended => ?_
  obtain ⟨out, carried, -, rfl, roomy⟩ := ended
  exact ⟨roomy, passes_settled carried⟩

end Passes

section Operations

variable {w : Window} {rounds : Nat} {session : Session Chip} {operation : Operation}

theorem passes_of_not_accesses (room : session.host.Roomy) (apart : w ∉ operation.accesses) :
    operation.perform.Ensures (session.status.timing.Allows rounds) rounds session fun _ after =>
      ∃ issued, Passes w issued session.host after.host := by
  let kept (chip : Chip) : Prop := ∃ issued, Passes w issued session.host chip
  have calm {chip after : Chip} (before : kept chip) (passes : Passes w [] chip after) :
      kept after := by
    obtain ⟨issued, earlier⟩ := before
    exact ⟨_, earlier.trans passes⟩
  refine perform_keeps kept room ?moves ?seeks ?advances ?overwrites ?reports ⟨[], passes_refl _ w⟩
  case moves =>
    rintro move issued chip out ⟨earlier, passed⟩ carried
    exact ⟨_, passed.trans (passes_settled carried w)⟩
  case seeks =>
    intro v accessed chip index before
    have other : w ≠ v := fun same => apart (same ▸ accessed)
    refine calm before ((passes_setIndex chip index other).trans ?_)
    exact passes_of_alike (alike_sought _ _ _ _) (moves_sought _ _ _ _)
  case advances =>
    exact fun v accessed chip count before => calm before (passes_advance chip v w count)
  case overwrites =>
    exact fun v accessed chip bytes fits before => calm before (passes_overwrite chip v w fits)
  case reports =>
    exact fun chip fault before => calm before (passes_of_alike (alike_reported chip fault) rfl)

theorem passes_checked (session : Session Chip) (v w : Window) :
    Passes w [] session.host (checked session v).host :=
  passes_of_alike (alike_checked session v) (moves_checked session v)

theorem ensures_read_passes (v w : Window) (count : Nat) :
    (Driver.read v count).Ensures (session.status.timing.Allows rounds) rounds session
      fun _ after => Passes w [] session.host after.host ∧ after.status = session.status := by
  refine (ensures_read count).mono ?_
  rintro bytes _ ⟨-, rfl⟩
  exact ⟨(passes_checked session v w).trans (passes_advance _ v w count), rfl⟩

theorem ensures_write_passes (v w : Window) (bytes : Bytes) :
    (Driver.write v bytes).Ensures (session.status.timing.Allows rounds) rounds session
      fun _ after => Passes w [] session.host after.host ∧ after.status = session.status := by
  refine (ensures_write bytes).mono ?_
  rintro _ _ rfl
  have fits : (Memory.write (session.host.visible v) (session.host.window v).cursor bytes).length =
      ((checked session v).host.visible v).length := by
    rw [Memory.length_write, (alike_checked session v).visible]
  exact ⟨((passes_checked session v w).trans (passes_overwrite _ v w fits)).trans
    (passes_advance _ v w _), rfl⟩

/-- The busy bit and the flag of a window both say whether an index lies past its end. -/
structure Heeds (w : Window) (index : UInt16) (session : Session Chip) : Prop where
  busy : (session.host.window w).indexBusy =
    decide ((session.host.visible w).length < index.toNat)
  flag : session.status.outOfBounds.contains w =
    decide ((session.host.visible w).length < index.toNat)

theorem Heeds.of_passes {index : UInt16} {after : Session Chip}
    {issued : List (Window × ControlWord)} (heeds : Heeds w index session)
    (passes : Passes w issued session.host after.host) (apart : w ∉ issued.map (·.1))
    (flag : after.status.outOfBounds.contains w = session.status.outOfBounds.contains w) :
    Heeds w index after where
  busy := by rw [passes.busy, if_neg apart, passes.length apart, heeds.busy]
  flag := by rw [flag, passes.length apart, heeds.flag]

theorem heeds_indexed (session : Session Chip) (w : Window) (index : UInt16) :
    Heeds w index (indexed session w index) where
  busy := by rw [window_indexed_self, visible_indexed]
  flag := by rw [contains_indexed, visible_indexed]

theorem ensures_setIndex_heeds {α : Type} {index : UInt16} {driver : Driver α}
    (passes : ∀ session : Session Chip, driver.Ensures (session.status.timing.Allows rounds) rounds
      session fun _ after => Passes w [] session.host after.host ∧ after.status = session.status) :
    (do Driver.setIndex w index; driver : Driver α).Ensures (session.status.timing.Allows rounds)
      rounds session fun _ after => Heeds w index after := by
  rw [Driver.ensures_bind]
  refine (ensures_setIndex index).mono ?_
  rintro _ _ rfl
  rw [← timing_indexed session w index]
  refine (passes _).mono fun _ after ended => ?_
  refine (heeds_indexed session w index).of_passes ended.1 List.not_mem_nil ?_
  rw [ended.2]

theorem perform_heeds {index : UInt16} (sets : operation.indexOn w = some index) :
    operation.perform.Ensures (session.status.timing.Allows rounds) rounds session fun _ after =>
      Heeds w index after := by
  have setting := Operation.indexOn_eq_some.mp sets
  cases operation with
  | setIndex v index' =>
    cases setting
    refine Driver.ensures_bind.mpr ((ensures_setIndex index).mono ?_)
    rintro _ _ rfl
    exact heeds_indexed session w index
  | readAt v index' count =>
    cases setting
    rw [Operation.perform, Driver.ensures_map]
    exact ensures_setIndex_heeds fun _ => ensures_read_passes w w count
  | writeAt v index' bytes =>
    cases setting
    exact Driver.ensures_bind.mpr (ensures_setIndex_heeds fun _ => ensures_write_passes w w bytes)
  | _ => exact absurd setting (by simp [Operation.setting?])

theorem perform_passes (room : session.host.Roomy) (unset : operation.indexOn w = none) :
    operation.perform.Ensures (session.status.timing.Allows rounds) rounds session fun _ after =>
      ∃ issued, Passes w issued session.host after.host := by
  by_cases accessed : w ∈ operation.accesses
  · cases operation with
    | read v count =>
      rw [Operation.perform, Driver.ensures_map]
      exact (ensures_read_passes v w count).mono fun _ _ ended => ⟨[], ended.1⟩
    | write v bytes =>
      refine Driver.ensures_bind.mpr ((ensures_write_passes v w bytes).mono ?_)
      exact fun _ _ ended => ⟨[], ended.1⟩
    | setIndex v index | readAt v index count | writeAt v index bytes =>
      obtain rfl : w = v := List.mem_singleton.mp accessed
      simp [Operation.indexOn, Operation.setting?] at unset
    | _ => exact absurd accessed List.not_mem_nil
  · exact passes_of_not_accesses room accessed

theorem ensures_allocate_moves (room : session.host.Roomy) (traffic : Traffic) (size : UInt16) :
    (Driver.allocate traffic size).Ensures (session.status.timing.Allows rounds) rounds session
      fun verdict after => verdict = .ok () →
        ∃ issued, Passes traffic.txWindow issued session.host after.host ∧
          traffic.txWindow ∈ issued.map (·.1) := by
  let move : Move := ⟨traffic.txWindow, traffic.pool, true, size⟩
  have target : move.target = traffic.txWindow := target_pool _ _ _ _
  rw [Driver.allocate]
  simp only [Driver.ensures_bind, Driver.ensures_lift, Program.read16, Program.ensures_ask,
    answer_free, endsIn_ok, Program.ensures_done, Driver.ensures_ite]
  split
  · intro granted
    cases granted
  · rw [Driver.issue, Driver.ensures_bind, Driver.ensures_get, Driver.ensures_lift]
    refine (ensures_issue_passes _ rounds room move).mono fun count moved passed => ?_
    obtain ⟨roomy, passes⟩ := passed
    split
    · simp only [Driver.ensures_lift, Program.ensures_raise, answer_report, endsIn_ok,
        Driver.ensures_discard, Driver.issue, Driver.ensures_bind, Driver.ensures_get,
        Driver.ensures_pure]
      refine (ensures_issue_passes _ rounds (roomy.of_alike (alike_reported _ _)) _).mono ?_
      intro _ _ _ granted
      cases granted
    · simp only [Driver.ensures_modify, Driver.ensures_markData, Driver.ensures_pure]
      refine fun _ => ⟨_, passes traffic.txWindow, ?_⟩
      rw [← target]
      exact List.mem_cons_self

/-- What comes of a window and of its flag, by the index that is set on it. -/
inductive Treats (w : Window) (before after : Session Chip) : Option UInt16 → Prop where
  | sets {index : UInt16} (heeds : Heeds w index after) : Treats w before after (some index)
  | passes {issued : List (Window × ControlWord)}
      (passes : Passes w issued before.host after.host)
      (flag : w ∉ issued.map (·.1) →
        after.status.outOfBounds.contains w = before.status.outOfBounds.contains w) :
      Treats w before after none

theorem perform_treats (room : session.host.Roomy) (operation : Operation) (w : Window) :
    operation.perform.Ensures (session.status.timing.Allows rounds) rounds session fun _ after =>
      Treats w session after (operation.indexOn w) := by
  cases set : operation.indexOn w with
  | some index => exact (perform_heeds set).mono fun _ _ heeds => .sets heeds
  | none =>
    -- Without an index the flag changes only by a granted allocation, whose move clears the bit.
    have grants : operation.perform.Ensures (session.status.timing.Allows rounds) rounds session
        fun answer after => Performed.allocates w ⟨session, operation, ⟨answer, [], after⟩⟩ = true →
          ∃ issued, Passes w issued session.host after.host ∧ w ∈ issued.map (·.1) := by
      cases operation with
      | allocate traffic size =>
        rw [Operation.perform, Driver.ensures_map]
        refine (ensures_allocate_moves room traffic size).mono ?_
        intro verdict after moves allocated
        obtain ⟨rfl, granted⟩ : traffic.txWindow = w ∧ Answer.ofVerdict verdict = .granted := by
          simpa [Performed.allocates] using allocated
        cases verdict with
        | ok _ => exact moves rfl
        | error refusal => cases granted
      | _ =>
        exact (perform_passes room set).mono fun _ _ _ allocated =>
          absurd allocated Bool.false_ne_true
    have unset (answer : Answer) (after : Session Chip) :
        Performed.sets w ⟨session, operation, ⟨answer, [], after⟩⟩ = false := by
      rw [Performed.sets_eq, set]
      rfl
    have leaves := operation.perform_leaves rounds session
    refine (((perform_passes room set).and grants).and_partial leaves).mono ?_
    rintro answer after ⟨⟨⟨issued, passes⟩, grant⟩, leaves⟩
    have leaves : Performed.Leaves ⟨session, operation, ⟨answer, [], after⟩⟩ := leaves
    have flag := leaves.contains_eq w (unset answer after)
    cases allocated : Performed.allocates w ⟨session, operation, ⟨answer, [], after⟩⟩ with
    | true =>
      obtain ⟨moves, moved, among⟩ := grant allocated
      exact .passes moved fun apart => absurd among apart
    | false => exact .passes passes fun _ => by simpa [allocated] using flag

end Operations

section Run

variable {w : Window} {rounds : Nat} {session : Session Chip} {steps : List (Step Change)}

def indexOn (w : Window) : Step Change → Option UInt16
  | .perform operation => operation.indexOn w
  | .adjust _ => none

theorem adjust_treats (change : Change) (session : Session Chip) (w : Window) :
    Treats w session { session with host := adjust change session.host } none := by
  have passes : Passes w [] session.host (adjust change session.host) := by
    have window : (adjust change session.host).window w = session.host.window w :=
      window_adjust change session.host w
    obtain ⟨steady, moves⟩ : (adjust change session.host).scratch = session.host.scratch ∧
        (adjust change session.host).moves = session.host.moves := by
      cases change with
      | setFree traffic free => cases traffic <;> exact ⟨rfl, rfl⟩
      | _ => exact ⟨rfl, rfl⟩
    exact passes_of_same moves (by rw [window])
      (length_visible_congr (by rw [window]) (by rw [steady]))
  exact .passes passes fun _ => rfl

theorem run_treats (room : session.host.Roomy)
    (untouched : ∀ pool free, .adjust (.setFree pool free) ∉ steps) (w : Window) :
    EndsIn (session.status.timing.Allows rounds) (session.run rounds steps) fun taken =>
      Session.Along (fun before step taken => Treats w before taken.session (indexOn w step))
        session steps taken :=
  room.run_along untouched
    (fun operation _ roomy => Session.perform_endsIn
      ((perform_treats roomy operation w).mono fun _ _ treats _ => treats))
    fun change before => adjust_treats change before w

/-- What is true of a window all the time, given the latest operation that has set its index. -/
structure Tracks (w : Window) (found : Option (Performed Chip)) (now : Session Chip) : Prop where
  flagged : (now.host.window w).indexBusy = true → now.status.outOfBounds.contains w = true
  boundary : ∀ one, found = some one → ∃ index issued,
    one.operation.setting? = some (w, index) ∧
      now.host.moves = one.taken.session.host.moves ++ issued ∧
      (w ∉ issued.map (·.1) → Heeds w index now)

theorem Tracks.of_passes {found : Option (Performed Chip)} {after : Session Chip}
    {issued : List (Window × ControlWord)} (tracks : Tracks w found session)
    (passes : Passes w issued session.host after.host)
    (flag : w ∉ issued.map (·.1) →
      after.status.outOfBounds.contains w = session.status.outOfBounds.contains w) :
    Tracks w found after where
  flagged busy := by
    rw [passes.busy] at busy
    by_cases among : w ∈ issued.map (·.1)
    · simp [among] at busy
    · rw [if_neg among] at busy
      rw [flag among]
      exact tracks.flagged busy
  boundary one latest := by
    obtain ⟨index, earlier, setting, moves, heeds⟩ := tracks.boundary one latest
    refine ⟨index, earlier ++ issued, setting, ?_, fun apart => ?_⟩
    · rw [passes.moves, moves, List.append_assoc]
    · rw [List.map_append, List.mem_append, not_or] at apart
      exact (heeds apart.1).of_passes passes apart.2 (flag apart.2)

theorem Tracks.perform {found : Option (Performed Chip)} {operation : Operation}
    {taken : Taken Chip} (tracks : Tracks w found session)
    (treats : Treats w session taken.session (operation.indexOn w)) :
    Tracks w (if Performed.sets w ⟨session, operation, taken⟩ then some ⟨session, operation, taken⟩
      else found) taken.session := by
  rw [Performed.sets_eq]
  cases set : operation.indexOn w with
  | none =>
    rw [set] at treats
    cases treats with
    | passes passes flag => exact tracks.of_passes passes flag
  | some index =>
    rw [set] at treats
    cases treats with
    | sets heeds =>
      refine ⟨fun busy => ?_, fun one latest => ?_⟩
      · rw [heeds.flag, ← heeds.busy, busy]
      · cases latest
        refine ⟨index, [], Operation.indexOn_eq_some.mp set, ?_, fun _ => heeds⟩
        rw [List.append_nil]

theorem tracks_start (timing : Timing) (w : Window) :
    Tracks w none (Session.start atReset timing) where
  flagged busy := by
    have settled : (atReset.window w).indexBusy = false := by cases w <;> rfl
    exact absurd (settled.symm.trans busy) Bool.false_ne_true
  boundary one found := by cases found

end Run

/-- No move has been issued on a window between two moments. -/
def Unmoved (w : Window) (earlier later : Chip) : Prop :=
  ∃ issued, later.moves = earlier.moves ++ issued ∧ w ∉ issued.map (·.1)

/-- At the end of a run the flag of a window misses no index that the chip has refused. While no
move has been issued on the window since its index was last set, flag and busy bit are the same and
say whether that index lies past the end of what the window shows. -/
structure FlagsTrack (session : Session Chip) (steps : List (Step Change))
    (taken : List (Taken Chip)) (w : Window) : Prop where
  flagged_of_busy : ((session.after taken).host.window w).indexBusy = true →
    (session.after taken).status.outOfBounds.contains w = true
  boundary (one : Performed Chip) (index : UInt16) :
    session.latest (·.sets w) steps taken = some one →
    one.operation.setting? = some (w, index) →
    Unmoved w one.taken.session.host (session.after taken).host →
      ((session.after taken).status.outOfBounds.contains w = true ↔
        ((session.after taken).host.window w).indexBusy = true) ∧
      (((session.after taken).host.window w).indexBusy = true ↔
        ((session.after taken).host.visible w).length < index.toNat)

/-- At every moment of every run from the reset, whatever is done to the chip in between, the flag
of each window tracks its busy bit. -/
theorem flags_track (timing : Timing) (rounds : Nat) (steps : List (Step Change))
    (moving : timing.pollInterval ≠ 0) (enough : timing.enoughRounds ≤ rounds)
    (untouched : ∀ traffic free, .adjust (.setFree traffic free) ∉ steps)
    (clock : (Session.start atReset timing).run rounds steps ≠ .error .clockOverflow) :
    ∃ taken, (Session.start atReset timing).run rounds steps = .ok taken ∧
      ∀ k w, FlagsTrack (Session.start atReset timing) (steps.take k) (taken.take k) w := by
  have room : atReset.Roomy :=
    roomy_of_le_capacity fun traffic => Nat.le_of_eq (stock_atReset traffic)
  have runs (w : Window) : EndsIn (timing.Allows rounds) _ _ :=
    run_treats (show (Session.start atReset timing).host.Roomy from room) untouched w
  obtain ⟨taken, finished, -⟩ := (runs .dataRx).exists_ok
    fun halt halted allows => by
      rw [allows.eq_clockOverflow moving enough] at halted
      exact clock halted
  refine ⟨taken, finished, fun k w => ?_⟩
  have along := ((runs w).of_ok finished).take k
  have ended : Tracks w (((Session.start atReset timing).latest (·.sets w) (steps.take k)
      (taken.take k)).or none) ((Session.start atReset timing).after (taken.take k)) :=
    along.latest_keeps ?performs ?adjusts (tracks_start timing w)
  case performs => exact fun found before operation taken treats tracks => tracks.perform treats
  case adjusts =>
    intro found before change taken treats tracks
    cases treats with
    | passes passes flag => exact tracks.of_passes passes flag
  rw [Option.or_none] at ended
  refine ⟨ended.flagged, fun one index latest setting unmoved => ?_⟩
  obtain ⟨index', issued, setting', moves, heeds⟩ := ended.boundary one latest
  cases setting.symm.trans setting'
  obtain ⟨others, moves', apart⟩ := unmoved
  obtain rfl : others = issued := List.append_cancel_left (moves'.symm.trans moves)
  have now := heeds apart
  rw [now.flag, now.busy]
  simp

/-- Indices at the end and past it, in segments and in scratch memory, with moves, a failed
allocation and a granted one in between. -/
def edgeSteps : List (Step Change) :=
  [.perform .setUp, .perform (.allocate .data 4), .perform (.setIndex .dataTx 4),
    .perform (.writeAt .dataTx 5 [1]), .adjust (.setFailing true),
    .perform (.readAt .scratch 401 2), .perform (.copy .scratch .dataTx 9),
    .perform (.setIndex .spare 1), .adjust (.setStalled true), .adjust (.setFailing false),
    .perform (.allocate .data 8), .perform (.mountScratch .spare)]

theorem flags_track_edgeSteps :
    ∃ taken, (Session.start atReset ⟨20, 20, 10⟩).run 4 edgeSteps = .ok taken ∧
      taken.map (·.session.status.outOfBounds.bits) =
        [0, 0, 0, 0b000010, 0b000010, 0b010010, 0b010010, 0b110010, 0b110010, 0b110010,
          0b110000, 0b110000] ∧
      ∀ k w, FlagsTrack (Session.start atReset ⟨20, 20, 10⟩) (edgeSteps.take k) (taken.take k)
        w := by
  obtain ⟨taken, finished, flags⟩ : ∃ taken,
      (Session.start atReset ⟨20, 20, 10⟩).run 4 edgeSteps = .ok taken ∧
        taken.map (·.session.status.outOfBounds.bits) =
          [0, 0, 0, 0b000010, 0b000010, 0b010010, 0b010010, 0b110010, 0b110010, 0b110010,
            0b110000, 0b110000] :=
    exists_ok_of_endsIn (by decide +kernel)
  obtain ⟨others, ended, tracks⟩ := flags_track ⟨20, 20, 10⟩ 4 edgeSteps (by decide) (by decide)
    (by simp [edgeSteps]) fun halted => nomatch finished.symm.trans halted
  obtain rfl : taken = others := Except.ok.inj (finished.symm.trans ended)
  exact ⟨taken, finished, flags, tracks⟩

end Chip

end RadioWindows
