/-! What a sequence of settings comes to. A setting gives one slot a value and leaves the others as
they are; so in the end each slot has the value that was set last for it, and settings of different
slots can change places. -/

namespace RadioWindows

variable {σ κ ν : Type} [DecidableEq κ]

/-- The value that was set last for a slot; none, if none was set for it. -/
def lastSet? (settings : List (κ × ν)) (slot : κ) : Option ν :=
  (settings.reverse.find? (·.1 = slot)).map (·.2)

theorem lastSet?_cons (setting : κ × ν) (rest : List (κ × ν)) (slot : κ) :
    lastSet? (setting :: rest) slot =
      (lastSet? rest slot).or (if setting.1 = slot then some setting.2 else none) := by
  rw [lastSet?, List.reverse_cons, List.find?_append, Option.map_or, List.find?_singleton, lastSet?]
  simp only [decide_eq_true_eq]
  split <;> rfl

theorem lastSet?_filter (settings : List (κ × ν)) (slot : κ) :
    lastSet? (settings.filter (·.1 = slot)) slot = lastSet? settings slot := by
  induction settings with
  | nil => rfl
  | cons setting rest ih =>
    rw [lastSet?_cons, List.filter_cons]
    by_cases same : setting.1 = slot
    · rw [if_pos (decide_eq_true same), lastSet?_cons, ih]
    · rw [if_neg (by simpa using same), ih, if_neg same, Option.or_none]

theorem lastSet?_congr {settings others : List (κ × ν)} {slot : κ}
    (same : settings.filter (·.1 = slot) = others.filter (·.1 = slot)) :
    lastSet? settings slot = lastSet? others slot := by
  rw [← lastSet?_filter settings, same, lastSet?_filter]

theorem get_foldl {get : σ → κ → ν} {set : σ → κ → ν → σ} {settings : List (κ × ν)}
    (law : ∀ setting ∈ settings, ∀ state slot, get (set state setting.1 setting.2) slot =
      if slot = setting.1 then setting.2 else get state slot) (start : σ) (slot : κ) :
    get (settings.foldl (fun state setting => set state setting.1 setting.2) start) slot =
      (lastSet? settings slot).getD (get start slot) := by
  induction settings generalizing start with
  | nil => rfl
  | cons setting rest ih =>
    have first := law setting List.mem_cons_self start slot
    have later := ih (fun one member => law one (List.mem_cons_of_mem setting member))
      (set start setting.1 setting.2)
    rw [List.foldl_cons, later, lastSet?_cons, first]
    by_cases same : slot = setting.1
    · rw [if_pos same, if_pos same.symm]
      cases lastSet? rest slot <;> rfl
    · rw [if_neg same, if_neg (Ne.symm same), Option.or_none]

end RadioWindows
