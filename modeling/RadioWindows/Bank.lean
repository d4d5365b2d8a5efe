import RadioWindows.Window

/-! A record with one value for each of the six windows. -/

namespace RadioWindows

/-- One value for each window. -/
structure Bank (α : Type) where
  dataRx : α
  dataTx : α
  mgmtRx : α
  mgmtTx : α
  scratch : α
  spare : α
deriving DecidableEq, Repr

namespace Bank

variable {α : Type}

def replicate (value : α) : Bank α := ⟨value, value, value, value, value, value⟩

def get (bank : Bank α) : Window → α
  | .dataRx => bank.dataRx
  | .dataTx => bank.dataTx
  | .mgmtRx => bank.mgmtRx
  | .mgmtTx => bank.mgmtTx
  | .scratch => bank.scratch
  | .spare => bank.spare

def set (bank : Bank α) (w : Window) (value : α) : Bank α :=
  match w with
  | .dataRx => { bank with dataRx := value }
  | .dataTx => { bank with dataTx := value }
  | .mgmtRx => { bank with mgmtRx := value }
  | .mgmtTx => { bank with mgmtTx := value }
  | .scratch => { bank with scratch := value }
  | .spare => { bank with spare := value }

@[simp] theorem get_replicate (value : α) (w : Window) : (replicate value).get w = value := by
  cases w <;> rfl

@[simp] theorem get_set_self (bank : Bank α) (w : Window) (value : α) :
    (bank.set w value).get w = value := by cases w <;> rfl

theorem get_set_of_ne (bank : Bank α) {v w : Window} (value : α) (other : v ≠ w) :
    (bank.set w value).get v = bank.get v := by
  cases v <;> cases w <;> simp_all [get, set]

@[ext] theorem ext_get {a b : Bank α} (equal : ∀ w, a.get w = b.get w) : a = b := by
  cases a
  cases b
  have h0 := equal .dataRx
  have h1 := equal .dataTx
  have h2 := equal .mgmtRx
  have h3 := equal .mgmtTx
  have h4 := equal .scratch
  have h5 := equal .spare
  simp only [get] at h0 h1 h2 h3 h4 h5
  simp [h0, h1, h2, h3, h4, h5]

end Bank

end RadioWindows
