/-! The host cannot address the memory of the radio chip. It reaches it through six windows,
each of which a firmware move ties to some region of that memory. The windows have fixed roles,
and the roles are their names here; the numbers 0 to 5 are what registers and reports show. -/

namespace RadioWindows

/-- One of the six windows, named for the role it is assigned to. -/
inductive Window where
  /-- Received data frames. -/
  | dataRx
  /-- Data frames being assembled for transmission. -/
  | dataTx
  /-- Received management frames. -/
  | mgmtRx
  /-- Management frames being assembled for transmission. -/
  | mgmtTx
  /-- Home of the scratch memory. -/
  | scratch
  /-- Without a role. -/
  | spare
deriving DecidableEq, Repr

namespace Window

def all : List Window := [dataRx, dataTx, mgmtRx, mgmtTx, scratch, spare]

def id : Window → UInt8
  | dataRx => 0
  | dataTx => 1
  | mgmtRx => 2
  | mgmtTx => 3
  | scratch => 4
  | spare => 5

def ofId? (id : UInt8) : Option Window := all.find? (·.id == id)

instance : Ord Window := ⟨fun a b => compare a.id b.id⟩

def describe (w : Window) : String := s!"WindowId({w.id})"

theorem ofId?_id (w : Window) : ofId? w.id = some w := by cases w <;> rfl

theorem id_of_ofId? {id : UInt8} {w : Window} (found : ofId? id = some w) : w.id = id := by
  simpa using List.find?_some found

end Window

end RadioWindows
