/-!
# Register files

A fixed number of cells. An index beyond the last cell starts again at the first, as when only the
low bits of an address are decoded.
-/

namespace DimmBus

/-- A number that is not zero. -/
class Positive (n : Nat) : Type where
  pos : 0 < n

instance (n : Nat) : Positive (n + 1) := ⟨Nat.succ_pos n⟩

/-- `n` cells. -/
structure RegisterFile (n : Nat) (α : Type) where
  cells : Vector α n
deriving DecidableEq, Repr

namespace RegisterFile

/-- Every cell holds the same value. -/
def filled (n : Nat) (value : α) : RegisterFile n α := ⟨Vector.replicate n value⟩

instance [Inhabited α] : Inhabited (RegisterFile n α) := ⟨filled n default⟩

/-- The value of the cell at an index. -/
def read [Positive n] (r : RegisterFile n α) (index : Nat) : α :=
  have : index % n < n := Nat.mod_lt _ Positive.pos
  r.cells[index % n]

/-- The same with one cell set. -/
def write [Positive n] (r : RegisterFile n α) (index : Nat) (value : α) : RegisterFile n α :=
  ⟨r.cells.setIfInBounds (index % n) value⟩

/-- The same with several cells set, one after the other. -/
def writeAll [Positive n] (r : RegisterFile n α) (values : List (Nat × α)) : RegisterFile n α :=
  values.foldl (fun r value => r.write value.1 value.2) r

theorem read_write [Positive n] (r : RegisterFile n α) (i j : Nat) (value : α) :
    (r.write i value).read j = if i % n = j % n then value else r.read j := by
  have hj : j % n < n := Nat.mod_lt _ Positive.pos
  simp only [read, write, Vector.getElem_setIfInBounds hj]

theorem read_filled [Positive n] (value : α) (i : Nat) : (filled n value).read i = value := by
  simp [read, filled]

end RegisterFile

end DimmBus
