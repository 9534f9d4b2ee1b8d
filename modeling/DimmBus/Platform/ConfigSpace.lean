import DimmBus.LittleEndian
import DimmBus.Pci
import DimmBus.Platform.RegisterFile
/-!
# Configuration space

The 256 bytes of each PCI function that is there. A function that is not there answers ones, and so
do the bytes past the end of a function's space.
-/

namespace DimmBus

/-- The bytes of the functions that are there. -/
abbrev ConfigSpace := List (Pci.Address × RegisterFile 256 UInt8)

namespace ConfigSpace

/-- One byte of a function. -/
def byte (c : ConfigSpace) (location : Pci.Address) (index : Nat) : UInt8 :=
  match c.lookup location with
  | some space => if index < 256 then space.read index else 0xFF
  | none => 0xFF

/-- The number in some bytes of a function. -/
def read (c : ConfigSpace) (location : Pci.Address) (offset : UInt8) (count : Nat) : Nat :=
  LittleEndian.ofBytes ((List.range count).map fun i => c.byte location (offset.toNat + i))

/-- Sets bytes one after the other; those past the end go nowhere. -/
def setBytes (space : RegisterFile 256 UInt8) (index : Nat) : List UInt8 → RegisterFile 256 UInt8
  | [] => space
  | b :: bs => setBytes (if index < 256 then space.write index b else space) (index + 1) bs

/-- Writes the low bytes of a number to a function, if it is there. -/
def write (c : ConfigSpace) (location : Pci.Address) (offset : UInt8) (count value : Nat) :
    ConfigSpace :=
  c.map fun entry =>
    if entry.1 = location then
      (entry.1, setBytes entry.2 offset.toNat (LittleEndian.toBytes count value))
    else entry

/-- The same with a function put at an address, in place of what was there. -/
def insert (c : ConfigSpace) (location : Pci.Address) (space : RegisterFile 256 UInt8) :
    ConfigSpace :=
  (location, space) :: c.filter fun entry => entry.1 ≠ location

/-- A function that answers on its I/O addresses and has nothing but its header. -/
def header (vendor device : UInt16) (revision : UInt8) : RegisterFile 256 UInt8 :=
  let ids := LittleEndian.toBytes 2 vendor.toNat ++ LittleEndian.toBytes 2 device.toNat
  let command := LittleEndian.toBytes 2 Pci.Header.ioSpace.toNat
  (setBytes (setBytes (.filled 256 0) Pci.Header.vendorId.toNat ids) Pci.Header.command.toNat
    command).write Pci.Header.revision.toNat revision

end ConfigSpace

end DimmBus
