import DimmBus.Controller.Info
/-!
# Finding a controller

Reading the identity of PCI functions, looking through bus 0, and making a function answer on its
I/O addresses.
-/

namespace DimmBus.Discovery

open Access

/-- The identity of the function at an address, if there is one. -/
def identity (location : Pci.Address) : Attempt (Option Pci.Identity) := do
  let dword ← readPci32 location Pci.Header.vendorId
  let (vendor, device) := Pci.splitId dword
  if dword = Pci.Header.absent ∨ vendor = 0xFFFF ∨ vendor = 0 then
    return none
  else
    let revision ← readPci8 location Pci.Header.revision
    return some ⟨location, vendor, device, revision⟩

/-- The first function, in the order given, whose identity is accepted. -/
def first (accepts : Pci.Identity → Bool) : List Pci.Address → Attempt (Option Pci.Identity)
  | [] => return none
  | location :: rest => do
    match ← identity location with
    | some found => if accepts found then return some found else first accepts rest
    | none => first accepts rest

/-- Every address on bus 0, device by device. -/
def bus0 : List Pci.Address :=
  (List.range 32).flatMap fun device =>
    (List.range 8).map fun function => ⟨0, UInt8.ofNat device, UInt8.ofNat function⟩

/-- Makes the function answer on its I/O addresses; writes only if it does not yet. -/
def enableIoSpace (location : Pci.Address) : Attempt Unit := do
  let command ← readPci16 location Pci.Header.command
  if command &&& Pci.Header.ioSpace = 0 then
    writePci16 location Pci.Header.command (command ||| Pci.Header.ioSpace)
  else return

end DimmBus.Discovery
