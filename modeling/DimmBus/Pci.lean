import DimmBus.Text.Hex
/-!
# PCI functions

Where a function lives, who made it, and the part of the configuration header that is read here.
-/

namespace DimmBus.Pci

/-- Bus, device and function number of a PCI function. -/
structure Address where
  bus : UInt8
  device : UInt8
  function : UInt8
deriving DecidableEq, Repr, Inhabited

namespace Address

/-- The usual short form, as in `00:1f.3`. -/
def text (a : Address) : String :=
  Hex.digits 2 a.bus.toNat ++ ":" ++ Hex.digits 2 a.device.toNat ++ "." ++
    Hex.digits 1 a.function.toNat

/-- The name of the function's directory in `sysfs`, in domain 0. -/
def sysfsName (a : Address) : String := "0000:" ++ a.text

/-- Functions are ordered by bus, then by device, then by function number. -/
def le (a b : Address) : Bool :=
  if a.bus ≠ b.bus then a.bus ≤ b.bus
  else if a.device ≠ b.device then a.device ≤ b.device
  else a.function ≤ b.function

end Address

/-- What the configuration header says about a function. -/
structure Identity where
  location : Address
  vendor : UInt16
  device : UInt16
  revision : UInt8
deriving DecidableEq, Repr, Inhabited

/-- The first dword of a header holds the vendor in its low half and the device in its high half. -/
def splitId (dword : UInt32) : UInt16 × UInt16 :=
  (UInt16.ofNat dword.toNat, UInt16.ofNat (dword.toNat / 65536))

namespace Vendor

def intel : UInt16 := 0x8086
def amd : UInt16 := 0x1022
def ati : UInt16 := 0x1002
def hygon : UInt16 := 0x1D94
def via : UInt16 := 0x1106
def serverWorks : UInt16 := 0x1166
def efar : UInt16 := 0x1055

end Vendor

namespace Header

/-- Offset of the vendor and device identifiers. -/
def vendorId : UInt8 := 0x00
/-- Offset of the command register. -/
def command : UInt8 := 0x04
/-- Offset of the revision. -/
def revision : UInt8 := 0x08
/-- Bit of the command register that makes the function answer on its I/O addresses. -/
def ioSpace : UInt16 := 0x0001
/-- What a function that is not there answers for its first dword. -/
def absent : UInt32 := 0xFFFFFFFF

end Header

end DimmBus.Pci
