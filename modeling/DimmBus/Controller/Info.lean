import DimmBus.Access
/-!
# What is known about a controller
-/

namespace DimmBus

/-- The two families of host controllers. -/
inductive Family where
  /-- Intel hosts. -/
  | ich
  /-- PIIX4-compatible hosts of Intel, AMD, ATI, Hygon, VIA, ServerWorks and EFAR. -/
  | piix4
deriving DecidableEq, Repr, Inhabited

def Family.text : Family → String
  | .ich => "i801"
  | .piix4 => "piix4"

/-- A controller that was found. -/
structure Detected where
  identity : Pci.Identity
  /-- The base address, when the transport tells it. -/
  ioBase : Option UInt16
deriving DecidableEq, Repr, Inhabited

/-- Transfers that a controller can carry beyond bytes and words. -/
structure Capabilities where
  block : Bool
  blockProcCall : Bool
  procCall : Bool
  pec : Bool
deriving DecidableEq, Repr, Inhabited

/-- Peculiarities of a part. -/
structure Traits where
  /-- The chipset blocks writes to module EEPROMs. -/
  writeProtected : Bool := false
  /-- The base address was found through the memory-mapped window. -/
  memoryMappedBase : Bool := false
  /-- The part needs a longer pause after the start bit. -/
  postStartDelay : Bool := false
  /-- A micro-controller shares the bus and is sent to sleep around transfers. -/
  notifiesImc : Bool := false
deriving DecidableEq, Repr, Inhabited

/-- All that bring-up learns about a controller. -/
structure ControllerInfo where
  family : Family
  name : String
  identity : Pci.Identity
  base : UInt16
  transport : Transport
  capabilities : Capabilities
  traits : Traits
deriving DecidableEq, Repr, Inhabited

/-- The controller in one line. -/
def ControllerInfo.text (i : ControllerInfo) : String :=
  i.name ++ " [" ++ Hex.digits 4 i.identity.vendor.toNat ++ ":" ++
    Hex.digits 4 i.identity.device.toNat ++ " rev " ++ Hex.digits 2 i.identity.revision.toNat ++
    "] at " ++ i.identity.location.text ++ " base " ++ Hex.number 4 i.base.toNat ++ " (" ++
    i.transport.text ++ ")"

end DimmBus
