import DimmBus.Platform.Basic
import DimmBus.Platform.Modules
/-!
# Assembling machines
-/

namespace DimmBus.Platform

/-- Base address of the Intel host. -/
def ichBase : UInt16 := 0xEFA0

/-- Base address of the PIIX4-compatible host. -/
def piix4Base : UInt16 := 0x0B00

/-- Where PIIX4-compatible hosts other than those of AMD and ATI are. -/
def legacyLocation : Pci.Address := ⟨0, 0x07, 3⟩

/-- A machine whose transactions go through delegated routines. -/
def delegated (p : Platform) : Platform := { p with transport := .delegated }

/-- Adds an Intel host with a host configuration. -/
def withIch (p : Platform) (device : UInt16) (hostConfig : UInt8) : Platform :=
  let features := ((Ich.part? device).map (·.features)).getD .none
  let location := Ich.usualLocation
  let bar := LittleEndian.toBytes 4 (ichBase.toNat + 1)
  let space :=
    (ConfigSpace.setBytes (ConfigSpace.header Pci.Vendor.intel device 0x10)
      Ich.ConfigSpace.baseRegister.toNat bar).write Ich.ConfigSpace.hostConfig.toNat hostConfig
  { p with
    config := p.config.insert location space
    ich := some { model := .ich features, base := ichBase, location } }

/-- The power-management block of a part, with the base address of its host. -/
def pmBlock (vendor device : UInt16) (revision : UInt8) : PmBlock :=
  let lo := LittleEndian.low piix4Base
  let hi := LittleEndian.high piix4Base
  let registers :=
    if Piix4.usesFchEnable vendor device revision then
      ConfigSpace.setBytes (.filled 256 0) Piix4.Pm.fchEnable.toNat [Piix4.Pm.fchEnableBit, hi]
    else
      ConfigSpace.setBytes (.filled 256 0) Piix4.Pm.sb800Enable.toNat
        [(lo &&& 0xE0) ||| Piix4.Pm.sb800EnableBit, hi]
  let selector :=
    if vendor = Pci.Vendor.ati then
      if registers.read Piix4.Selector.choice.toNat &&& 1 = 0 then .primary else .alternate
    else if Piix4.usesKernczSelector vendor device revision then .kerncz
    else .alternate
  ⟨registers, 0, Piix4.usesPmWindow vendor device revision, selector⟩

/-- Adds a PIIX4-compatible host. Its base address is in the power-management block or in
configuration space, as the part has it. -/
def withPiix4 (p : Platform) (vendor device : UInt16) (revision : UInt8) : Platform :=
  let sb800 := Piix4.isSb800 vendor device revision
  let location :=
    if sb800 || vendor == Pci.Vendor.ati then Piix4.amdLocation else legacyLocation
  let header := ConfigSpace.header vendor device revision
  let space :=
    if sb800 then header
    else
      (ConfigSpace.setBytes header (Piix4.baseRegister vendor device).toNat
        (LittleEndian.toBytes 2 (piix4Base.toNat + 1))).write
        Piix4.ConfigSpace.hostConfig.toNat Piix4.ConfigSpace.hostEnable
  { p with
    pm := if sb800 then some (pmBlock vendor device revision) else p.pm
    config := p.config.insert location space
    piix4 := some { model := .piix4, base := piix4Base, location } }

/-- Device identifier of the bridge in front of the micro-controller. -/
def bridgeDevice : UInt16 := 0x790E

/-- Adds a micro-controller that shares the bus. -/
def withImc (p : Platform) : Platform :=
  let space := (ConfigSpace.header Pci.Vendor.amd bridgeDevice 0x51).write
    Piix4.Imc.bridgeConfig.toNat Piix4.Imc.active
  { p with config := p.config.insert Piix4.Imc.bridge space, mailbox := some .awake }

/-- Plugs a sample module into a slot. -/
def withModule (p : Platform) (g : Generation) (slot : UInt8) (thermal : Bool) : Platform :=
  { p with segment := Modules.plug p.segment g slot thermal }

end DimmBus.Platform
