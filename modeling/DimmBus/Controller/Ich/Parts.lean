import DimmBus.Pci
/-!
# Intel hosts

The parts that are known, what each can do, and where their configuration lives.
-/

namespace DimmBus.Ich

/-- What a part's host can do beyond bytes and words. -/
structure Features where
  /-- Packet error checking in hardware. -/
  pec : Bool
  /-- A buffer for whole blocks. -/
  blockBuffer : Bool
  /-- Process calls on blocks. -/
  blockProcCall : Bool
deriving DecidableEq, Repr, Inhabited

namespace Features

def none : Features := ⟨false, false, false⟩
def ich4 : Features := ⟨true, true, false⟩
def modern : Features := ⟨true, true, true⟩

end Features

/-- A part, known by its device identifier; the vendor is always Intel. -/
structure Part where
  device : UInt16
  name : String
  features : Features
deriving DecidableEq, Repr, Inhabited

/-- The known parts. -/
def parts : List Part := [
  ⟨0x2413, "82801AA (ICH)", .none⟩,
  ⟨0x2423, "82801AB (ICH0)", .none⟩,
  ⟨0x2443, "82801BA (ICH2)", .none⟩,
  ⟨0x2483, "82801CA (ICH3)", .none⟩,
  ⟨0x24C3, "82801DB (ICH4)", .ich4⟩,
  ⟨0x24D3, "82801EB (ICH5)", .modern⟩,
  ⟨0x25A4, "6300ESB", .modern⟩,
  ⟨0x266A, "82801F (ICH6)", .modern⟩,
  ⟨0x269B, "631xESB/632xESB", .modern⟩,
  ⟨0x27DA, "82801G (ICH7)", .modern⟩,
  ⟨0x283E, "82801H (ICH8)", .modern⟩,
  ⟨0x2930, "82801I (ICH9)", .modern⟩,
  ⟨0x3A30, "82801JI (ICH10)", .modern⟩,
  ⟨0x3A60, "82801JD (ICH10)", .modern⟩,
  ⟨0x3B30, "5/3400 Series (PCH)", .modern⟩,
  ⟨0x1C22, "6 Series (Cougar Point)", .modern⟩,
  ⟨0x1D22, "C600/X79 (Patsburg)", .modern⟩,
  ⟨0x1E22, "7 Series (Panther Point)", .modern⟩,
  ⟨0x8C22, "8 Series (Lynx Point)", .modern⟩,
  ⟨0x9C22, "8 Series LP (Lynx Point-LP)", .modern⟩,
  ⟨0x8CA2, "9 Series (Wildcat Point)", .modern⟩,
  ⟨0x8D22, "C610/X99 (Wellsburg)", .modern⟩,
  ⟨0xA123, "100 Series (Sunrise Point-H)", .modern⟩,
  ⟨0x9D23, "100 Series LP (Sunrise Point-LP)", .modern⟩,
  ⟨0xA1A3, "C620 (Lewisburg)", .modern⟩,
  ⟨0xA2A3, "200 Series (Union Point)", .modern⟩,
  ⟨0xA323, "300 Series (Cannon Lake-H)", .modern⟩,
  ⟨0x9DA3, "300 Series LP (Cannon Lake-LP)", .modern⟩,
  ⟨0x02A3, "400 Series LP (Comet Lake)", .modern⟩,
  ⟨0x06A3, "400 Series (Comet Lake-H)", .modern⟩,
  ⟨0x34A3, "495 Series (Ice Lake-LP)", .modern⟩,
  ⟨0xA0A3, "500 Series LP (Tiger Lake-LP)", .modern⟩,
  ⟨0x43A3, "500 Series (Tiger Lake-H)", .modern⟩,
  ⟨0x4DA3, "Jasper Lake", .modern⟩,
  ⟨0x7AA3, "600 Series (Alder Lake-S)", .modern⟩,
  ⟨0x51A3, "600 Series (Alder Lake-P)", .modern⟩,
  ⟨0x54A3, "600 Series (Alder Lake-M)", .modern⟩,
  ⟨0x7A23, "700 Series (Raptor Lake-S)", .modern⟩,
  ⟨0x7E22, "Meteor Lake-P", .modern⟩]

/-- The part with a device identifier. -/
def part? (device : UInt16) : Option Part := parts.find? fun p => p.device == device

/-- Where the host usually is. -/
def usualLocation : Pci.Address := ⟨0, 0x1F, 3⟩
/-- Where some later chipsets have it. -/
def laterLocation : Pci.Address := ⟨0, 0x1F, 4⟩

namespace ConfigSpace

/-- Offset of the base address register. -/
def baseRegister : UInt8 := 0x20
/-- The bits of that register that are the base address. -/
def baseMask : UInt32 := 0xFFE0
/-- Offset of the host configuration. -/
def hostConfig : UInt8 := 0x40
/-- Configuration bit: the host is switched on. -/
def hostEnable : UInt8 := 0x01
/-- Configuration bit: the host speaks I2C. -/
def i2cMode : UInt8 := 0x04
/-- Configuration bit: writes to module EEPROMs are blocked. -/
def writeDisable : UInt8 := 0x10

end ConfigSpace

/-! Bits of the auxiliary control register. -/

namespace AuxControl

/-- Compute packet error codes. -/
def crc : UInt8 := 0x01
/-- Use the buffer for whole blocks. -/
def blockBuffer : UInt8 := 0x02

end AuxControl

/-- Bit of the auxiliary status register: a packet error code was wrong. -/
def crcError : UInt8 := 0x01

/-- Pause between a kill and the clearing of the control register, in microseconds. -/
def killDelayUs : UInt32 := 1000

end DimmBus.Ich
