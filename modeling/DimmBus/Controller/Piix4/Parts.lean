import DimmBus.Pci
/-!
# PIIX4-compatible hosts

The parts that are known and how they differ. Older parts keep their base address in configuration
space. Later ones ("SB800 class") keep it in the power-management block, behind a bus multiplexer
and a semaphore that they share with firmware.
-/

namespace DimmBus.Piix4

/-- A part, known by vendor and device. -/
structure Part where
  vendor : UInt16
  device : UInt16
  name : String
deriving DecidableEq, Repr, Inhabited

namespace DeviceId

def hudson2 : UInt16 := 0x780B
/-- All hosts of the Zen family. -/
def kerncz : UInt16 := 0x790B
def sbx00 : UInt16 := 0x4385
def csb5 : UInt16 := 0x0201

end DeviceId

open Pci

/-- The known parts. -/
def parts : List Part := [
  ⟨Vendor.intel, 0x7113, "82371AB (PIIX4)"⟩,
  ⟨Vendor.intel, 0x719B, "82443MX"⟩,
  ⟨Vendor.efar, 0x9463, "SLC90E66"⟩,
  ⟨Vendor.serverWorks, 0x0200, "OSB4"⟩,
  ⟨Vendor.serverWorks, DeviceId.csb5, "CSB5"⟩,
  ⟨Vendor.serverWorks, 0x0203, "CSB6"⟩,
  ⟨Vendor.serverWorks, 0x0205, "HT-1000"⟩,
  ⟨Vendor.serverWorks, 0x0408, "HT-1100LD"⟩,
  ⟨Vendor.ati, 0x4353, "IXP200"⟩,
  ⟨Vendor.ati, 0x4363, "IXP300"⟩,
  ⟨Vendor.ati, 0x4372, "IXP400"⟩,
  ⟨Vendor.ati, DeviceId.sbx00, "SBx00"⟩,
  ⟨Vendor.amd, DeviceId.hudson2, "Hudson-2"⟩,
  ⟨Vendor.amd, DeviceId.kerncz, "FCH (KERNCZ)"⟩,
  ⟨Vendor.hygon, DeviceId.kerncz, "Hygon FCH"⟩,
  ⟨Vendor.via, 0x3050, "VT82C596"⟩,
  ⟨Vendor.via, 0x3057, "VT82C686"⟩,
  ⟨Vendor.via, 0x8235, "VT8231"⟩,
  ⟨Vendor.via, 0x3074, "VT8233"⟩,
  ⟨Vendor.via, 0x3177, "VT8235"⟩,
  ⟨Vendor.via, 0x3227, "VT8237"⟩,
  ⟨Vendor.via, 0x3287, "VT8251"⟩]

/-- The part with a vendor and a device identifier. -/
def part? (vendor device : UInt16) : Option Part :=
  parts.find? fun p => p.vendor == vendor && p.device == device

/-- Offset of the base address in configuration space: VIA moved it after its first two parts. -/
def baseRegister (vendor device : UInt16) : UInt8 :=
  if vendor = Vendor.via ∧ device ≠ 0x3050 ∧ device ≠ 0x3057 then 0xD0 else 0x90

/-- Whether the base address is in the power-management block. -/
def isSb800 (vendor device : UInt16) (revision : UInt8) : Bool :=
  if vendor = Vendor.ati then device = DeviceId.sbx00 ∧ 0x40 ≤ revision
  else vendor = Vendor.amd ∨ vendor = Vendor.hygon

/-- Whether the enable bit and the base address are in the first two registers of that block. -/
def usesFchEnable (vendor device : UInt16) (revision : UInt8) : Bool :=
  (vendor = Vendor.amd ∧ device = DeviceId.hudson2 ∧ 0x41 ≤ revision) ∨
    (vendor = Vendor.amd ∧ device = DeviceId.kerncz ∧ 0x49 ≤ revision) ∨
    (vendor = Vendor.hygon ∧ device = DeviceId.kerncz)

/-- Whether that block is reached through the memory-mapped window. -/
def usesPmWindow (vendor device : UInt16) (revision : UInt8) : Bool :=
  (vendor = Vendor.amd ∨ vendor = Vendor.hygon) ∧ device = DeviceId.kerncz ∧ 0x51 ≤ revision

/-- Whether the bus multiplexer is set in the third register of that block. -/
def usesKernczSelector (vendor device : UInt16) (revision : UInt8) : Bool :=
  vendor ≠ Vendor.ati ∧
    (device = DeviceId.kerncz ∨ (device = DeviceId.hudson2 ∧ 0x1F ≤ revision))

/-- The field that chooses the output of the bus multiplexer. -/
structure Selector where
  /-- Index in the power-management block. -/
  register : UInt8
  mask : UInt8
  shift : UInt8
deriving DecidableEq, Repr, Inhabited

namespace Selector

/-- Of the Zen family and late Hudson-2 parts. -/
def kerncz : Selector := ⟨0x02, 0x18, 3⟩
/-- The first of the two fields of the other parts. -/
def primary : Selector := ⟨0x2C, 0x06, 1⟩
/-- The second of them. -/
def alternate : Selector := ⟨0x2E, 0x06, 1⟩
/-- On ATI parts, the lowest bit of this register says which of the two is in use. -/
def choice : UInt8 := 0x2F

/-- The output that a register value chooses. -/
def get (s : Selector) (value : UInt8) : UInt8 := (value &&& s.mask) >>> s.shift

/-- A register value with the field set to an output. -/
def set (s : Selector) (value output : UInt8) : UInt8 :=
  (value &&& ~~~s.mask) ||| ((output <<< s.shift) &&& s.mask)

end Selector

/-- Outputs of the bus multiplexer; one on parts that have none. -/
def portCount (vendor device : UInt16) (revision : UInt8) : UInt8 :=
  if !isSb800 vendor device revision then 1
  else if usesKernczSelector vendor device revision then
    (Selector.kerncz.mask >>> Selector.kerncz.shift) + 1
  else (Selector.primary.mask >>> Selector.primary.shift) + 1

/-- Whether the part needs a longer pause after the start bit. -/
def needsStartDelay (vendor device : UInt16) : Bool :=
  vendor = Vendor.serverWorks ∧ device = DeviceId.csb5

/-- Where AMD and ATI parts have the host. -/
def amdLocation : Pci.Address := ⟨0, 0x14, 0⟩

namespace ConfigSpace

/-- The bits of the base register that are the base address. -/
def baseMask : UInt16 := 0xFFF0
/-- Offset of the host configuration. -/
def hostConfig : UInt8 := 0xD2
/-- Configuration bit: the host is switched on. -/
def hostEnable : UInt8 := 0x01

end ConfigSpace

/-! The power-management block. -/

namespace Pm

/-- I/O address of the index. -/
def index : UInt16 := 0xCD6
/-- I/O address of the data. -/
def data : UInt16 := 0xCD7
/-- Physical address of the memory-mapped window. -/
def window : UInt64 := 0xFED80300
/-- Size of that window. -/
def windowSize : Nat := 8

/-- Register of the enable bit on parts that have it in front; the base follows. -/
def fchEnable : UInt8 := 0x00
def fchEnableBit : UInt8 := 0x10
/-- Register of the enable bit on the other parts; it shares a word with the base. -/
def sb800Enable : UInt8 := 0x2C
def sb800EnableBit : UInt8 := 0x01
def sb800BaseMask : UInt16 := 0xFFE0

end Pm

/-! Bits of the slave control register. -/

namespace SlaveControl

/-- Written to ask for the bus, and reads as set when it was granted. -/
def hostSemaphore : UInt8 := 0x10
/-- Written to give the bus back. -/
def hostRelease : UInt8 := 0x20

end SlaveControl

/-! The micro-controller that shares the bus on some parts, and its mailbox. -/

namespace Imc

/-- The bridge whose configuration tells whether it runs. -/
def bridge : Pci.Address := ⟨0, 0x14, 3⟩
/-- Offset of that configuration. -/
def bridgeConfig : UInt8 := 0x40
/-- Configuration bit: it runs. -/
def active : UInt8 := 0x80
/-- I/O address of the mailbox index. -/
def index : UInt16 := 0x3E
/-- I/O address of the mailbox data. -/
def data : UInt16 := 0x3F
/-- Mailbox register of the argument and the acknowledgement. -/
def argument : UInt8 := 0x82
/-- Mailbox register of the command. -/
def command : UInt8 := 0x83
def doorbell : UInt8 := 0x80
/-- Value that rings the doorbell. -/
def ring : UInt8 := 0x96
/-- Command: go to sleep. -/
def sleep : UInt8 := 0xB4
/-- Command: wake up. -/
def wake : UInt8 := 0xB5
/-- The acknowledgement. -/
def acknowledged : UInt8 := 0xFA

end Imc

/-- Pause after the start bit, in microseconds. -/
def startDelayUs : UInt32 := 25
/-- The longer pause of the parts that need one. -/
def longStartDelayUs : UInt32 := 2000
/-- Attempts to get the host semaphore. -/
def semaphorePolls : Nat := 5
/-- Pause between these attempts. -/
def semaphoreQuantumUs : UInt32 := 1000
/-- Looks at the mailbox for an acknowledgement. -/
def imcPolls : Nat := 500
/-- Pause between these looks. -/
def imcQuantumUs : UInt32 := 1000

end DimmBus.Piix4
