import DimmBus.Config
import DimmBus.Spd.Layout
/-!
# Module generations

How large a module's address space is, how an address splits into page and wire offset, and which
addresses a dump covers.
-/

namespace DimmBus

/-- Addressing scheme of a module. -/
inductive Generation where
  /-- Flat EEPROM of 256 bytes, also of older modules. -/
  | ddr3
  /-- EEPROM with two pages of 256 bytes and one latch for the whole segment. -/
  | ddr4
  /-- Hub with eight pages of 128 bytes and a page register of its own. -/
  | ddr5
deriving DecidableEq, Repr, Inhabited

/-- A module address as it goes over the wire. -/
structure SpdLocation where
  /-- Page to select first. -/
  page : UInt8
  /-- Command byte of the read. -/
  offset : UInt8
deriving DecidableEq, Repr, Inhabited

namespace Generation

def text : Generation → String
  | .ddr3 => "DDR3"
  | .ddr4 => "DDR4"
  | .ddr5 => "DDR5"

/-- Bytes in the module's address space. -/
def size : Generation → UInt16
  | .ddr3 => 256
  | .ddr4 => 512
  | .ddr5 => 1024

/-- Whether a read goes through a page selection. -/
def isPaged : Generation → Bool
  | .ddr3 => false
  | _ => true

/-- The generation that a memory-type code belongs to. -/
def ofMemoryType? (code : UInt8) : Option Generation :=
  if Spd.MemoryType.isDdr5 code then some .ddr5
  else if Spd.MemoryType.isDdr4 code then some .ddr4
  else if Spd.MemoryType.isLegacy code then some .ddr3
  else none

/-- The page that holds an address, in eight bits. -/
def pageOf : Generation → UInt16 → UInt8
  | .ddr3, _ => 0
  | .ddr4, address => UInt8.ofNat (address.toNat / 256)
  | .ddr5, address => UInt8.ofNat (address.toNat / 128)

/-- The command byte that reads an address once its page is shown. -/
def offsetOf : Generation → UInt16 → UInt8
  | .ddr3, address => UInt8.ofNat address.toNat
  | .ddr4, address => UInt8.ofNat (address.toNat % 256)
  | .ddr5, address => Spd.hubMemory ||| UInt8.ofNat (address.toNat % 128)

/-- Page and offset of an address; none past the end of the module. -/
def locate? (g : Generation) (address : UInt16) : Option SpdLocation :=
  if address < g.size then some ⟨g.pageOf address, g.offsetOf address⟩ else none

/-- First and last address of each range that holds identity, timings or manufacturing data. -/
def compactRanges : Generation → List (UInt16 × UInt16)
  | .ddr3 => [(0x00, 0x3C), (0x75, 0x94)]
  | .ddr4 => [(0x000, 0x07F), (0x140, 0x15F)]
  | .ddr5 => [(0x000, 0x07F), (0x200, 0x22F)]

/-- The addresses from `first` up to and including `last`. -/
def span (first last : UInt16) : List UInt16 :=
  (List.range' first.toNat (last.toNat + 1 - first.toNat)).map UInt16.ofNat

/-- The addresses that a dump covers, ascending. -/
def covered (g : Generation) : DumpMode → List UInt16
  | .full => (List.range g.size.toNat).map UInt16.ofNat
  | .compact => g.compactRanges.flatMap fun r => span r.1 r.2

end Generation

end DimmBus
