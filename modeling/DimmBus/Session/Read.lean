import DimmBus.Session.Modules
import DimmBus.Spd.Dump
/-!
# Reading modules
-/

namespace DimmBus.Session

/-- Where an address of a module lies; it is an error if it lies past the end. -/
def locate (g : Generation) (address : UInt16) : Except Error SpdLocation :=
  match g.locate? address with
  | some location => .ok location
  | none => .error (.param (.spdAddress g address))

/-- One attempt at a byte: page selection and read are one section under the lock. -/
def readAttempt (link : Link) (g : Generation) (slave : UInt8) (location : SpdLocation) :
    Operation UInt8 :=
  locked link do
    selectPage link g slave location.page
    readByte link slave location.offset

/-- Reads the byte at an address of the module in a slot. -/
def readSpd (link : Link) (slot : UInt8) (address : UInt16) : Operation UInt8 := do
  let g ← confirmed link slot
  let location ← ofExcept (locate g address)
  ExceptT.adapt (·.atSpd slot address .byteData)
    (retrying link (readAttempt link g (Spd.eepromAddress slot) location))

/-- Reads bytes one after the other behind those that are read already. The first failure ends
it. -/
def readAll (link : Link) (slot : UInt8) (entries : Array (UInt16 × UInt8)) :
    List UInt16 → Operation (Array (UInt16 × UInt8))
  | [] => return entries
  | address :: rest => do
    let value ← readSpd link slot address
    readAll link slot (entries.push (address, value)) rest

/-- Reads the addresses that a mode covers. -/
def dump (link : Link) (slot : UInt8) (mode : DumpMode) : Operation SpdDump := do
  let g ← confirmed link slot
  let entries ← readAll link slot #[] (g.covered mode)
  return ⟨slot, g, entries⟩

end DimmBus.Session
