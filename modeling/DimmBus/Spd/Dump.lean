import DimmBus.Spd.Generation
/-!
# Dumps

The bytes read from a module in one go, by ascending address.
-/

namespace DimmBus

/-- Result of a bulk read. -/
structure SpdDump where
  slot : UInt8
  /-- Generation the module was read as. -/
  generation : Generation
  /-- Addresses with their bytes, ascending. -/
  entries : Array (UInt16 × UInt8)
deriving DecidableEq, Repr, Inhabited

namespace SpdDump

/-- Narrows `size` entries from `base` on down to one: the last of them that is not above
`address`, if the first one is not. -/
def lastNotAbove (entries : Array (UInt16 × UInt8)) (address : UInt16) (base size : Nat) : Nat :=
  if 1 < size then
    let half := size / 2
    let middle := base + half
    match entries[middle]? with
    | some entry =>
      if address < entry.1 then lastNotAbove entries address base (size - half)
      else lastNotAbove entries address middle (size - half)
    | none => base
  else base
termination_by size

/-- The byte at an address, if the dump covers it. -/
def get? (d : SpdDump) (address : UInt16) : Option UInt8 :=
  match d.entries[lastNotAbove d.entries address 0 d.entries.size]? with
  | some entry => if entry.1 = address then some entry.2 else none
  | none => none

/-- How many bytes were read. -/
def length (d : SpdDump) : Nat := d.entries.size

/-- The whole module; addresses that were not read hold `0xFF`. -/
def toImage (d : SpdDump) : Array UInt8 :=
  d.entries.foldl (fun image entry => image.setIfInBounds entry.1.toNat entry.2)
    (Array.replicate d.generation.size.toNat 0xFF)

/-- The runs of neighbouring addresses, each with its first and last. -/
def runs : List (UInt16 × UInt8) → List (UInt16 × UInt16)
  | [] => []
  | (address, _) :: rest =>
    match runs rest with
    | [] => [(address, address)]
    | (first, last) :: more =>
      if address.toNat + 1 = first.toNat then (address, last) :: more
      else (address, address) :: (first, last) :: more

/-- The bytes alone, in the order of their addresses. -/
def bytes (d : SpdDump) : List UInt8 := d.entries.toList.map Prod.snd

end SpdDump

end DimmBus
