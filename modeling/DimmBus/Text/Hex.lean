/-!
# Hexadecimal text

Lower-case digits, filled up with zeros to a least width.
-/

namespace DimmBus.Hex

/-- The hexadecimal digits of `n`, at least `width` of them. -/
def digits (width n : Nat) : String :=
  let ds := Nat.toDigits 16 n
  String.ofList (List.replicate (width - ds.length) '0' ++ ds)

/-- The digits behind the mark `0x`. -/
def number (width n : Nat) : String := "0x" ++ digits width n

/-- Two digits a byte, nothing between them. -/
def bytes (bs : List UInt8) : String := String.join (bs.map fun b => digits 2 b.toNat)

/-- Two digits a byte, one blank between them. -/
def spaced (bs : List UInt8) : String := " ".intercalate (bs.map fun b => digits 2 b.toNat)

end DimmBus.Hex
