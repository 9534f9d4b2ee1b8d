import DimmBus.Access
/-!
# Traces

A request with its answer, as one line of text.
-/

namespace DimmBus.Tap

/-- A request that went through a tap, and what its caller saw. -/
structure Seen where
  request : Request
  answer : request.Answer
  /-- A write that succeeded without reaching the machine. -/
  dropped : Bool

namespace Seen

/-- What is shown behind a read. -/
def readText (width : Nat) (value : α → Nat) : Except Error α → String
  | .ok v => " = " ++ Hex.number width (value v)
  | .error _ => " = error"

/-- What is shown behind a write. -/
def writeText (width value : Nat) (dropped : Bool) : Except Error Unit → String
  | .ok _ => " <- " ++ Hex.number width value ++ (if dropped then " dropped" else "")
  | .error _ => " <- " ++ Hex.number width value ++ " error"

/-- Whether it went well. -/
def doneText : Except Error Unit → String
  | .ok _ => " = ok"
  | .error _ => " = error"

def wordsText (words : List UInt64) : String :=
  "[" ++ ",".intercalate (words.map fun w => Hex.number 1 w.toNat) ++ "]"

def pciText (location : Pci.Address) (offset : UInt8) : String :=
  location.text ++ " " ++ Hex.number 2 offset.toNat

/-- The request and its answer in one line. -/
def text : Seen → String
  | ⟨.readIo8 address, answer, _⟩ =>
    "read_io8 " ++ Hex.number 4 address.toNat ++ readText 2 UInt8.toNat answer
  | ⟨.writeIo8 address value, answer, dropped⟩ =>
    "write_io8 " ++ Hex.number 4 address.toNat ++ writeText 2 value.toNat dropped answer
  | ⟨.readPci8 location offset, answer, _⟩ =>
    "read_pci8 " ++ pciText location offset ++ readText 2 UInt8.toNat answer
  | ⟨.readPci16 location offset, answer, _⟩ =>
    "read_pci16 " ++ pciText location offset ++ readText 4 UInt16.toNat answer
  | ⟨.readPci32 location offset, answer, _⟩ =>
    "read_pci32 " ++ pciText location offset ++ readText 8 UInt32.toNat answer
  | ⟨.writePci8 location offset value, answer, dropped⟩ =>
    "write_pci8 " ++ pciText location offset ++ writeText 2 value.toNat dropped answer
  | ⟨.writePci16 location offset value, answer, dropped⟩ =>
    "write_pci16 " ++ pciText location offset ++ writeText 4 value.toNat dropped answer
  | ⟨.writePci32 location offset value, answer, dropped⟩ =>
    "write_pci32 " ++ pciText location offset ++ writeText 8 value.toNat dropped answer
  | ⟨.readMmio32 physical, answer, _⟩ =>
    "read_mmio32 " ++ Hex.number 1 physical.toNat ++ readText 8 UInt32.toNat answer
  | ⟨.writeMmio8 physical value, answer, dropped⟩ =>
    "write_mmio8 " ++ Hex.number 1 physical.toNat ++ writeText 2 value.toNat dropped answer
  | ⟨.sleep us, _, _⟩ => "sleep " ++ toString us.toNat
  | ⟨.lock timeoutUs, answer, _⟩ => "lock " ++ toString timeoutUs ++ "us" ++ doneText answer
  | ⟨.unlock, answer, _⟩ => "unlock" ++ doneText answer
  | ⟨.delegate routine words answerWords, answer, _⟩ =>
    "delegate " ++ routine ++ " " ++ wordsText words ++ " " ++ toString answerWords ++
      match answer with
      | .ok returned => " = " ++ wordsText returned
      | .error _ => " = error"

end Seen

end DimmBus.Tap
