import DimmBus.Error
/-!
# Well-formed transactions

What is checked before any hardware is touched, and the check on a length that hardware returns.
-/

namespace DimmBus

namespace Transaction

/-- Whether the data fits the shape and the direction. A block's length is checked apart. -/
def fits (tx : Transaction) : Bool :=
  match tx.protocol, tx.direction, tx.payload with
  | .quick, _, .none | .byte, _, .none => true
  | .byteData, .read, .none | .wordData, .read, .none | .blockData, .read, .none => true
  | .byteData, .write, .byte _ => true
  | .wordData, .write, .word _ | .procCall, .write, .word _ => true
  | .blockData, .write, .block _ | .blockProcCall, .write, .block _ => true
  | _, _, _ => false

/-- Accepts a transaction whose slave address has seven bits, whose data fits its shape, and whose
block has 1 to 32 bytes. The first of these that fails is reported. -/
def validate (tx : Transaction) : Except Error Unit :=
  if 0x7F < tx.slave then .error (.param (.slave tx.slave))
  else if tx.fits then
    match tx.payload with
    | .block data =>
      if data.isEmpty || maxBlock < data.length then .error (.param (.blockLength data.length))
      else .ok ()
    | _ => .ok ()
  else .error (.param (.mismatch tx.protocol tx.direction tx.payload))

end Transaction

/-- The length of a block that a device returns. -/
def checkReturnedLength (length : UInt8) : Except Error Nat :=
  if 1 ≤ length.toNat ∧ length.toNat ≤ maxBlock then .ok length.toNat
  else .error (.param (.returnedLength length))

end DimmBus
