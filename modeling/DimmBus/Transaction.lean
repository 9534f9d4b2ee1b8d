/-!
# Bus transactions

One operation on the bus as the host asks for it: whom it addresses, its shape and its data.
-/

namespace DimmBus

/-- Direction of a transfer, seen from the host. -/
inductive Direction where
  | write
  | read
deriving DecidableEq, Repr, Inhabited

/-- The bit that follows the slave address on the wire. -/
def Direction.bit : Direction → UInt8
  | .write => 0
  | .read => 1

/-- Shape of a transaction. -/
inductive Protocol where
  /-- Address and direction bit only. -/
  | quick
  /-- One byte, no command. -/
  | byte
  /-- Command and one data byte. -/
  | byteData
  /-- Command and two data bytes. -/
  | wordData
  /-- A word is written and a word read back. -/
  | procCall
  /-- Command, length and up to 32 bytes. -/
  | blockData
  /-- A block is written and a block read back. -/
  | blockProcCall
deriving DecidableEq, Repr, Inhabited

/-- Whether the data is a block with its length in front. -/
def Protocol.isBlock : Protocol → Bool
  | .blockData | .blockProcCall => true
  | _ => false

/-- Data that a transaction carries or brings back. -/
inductive Payload where
  | none
  | byte (value : UInt8)
  | word (value : UInt16)
  | block (data : List UInt8)
deriving DecidableEq, Repr, Inhabited

namespace Payload

def asByte : Payload → Option UInt8
  | .byte value => some value
  | _ => Option.none

def asWord : Payload → Option UInt16
  | .word value => some value
  | _ => Option.none

def asBlock : Payload → Option (List UInt8)
  | .block data => some data
  | _ => Option.none

end Payload

/-- The longest block a transaction can carry. -/
def maxBlock : Nat := 32

/-- One bus operation. -/
structure Transaction where
  /-- Seven-bit address of the slave. -/
  slave : UInt8
  direction : Direction
  /-- The command byte; quick commands and received bytes have none on the wire. -/
  command : UInt8
  protocol : Protocol
  /-- Data that goes out. -/
  payload : Payload
  /-- Whether the controller is asked to add and check a packet error code. -/
  pec : Bool
deriving DecidableEq, Repr, Inhabited

namespace Transaction

def quick (slave : UInt8) (direction : Direction) : Transaction :=
  ⟨slave, direction, 0, .quick, .none, false⟩

def readByte (slave : UInt8) : Transaction := ⟨slave, .read, 0, .byte, .none, false⟩

/-- A sent byte travels in the place of the command. -/
def writeByte (slave value : UInt8) : Transaction := ⟨slave, .write, value, .byte, .none, false⟩

def readByteData (slave command : UInt8) : Transaction :=
  ⟨slave, .read, command, .byteData, .none, false⟩

def writeByteData (slave command value : UInt8) : Transaction :=
  ⟨slave, .write, command, .byteData, .byte value, false⟩

def readWordData (slave command : UInt8) : Transaction :=
  ⟨slave, .read, command, .wordData, .none, false⟩

def writeWordData (slave command : UInt8) (value : UInt16) : Transaction :=
  ⟨slave, .write, command, .wordData, .word value, false⟩

def procCall (slave command : UInt8) (value : UInt16) : Transaction :=
  ⟨slave, .write, command, .procCall, .word value, false⟩

def readBlock (slave command : UInt8) : Transaction :=
  ⟨slave, .read, command, .blockData, .none, false⟩

def writeBlock (slave command : UInt8) (data : List UInt8) : Transaction :=
  ⟨slave, .write, command, .blockData, .block data, false⟩

def blockProcCall (slave command : UInt8) (data : List UInt8) : Transaction :=
  ⟨slave, .write, command, .blockProcCall, .block data, false⟩

/-- The same operation with packet error checking. -/
def withPec (tx : Transaction) : Transaction := { tx with pec := true }

/-- Whether data comes back: every read, and both process calls. -/
def readsBack (tx : Transaction) : Bool :=
  tx.direction = .read || tx.protocol = .procCall || tx.protocol = .blockProcCall

/-- The address byte on the wire. -/
def addressByte (tx : Transaction) : UInt8 := tx.slave <<< 1 ||| tx.direction.bit

end Transaction

end DimmBus
