import DimmBus.Access
import DimmBus.Bits
import DimmBus.LittleEndian
import DimmBus.Transaction.Validate
/-!
# Host registers

The I/O registers that both families of hosts share, the bits in them, and how data moves through
them.
-/

namespace DimmBus

/-! Offsets from the host's base address. -/

namespace HostRegister

/-- Status; a flag is cleared by writing it back. -/
def status : UInt16 := 0x00
/-- Control; reading it also rewinds the block buffer. -/
def control : UInt16 := 0x02
def command : UInt16 := 0x03
/-- Slave address and direction bit. -/
def address : UInt16 := 0x04
/-- Data byte, low byte of a word, or length of a block. -/
def data0 : UInt16 := 0x05
/-- High byte of a word. -/
def data1 : UInt16 := 0x06
/-- Window on the block buffer; every access moves on by a byte. -/
def block : UInt16 := 0x07
/-- Slave control of PIIX4-compatible hosts, with the host semaphore. -/
def slaveControl : UInt16 := 0x08
/-- Auxiliary status of Intel hosts. -/
def auxStatus : UInt16 := 0x0C
/-- Auxiliary control of Intel hosts. -/
def auxControl : UInt16 := 0x0D

end HostRegister

/-! Bits of the status register. -/

namespace Status

/-- A transaction is in progress. -/
def hostBusy : UInt8 := 0x01
/-- The transaction is complete. -/
def interrupt : UInt8 := 0x02
/-- No slave acknowledged, or the request was not understood. -/
def deviceError : UInt8 := 0x04
/-- Arbitration was lost. -/
def busError : UInt8 := 0x08
/-- The transaction was given up. -/
def failed : UInt8 := 0x10
/-- Semaphore of Intel hosts: a read sets it, writing it back frees it. -/
def inUse : UInt8 := 0x40
/-- A byte of a block is done. -/
def byteDone : UInt8 := 0x80

/-- The flags of a transaction that ended badly. -/
def errors : UInt8 := failed ||| busError ||| deviceError
/-- The flags that an Intel host clears between transactions. -/
def flags : UInt8 := byteDone ||| interrupt ||| errors

/-- Whether a status ends the wait: the host is idle and has something to report. -/
def isFinal (status : UInt8) : Bool :=
  !hasAny status hostBusy && hasAny status (interrupt ||| errors)

end Status

/-! Bits of the control register. -/

namespace Control

/-- Give the current transaction up. -/
def kill : UInt8 := 0x02
def start : UInt8 := 0x40
/-- Add and check a packet error code. -/
def pecEnable : UInt8 := 0x80
/-- The field that holds the kind of transaction. -/
def kindMask : UInt8 := 0x1C

/-- The kind of transaction that stands for a protocol. -/
def kind : Protocol → UInt8
  | .quick => 0x00
  | .byte => 0x04
  | .byteData => 0x08
  | .wordData => 0x0C
  | .procCall => 0x10
  | .blockData => 0x14
  | .blockProcCall => 0x1C

end Control

namespace HostData

open Access

/-- Writes the bytes one after the other to the same register. -/
def writeBytes (address : UInt16) : List UInt8 → Attempt Unit
  | [] => return
  | b :: bs => do
    writeIo8 address b
    writeBytes address bs

/-- Reads a number of bytes one after the other from the same register. -/
def readBytes (address : UInt16) : Nat → Attempt (List UInt8)
  | 0 => return []
  | n + 1 => do
    let b ← readIo8 address
    let bs ← readBytes address n
    return b :: bs

/-- Loads a word into the data registers of the host at `base`. -/
def loadWord (base : UInt16) (value : UInt16) : Attempt Unit := do
  writeIo8 (base + HostRegister.data0) (LittleEndian.low value)
  writeIo8 (base + HostRegister.data1) (LittleEndian.high value)

/-- Loads a block into the host at `base`: its length, then its bytes through the rewound buffer. -/
def loadBlock (base : UInt16) (data : List UInt8) : Attempt Unit := do
  writeIo8 (base + HostRegister.data0) (UInt8.ofNat data.length)
  let _ ← readIo8 (base + HostRegister.control)
  writeBytes (base + HostRegister.block) data

/-- Collects the payload that a completed transaction left in the host at `base`. -/
def collect (base : UInt16) (tx : Transaction) : Attempt Payload :=
  if tx.readsBack then
    match tx.protocol with
    | .quick => return .none
    | .byte | .byteData => do
      let value ← readIo8 (base + HostRegister.data0)
      return .byte value
    | .wordData | .procCall => do
      let lo ← readIo8 (base + HostRegister.data0)
      let hi ← readIo8 (base + HostRegister.data1)
      return .word (LittleEndian.word lo hi)
    | .blockData | .blockProcCall => do
      let length ← Attempt.ofExcept (checkReturnedLength (← readIo8 (base + HostRegister.data0)))
      let _ ← readIo8 (base + HostRegister.control)
      let data ← readBytes (base + HostRegister.block) length
      return .block data
  else return .none

end HostData

end DimmBus
