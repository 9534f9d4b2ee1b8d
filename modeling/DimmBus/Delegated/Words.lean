import DimmBus.LittleEndian
import DimmBus.Transaction.Validate
/-!
# Words of a delegated transfer

A transfer routine takes nine words and returns five. The first four name the slave, the direction,
the command and the protocol. The last five, in both directions, are a buffer of forty bytes in
little-endian order: byte 0 is the data byte, the low byte of a word or the length of a block, and
the bytes after it hold the high byte of the word or the block.
-/

namespace DimmBus.Delegated

namespace Routine

def ichIdentity : String := "i801.ioctl_identity"
def ichTransfer : String := "i801.ioctl_smbus_xfer"
def piix4Identity : String := "piix4.ioctl_identity"
def piix4Transfer : String := "piix4.ioctl_smbus_xfer"
def piix4SelectPort : String := "piix4.ioctl_port_sel"

end Routine

/-- Words that an identity routine returns. -/
def identityWords : Nat := 3

/-- Words that a transfer routine takes. -/
def inputWords : Nat := 4 + transferWords

/-- The code of a protocol; 6 is not in use. -/
def codeOf : Protocol → UInt64
  | .quick => 0
  | .byte => 1
  | .byteData => 2
  | .wordData => 3
  | .procCall => 4
  | .blockData => 5
  | .blockProcCall => 7

/-- The protocol with a code. -/
def protocolOf? (code : UInt64) : Option Protocol :=
  [.quick, .byte, .byteData, .wordData, .procCall, .blockData, .blockProcCall].find?
    fun p => codeOf p == code

/-- The data buffer. -/
abbrev Buffer := Vector UInt8 40

/-- The bytes, followed by zeros. -/
def Buffer.ofBytes (bs : List UInt8) : Buffer := Vector.ofFn fun i => bs.getD i 0

/-- The first byte. -/
def Buffer.byte (buffer : Buffer) : UInt8 := buffer[0]

/-- The first two bytes as a word. -/
def Buffer.word (buffer : Buffer) : UInt16 := LittleEndian.word buffer[0] buffer[1]

/-- The buffer as words, eight bytes each. -/
def pack (buffer : Buffer) : Vector UInt64 5 :=
  Vector.ofFn fun i => UInt64.ofNat (LittleEndian.ofBytes
    (List.ofFn fun k : Fin 8 => buffer[8 * i.val + k.val]))

/-- The buffer in a list of words; words that are missing count as zero, further ones are left
out. -/
def unpack (words : List UInt64) : Buffer :=
  Vector.ofFn fun i => LittleEndian.digit (words.getD (i.val / 8) 0).toNat (i.val % 8)

/-- The bytes that stand for a payload. A block is cut at its greatest length. -/
def payloadBytes : Payload → List UInt8
  | .none => []
  | .byte value => [value]
  | .word value => [LittleEndian.low value, LittleEndian.high value]
  | .block data => UInt8.ofNat (data.take maxBlock).length :: data.take maxBlock

/-- The buffer that carries a payload. -/
def bufferOf (payload : Payload) : Buffer := .ofBytes (payloadBytes payload)

/-- The words that ask for a transaction. Packet error checking has no place in them. -/
def encode (tx : Transaction) : List UInt64 :=
  [tx.slave.toUInt64, if tx.direction = .read then 1 else 0, tx.command.toUInt64,
    codeOf tx.protocol] ++ (pack (bufferOf tx.payload)).toList

/-- The payload that a transaction reads back from the words of the answer. -/
def decode (tx : Transaction) (words : List UInt64) : Except Error Payload :=
  if tx.readsBack then
    let buffer := unpack words
    match tx.protocol with
    | .quick => .ok .none
    | .byte | .byteData => .ok (.byte buffer.byte)
    | .wordData | .procCall => .ok (.word buffer.word)
    | .blockData | .blockProcCall => do
      let length ← checkReturnedLength buffer.byte
      return .block ((buffer.toList.drop 1).take length)
  else .ok .none

end DimmBus.Delegated
