import DimmBus.Platform.Slave
import DimmBus.Transaction
/-!
# A bus segment

All slaves on one bus, and the page latch that the two-page EEPROMs among them share.
-/

namespace DimmBus

/-- One operation as the slaves see it. -/
structure Transfer where
  slave : UInt8
  direction : Direction
  command : UInt8
  protocol : Protocol
  /-- The outgoing word; its low byte is the outgoing byte. -/
  word : UInt16
  /-- The outgoing block. -/
  block : List UInt8
deriving DecidableEq, Repr

/-- What comes back from an operation that was acknowledged. -/
inductive Reply where
  | ack
  | byte (value : UInt8)
  | word (value : UInt16)
  | block (data : List UInt8)
deriving DecidableEq, Repr

/-- The slaves by address, and the page latch. -/
structure Segment where
  slaves : RegisterFile 256 (Option Slave)
  page : UInt8
deriving DecidableEq, Repr

namespace Segment

/-- Nobody is there. -/
def empty : Segment := ⟨RegisterFile.filled 256 none, 0⟩

instance : Inhabited Segment := ⟨empty⟩

/-- Who answers at an address. -/
def slave? (s : Segment) (address : UInt8) : Option Slave := s.slaves.read address.toNat

/-- The same with a slave put at an address. -/
def attach (s : Segment) (address : UInt8) (slave : Slave) : Segment :=
  { s with slaves := s.slaves.write address.toNat (some slave) }

/-- Whether a two-page EEPROM is there to hear the page latch. -/
def hasPaged (s : Segment) : Bool :=
  s.slaves.cells.any fun
    | some (.paged ..) => true
    | _ => false

/-- What a slave makes of an operation that is addressed to it. -/
def serve (slave : Slave) (page : UInt8) (t : Transfer) : Reply × Slave :=
  match t.protocol, t.direction with
  | .quick, _ => (.ack, slave)
  | .byte, .read =>
    let (value, slave) := slave.receive page
    (.byte value, slave)
  | .byte, .write => (.ack, slave.send t.command)
  | .byteData, .read =>
    let (value, slave) := slave.read page t.command
    (.byte value, slave)
  | .byteData, .write => (.ack, slave.write t.command (LittleEndian.low t.word))
  | .wordData, .read =>
    let (value, slave) := slave.readWord page t.command
    (.word value, slave)
  | .wordData, .write => (.ack, slave.writeWord t.command t.word)
  | .procCall, _ =>
    let (value, slave) := (slave.writeWord t.command t.word).readWord page t.command
    (.word value, slave)
  | .blockData, .read =>
    let (data, slave) := slave.readBytes page t.command maxBlock
    (.block data, slave)
  | .blockData, .write => (.ack, slave.writeBytes t.command t.block)
  | .blockProcCall, _ =>
    let (data, slave) := (slave.writeBytes t.command t.block).readBytes page t.command maxBlock
    (.block data, slave)

/-- Whether an address is one of the two of the page latch. -/
def isLatch (address : UInt8) : Bool := address = Spd.pageLatch 0 ∨ address = Spd.pageLatch 1

/-- Runs one operation; none if nobody acknowledges it. The page latch hears only writes, and only
if a two-page EEPROM is there. -/
def execute (s : Segment) (t : Transfer) : Option Reply × Segment :=
  if isLatch t.slave then
    if t.direction = .read ∨ !s.hasPaged then (none, s)
    else (some .ack, { s with page := t.slave - Spd.pageLatch 0 })
  else
    match s.slave? t.slave with
    | none => (none, s)
    | some slave =>
      let (reply, slave) := serve slave s.page t
      (some reply, s.attach t.slave slave)

end Segment

end DimmBus
