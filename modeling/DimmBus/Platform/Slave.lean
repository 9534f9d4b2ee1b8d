import DimmBus.Bits
import DimmBus.LittleEndian
import DimmBus.Platform.RegisterFile
import DimmBus.Spd.Layout
/-!
# Slaves on the bus

Module EEPROMs, hubs and temperature sensors, as they answer the host. The stored bytes of modules
are write-protected.
-/

namespace DimmBus

/-- A hub: its management registers and its stored bytes. -/
structure Hub where
  registers : RegisterFile 128 UInt8
  stored : Array UInt8
deriving DecidableEq, Repr

namespace Hub

/-- The page that the window on the stored bytes shows. -/
def page (h : Hub) : Nat :=
  (h.registers.read Spd.HubRegister.page.toNat &&& Spd.HubRegister.pageMask).toNat

/-- Commands with the highest bit set read a stored byte of the page, the others a register. -/
def read (h : Hub) (command : UInt8) : UInt8 :=
  if hasAny command Spd.hubMemory then h.stored.getD (h.page * 128 + command.toNat % 128) 0xFF
  else h.registers.read command.toNat

/-- The page register and the sensor configuration can be written. -/
def write (h : Hub) (command value : UInt8) : Hub :=
  if command = Spd.HubRegister.page then
    { h with registers := h.registers.write command.toNat (value &&& Spd.HubRegister.pageMask) }
  else if command = Spd.HubRegister.sensorConfig then
    { h with registers := h.registers.write command.toNat value }
  else h

/-- The same hub at another temperature. -/
def setReading (h : Hub) (raw : UInt16) : Hub :=
  let at0 := Spd.HubRegister.temperature.toNat
  { h with registers :=
      (h.registers.write at0 (LittleEndian.low raw)).write (at0 + 1) (LittleEndian.high raw) }

end Hub

/-- A temperature sensor: its registers and the one that a received byte comes from. -/
structure SensorChip where
  registers : RegisterFile 8 UInt16
  pointer : UInt8
deriving DecidableEq, Repr

namespace SensorChip

/-- Whether a register can be written: all but capability, temperature and identity. -/
def isWritable (register : UInt8) : Bool :=
  register ≠ Spd.SensorRegister.capability ∧ register ≠ Spd.SensorRegister.temperature ∧
    register ≠ Spd.SensorRegister.manufacturer ∧ register ≠ Spd.SensorRegister.deviceId

/-- Points at a register. -/
def aim (s : SensorChip) (command : UInt8) : SensorChip := { s with pointer := command &&& 7 }

/-- Writes a register, whose high byte travels first, and points at it. -/
def writeWord (s : SensorChip) (command : UInt8) (value : UInt16) : SensorChip :=
  let aimed := s.aim command
  if isWritable (command &&& 7) then
    { aimed with registers := s.registers.write command.toNat (LittleEndian.swap value) }
  else aimed

/-- The same sensor at another temperature. -/
def setReading (s : SensorChip) (raw : UInt16) : SensorChip :=
  { s with registers := s.registers.write Spd.SensorRegister.temperature.toNat raw }

end SensorChip

/-- A device that answers at a slave address. -/
inductive Slave where
  /-- Flat EEPROM of 256 bytes. -/
  | flat (stored : Array UInt8) (pointer : UInt8)
  /-- Two-page EEPROM; the page latch belongs to the segment. -/
  | paged (stored : Array UInt8) (pointer : UInt8)
  | hub (hub : Hub)
  | sensor (sensor : SensorChip)
deriving DecidableEq, Repr

namespace Slave

/-- Answers a read of one byte, while the page latch shows `page`. -/
def read (s : Slave) (page command : UInt8) : UInt8 × Slave :=
  match s with
  | .flat stored _ => (stored.getD command.toNat 0xFF, .flat stored (command + 1))
  | .paged stored _ =>
    (stored.getD (page.toNat * 256 + command.toNat) 0xFF, .paged stored (command + 1))
  | .hub h => (h.read command, s)
  | .sensor chip => (LittleEndian.high (chip.registers.read command.toNat), s)

/-- Answers a received byte: a read from where the pointer is. -/
def receive (s : Slave) (page : UInt8) : UInt8 × Slave :=
  match s with
  | .flat _ pointer | .paged _ pointer => s.read page pointer
  | .hub _ => s.read page 0
  | .sensor chip => s.read page chip.pointer

/-- Takes a sent byte: it moves the pointer. -/
def send (s : Slave) (value : UInt8) : Slave :=
  match s with
  | .flat stored _ => .flat stored value
  | .paged stored _ => .paged stored value
  | .hub h => .hub h
  | .sensor chip => .sensor (chip.aim value)

/-- Takes a write of one byte. -/
def write (s : Slave) (command value : UInt8) : Slave :=
  match s with
  | .flat stored _ => .flat stored (command + 1)
  | .paged stored _ => .paged stored (command + 1)
  | .hub h => .hub (h.write command value)
  | .sensor chip => .sensor (chip.aim command)

/-- Answers a read of a word: two bytes in a row, or a sensor register with its high byte first. -/
def readWord (s : Slave) (page command : UInt8) : UInt16 × Slave :=
  match s with
  | .sensor chip =>
    (LittleEndian.swap (chip.registers.read command.toNat), .sensor (chip.aim command))
  | _ =>
    let (lo, s) := s.read page command
    let (hi, s) := s.read page (command + 1)
    (LittleEndian.word lo hi, s)

/-- Takes a write of a word. -/
def writeWord (s : Slave) (command : UInt8) (value : UInt16) : Slave :=
  match s with
  | .sensor chip => .sensor (chip.writeWord command value)
  | _ => (s.write command (LittleEndian.low value)).write (command + 1) (LittleEndian.high value)

/-- Answers reads of a number of bytes in a row. -/
def readBytes (s : Slave) (page command : UInt8) : Nat → List UInt8 × Slave
  | 0 => ([], s)
  | n + 1 =>
    let (b, s) := s.read page command
    let (bs, s) := s.readBytes page (command + 1) n
    (b :: bs, s)

/-- Takes writes of bytes in a row. -/
def writeBytes (s : Slave) (command : UInt8) : List UInt8 → Slave
  | [] => s
  | b :: bs => (s.write command b).writeBytes (command + 1) bs

end Slave

end DimmBus
