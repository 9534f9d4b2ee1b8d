import DimmBus.Platform.Segment
import DimmBus.Spd.Generation
/-!
# Sample modules

Contents of one module of each generation, and the modules as slaves.
-/

namespace DimmBus.Modules

/-- Bytes that differ from their neighbours, without a meaning. -/
def pattern (size seed : Nat) : Array UInt8 :=
  (Array.range size).map fun i => UInt8.ofNat ((i * 31 + seed) % 65536 % 251)

/-- The bytes with some of them set. -/
def patched (bytes : Array UInt8) (values : List (Nat × UInt8)) : Array UInt8 :=
  values.foldl (fun image value => image.setIfInBounds value.1 value.2) bytes

/-- The byte that announces a temperature sensor. -/
def sensorByte (thermal : Bool) : UInt8 := if thermal then Spd.sensorBit else 0

def ddr3Image (thermal : Bool) : Array UInt8 :=
  patched (pattern 256 3) [(0, 0x92), (1, 0x13), (2, 0x0B), (32, sensorByte thermal)]

def ddr4Image (thermal : Bool) : Array UInt8 :=
  patched (pattern 512 4) [(0, 0x23), (1, 0x11), (2, 0x0C), (14, sensorByte thermal)]

def ddr5Image : Array UInt8 :=
  patched (pattern 1024 5) [(0, 0x30), (1, 0x10), (2, 0x12)]

/-- The contents of a sample module. Hubs announce their sensor in a register. -/
def image : Generation → (thermal : Bool) → Array UInt8
  | .ddr3, thermal => ddr3Image thermal
  | .ddr4, thermal => ddr4Image thermal
  | .ddr5, _ => ddr5Image

/-- A hub with a page of its own and, if wanted, a sensor. -/
def hub (stored : Array UInt8) (thermal : Bool) : Hub where
  stored
  registers := (RegisterFile.filled 128 0).writeAll [
    (Spd.HubRegister.deviceType.toNat, Spd.HubRegister.hubType),
    (Spd.HubRegister.deviceVariant.toNat,
      if thermal then Spd.HubRegister.withSensor else Spd.HubRegister.withoutSensor),
    (Spd.HubRegister.deviceRevision.toNat, 0x12),
    (Spd.HubRegister.capability.toNat, if thermal then Spd.HubRegister.sensorCapable else 0)]

/-- A discrete sensor at 25 degrees. -/
def sensor : SensorChip where
  pointer := 0
  registers := (RegisterFile.filled 8 0).writeAll [
    (Spd.SensorRegister.capability.toNat, 0x00EF),
    (Spd.SensorRegister.manufacturer.toNat, 0x0054),
    (Spd.SensorRegister.deviceId.toNat, 0x0A00),
    (Spd.SensorRegister.temperature.toNat, 0x0190)]

/-- The segment with a sample module plugged in, and its sensor if it has a discrete one. -/
def plug (s : Segment) (g : Generation) (slot : UInt8) (thermal : Bool) : Segment :=
  let stored := image g thermal
  let address := Spd.eepromAddress slot
  let withSensor (s : Segment) : Segment :=
    if thermal then s.attach (Spd.sensorAddress slot) (.sensor sensor) else s
  match g with
  | .ddr3 => withSensor (s.attach address (.flat stored 0))
  | .ddr4 => withSensor (s.attach address (.paged stored 0))
  | .ddr5 => s.attach address (.hub (hub stored thermal))

end DimmBus.Modules
