import DimmBus.LittleEndian
import DimmBus.Spd.Generation
import DimmBus.Text.Decimal
import DimmBus.Transaction
/-!
# Temperatures

A reading is a two's-complement number of thirteen bits that counts sixteenths of a degree. Discrete
sensors send its high byte first, hubs its low byte.
-/

namespace DimmBus

/-- Degrees Celsius, counted in sixteenths. -/
structure Temperature where
  sixteenths : Int
deriving DecidableEq, Repr, Inhabited

namespace Temperature

/-- The reading in the low thirteen bits of a word; the bits above them are alarm flags. -/
def ofReading (raw : UInt16) : Temperature :=
  let magnitude : Int := (raw.toNat % 4096 : Nat)
  if raw.toNat / 4096 % 2 = 1 then ⟨magnitude - 4096⟩ else ⟨magnitude⟩

/-- The degrees with a fixed number of places. -/
def text (t : Temperature) (places : Nat) : String := Decimal.fixed places t.sixteenths 16

end Temperature

/-- Where the temperature of a module comes from. -/
inductive ThermalSensor where
  /-- A sensor chip with an address of its own. -/
  | discrete (slave : UInt8)
  /-- A sensor inside the hub. -/
  | hub (slave : UInt8)
deriving DecidableEq, Repr, Inhabited

namespace ThermalSensor

/-- The sensor of a module in a slot. -/
def ofModule : Generation → (slot : UInt8) → ThermalSensor
  | .ddr5, slot => .hub (Spd.eepromAddress slot)
  | _, slot => .discrete (Spd.sensorAddress slot)

def slave : ThermalSensor → UInt8
  | .discrete slave => slave
  | .hub slave => slave

/-- The transaction that fetches the reading. -/
def reading : ThermalSensor → Transaction
  | .discrete slave => .readWordData slave Spd.SensorRegister.temperature
  | .hub slave => .readWordData slave Spd.HubRegister.temperature

/-- The temperature in the word as the bus delivers it, low byte first. -/
def temperature : ThermalSensor → UInt16 → Temperature
  | .discrete _, word => .ofReading (LittleEndian.swap word)
  | .hub _, word => .ofReading word

end ThermalSensor

end DimmBus
