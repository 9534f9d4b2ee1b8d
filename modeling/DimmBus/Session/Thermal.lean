import DimmBus.Session.Read
import DimmBus.Spd.Temperature
/-!
# Reading temperatures
-/

namespace DimmBus.Session

/-- Whether a hub has a temperature sensor; a sensor that is switched off is switched on. -/
def enableHubSensor (link : Link) (slave : UInt8) : Operation Bool := do
  let capability ← readByte link slave Spd.HubRegister.capability
  if hasAny capability Spd.HubRegister.sensorCapable then
    let config ← readByte link slave Spd.HubRegister.sensorConfig
    if hasAny config Spd.HubRegister.sensorOff then
      let _ ← send link (.writeByteData slave Spd.HubRegister.sensorConfig
        (config &&& ~~~Spd.HubRegister.sensorOff))
    return true
  else
    return false

/-- Whether a module with an EEPROM has a temperature sensor: the byte at `address` announces it,
and it acknowledges its own address. -/
def findDiscreteSensor (link : Link) (slot : UInt8) (address : UInt16) : Operation Bool := do
  let announced ← readSpd link slot address
  if hasAny announced Spd.sensorBit then
    let presence := locked link (send link (.quick (Spd.sensorAddress slot) .write))
    match ← outcome (retrying link presence) with
    | .ok _ => return true
    | .error e => if e.isNak then return false else throw (e.atSpd slot address .quick)
  else
    return false

/-- Finds out whether the module in a slot has a temperature sensor. -/
def findSensor (link : Link) (slot : UInt8) : Generation → Operation Bool
  | .ddr3 => findDiscreteSensor link slot 32
  | .ddr4 => findDiscreteSensor link slot 14
  | .ddr5 =>
    ExceptT.adapt (·.atSpd slot Spd.HubRegister.capability.toUInt16 .byteData)
      (retrying link (locked link (enableHubSensor link (Spd.eepromAddress slot))))

/-- Whether the module in a slot has a temperature sensor. The answer is remembered. -/
def thermalCapability (link : Link) (slot : UInt8) : Operation Bool := do
  let g ← confirmed link slot
  match ((← get).module? slot).bind (·.thermal) with
  | some known => return known
  | none =>
    let available ← findSensor link slot g
    step (modify fun m =>
      match m.module? slot with
      | some found => m.setModule slot { found with thermal := some available }
      | none => m)
    return available

/-- The same with any failure taken for a no. -/
def thermalAvailable (link : Link) (slot : UInt8) : Step Bool := do
  match ← (thermalCapability link slot).run with
  | .ok available => return available
  | .error _ => return false

/-- The temperature of the module in a slot. -/
def readTemperature (link : Link) (slot : UInt8) : Operation Temperature := do
  let g ← confirmed link slot
  if ← thermalCapability link slot then
    let sensor := ThermalSensor.ofModule g slot
    let reading := locked link do
      selectPage link g (Spd.eepromAddress slot) 0
      readWord link sensor.reading
    let word ← ExceptT.adapt (·.atSpd slot sensor.reading.command.toUInt16 .wordData)
      (retrying link reading)
    return sensor.temperature word
  else
    throw (.unsupported (.thermalSensor slot))

end DimmBus.Session
