/-!
# Where memory modules answer

Slave addresses of module slots, the page latches of two-page EEPROMs, the management registers of
hubs, the registers of discrete temperature sensors, and the families of memory-type codes.
-/

namespace DimmBus.Spd

/-- Number of module slots on one bus segment. -/
def slotCount : Nat := 8

/-- Slave address of the EEPROM or hub in a slot. -/
def eepromAddress (slot : UInt8) : UInt8 := 0x50 ||| (slot &&& 7)

/-- Slave address of the discrete temperature sensor in a slot. -/
def sensorAddress (slot : UInt8) : UInt8 := 0x18 ||| (slot &&& 7)

/-- A write to this address makes every two-page EEPROM on the segment show the page. -/
def pageLatch (page : UInt8) : UInt8 := 0x36 + page

/-- Byte that holds the memory-type code, in every generation. -/
def memoryTypeByte : UInt8 := 2

/-- Command bit that reaches a hub's stored bytes instead of its management registers. -/
def hubMemory : UInt8 := 0x80

/-- Whether an EEPROM byte announces a temperature sensor. -/
def sensorBit : UInt8 := 0x80

namespace MemoryType

/-- Codes of modules with a two-page EEPROM. -/
def isDdr4 (code : UInt8) : Bool := code == 0x0C || code == 0x0E || code == 0x10 || code == 0x11

/-- Codes of modules with a hub. -/
def isDdr5 (code : UInt8) : Bool := code == 0x12 || code == 0x13 || code == 0x14 || code == 0x15

/-- Codes of modules with a flat EEPROM of 256 bytes. -/
def isLegacy (code : UInt8) : Bool :=
  code == 0x04 || code == 0x07 || code == 0x08 || code == 0x0B || code == 0x0F

end MemoryType

namespace HubRegister

/-- High byte of the device type. -/
def deviceType : UInt8 := 0x00
/-- Low byte of the device type. -/
def deviceVariant : UInt8 := 0x01
/-- Device revision. -/
def deviceRevision : UInt8 := 0x02
/-- What the hub can do. -/
def capability : UInt8 := 0x05
/-- Page shown through the stored-byte window. -/
def page : UInt8 := 0x0B
/-- Configuration of the temperature sensor. -/
def sensorConfig : UInt8 := 0x1A
/-- Low byte of the temperature; the high byte follows. -/
def temperature : UInt8 := 0x31

/-- Device type of every hub. -/
def hubType : UInt8 := 0x51
/-- Variant with a temperature sensor. -/
def withSensor : UInt8 := 0x18
/-- Variant without one. -/
def withoutSensor : UInt8 := 0x08
/-- Capability bit of the temperature sensor. -/
def sensorCapable : UInt8 := 0x02
/-- Bits of the page register that count. -/
def pageMask : UInt8 := 0x07
/-- Bit that switches the temperature sensor off. -/
def sensorOff : UInt8 := 0x01

end HubRegister

namespace SensorRegister

def capability : UInt8 := 0x00
def temperature : UInt8 := 0x05
def manufacturer : UInt8 := 0x06
def deviceId : UInt8 := 0x07

end SensorRegister

end DimmBus.Spd
