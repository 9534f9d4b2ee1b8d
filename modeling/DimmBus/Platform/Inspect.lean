import DimmBus.Platform.Basic
/-!
# Looking behind the registers

What a machine holds, seen and set from outside, without a request.
-/

namespace DimmBus.Platform

/-- The module or hub in a slot. -/
def moduleAt? (p : Platform) (slot : UInt8) : Option Slave :=
  p.segment.slave? (Spd.eepromAddress slot)

/-- The machine with one slave replaced, if the change applies to it. -/
def change (p : Platform) (address : UInt8) (f : Slave → Option Slave) : Platform :=
  match (p.segment.slave? address).bind f with
  | some slave => { p with segment := p.segment.attach address slave }
  | none => p

/-- Sets the reading of the sensors of a slot. -/
def setTemperature (p : Platform) (slot : UInt8) (raw : UInt16) : Platform :=
  let inHub := p.change (Spd.eepromAddress slot) fun
    | .hub h => some (.hub (h.setReading raw))
    | _ => none
  inHub.change (Spd.sensorAddress slot) fun
    | .sensor chip => some (.sensor (chip.setReading raw))
    | _ => none

/-- Sets a management register of a hub. -/
def setHubRegister (p : Platform) (slot register value : UInt8) : Platform :=
  p.change (Spd.eepromAddress slot) fun
    | .hub h => some (.hub { h with registers := h.registers.write register.toNat value })
    | _ => none

/-- A management register of a hub. -/
def hubRegister? (p : Platform) (slot register : UInt8) : Option UInt8 :=
  match p.moduleAt? slot with
  | some (.hub h) => some (h.registers.read register.toNat)
  | _ => none

/-- The byte that a module stores at an address. -/
def storedByte? (p : Platform) (slot : UInt8) (address : UInt16) : Option UInt8 :=
  match p.moduleAt? slot with
  | some (.flat stored _) | some (.paged stored _) => stored[address.toNat]?
  | some (.hub h) => h.stored[address.toNat]?
  | _ => none

/-- Whether the semaphore of the Intel host is taken. -/
def ichInUse (p : Platform) : Bool := p.ich.any (·.inUse)

/-- Whether the semaphore of the PIIX4-compatible host is taken. -/
def piix4Semaphore (p : Platform) : Bool :=
  p.piix4.any fun h => hasAny h.slaveControl Piix4.SlaveControl.hostSemaphore

/-- The output that the bus multiplexer shows. -/
def selectedPort? (p : Platform) : Option UInt8 := p.pm.map (·.selected)

/-- Whether the micro-controller sleeps. -/
def mailboxAsleep? (p : Platform) : Option Bool := p.mailbox.map (·.asleep)

end DimmBus.Platform
