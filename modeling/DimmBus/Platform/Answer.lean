import DimmBus.Platform.Routines
/-!
# Answers of a simulated machine

The machine as a step function: one primitive request, its answer, and the machine afterwards.
-/

namespace DimmBus.Platform

/-- Reads an I/O address. Hosts come before the fixed addresses; where nobody answers there are
ones. -/
def readIo (p : Platform) (address : UInt16) : UInt8 × Platform :=
  match p.decode? address with
  | some (h, register) =>
    let (value, h) := h.read (p.has .stuckBusy) (p.has .semaphoreHeld) register
    (value, p.setHost h)
  | none =>
    let ports := p.pm.filter fun pm => !pm.windowOnly
    let value? :=
      if address = Piix4.Pm.index then ports.map (·.index)
      else if address = Piix4.Pm.data then ports.map fun pm => pm.registers.read pm.index.toNat
      else if address = Piix4.Imc.index then p.mailbox.map (·.index)
      else if address = Piix4.Imc.data then p.mailbox.map fun m => m.registers.read m.index.toNat
      else none
    (value?.getD 0xFF, p)

/-- What a write to a host sets off in the machine. -/
def follow (p : Platform) (h : Host) : HostEvent → Platform
  | .none => p.setHost h
  | .kill => { p.setHost h with counters := { p.counters with kills := p.counters.kills + 1 } }
  | .start => p.start h

/-- The power-management block after a write to one of its two I/O addresses. -/
def writePm (pm : PmBlock) (address : UInt16) (value : UInt8) : PmBlock :=
  if pm.windowOnly then pm
  else if address = Piix4.Pm.index then { pm with index := value }
  else { pm with registers := pm.registers.write pm.index.toNat value }

/-- The mailbox gets a byte. -/
def writeMailbox (p : Platform) (value : UInt8) : Platform :=
  match p.mailbox with
  | none => p
  | some m =>
    let (m, acknowledged) := m.write (p.has .imcSilent) value
    let handshakes := p.counters.handshakes + (if acknowledged then 1 else 0)
    { p with mailbox := some m, counters := { p.counters with handshakes } }

/-- Writes an I/O address. -/
def writeIo (p : Platform) (address : UInt16) (value : UInt8) : Platform :=
  match p.decode? address with
  | some (h, register) =>
    let (h, event) := h.write register value
    p.follow h event
  | none =>
    if address = Piix4.Pm.index ∨ address = Piix4.Pm.data then
      { p with pm := p.pm.map fun pm => writePm pm address value }
    else if address = Piix4.Imc.index then
      { p with mailbox := p.mailbox.map fun m => { m with index := value } }
    else if address = Piix4.Imc.data then p.writeMailbox value
    else p

/-- Takes the bus lock. It is not waited for: whoever holds it does not give it back meanwhile. -/
def takeLock (p : Platform) : Except Error Unit × Platform :=
  if p.lockHeld || p.has .lockContended then (.error (.busy 0), p)
  else
    let counters := { p.counters with locks := p.counters.locks + 1 }
    (.ok (), { p with lockHeld := true, counters })

/-- One more request. -/
def counted (p : Platform) : Platform :=
  { p with counters := { p.counters with calls := p.counters.calls + 1 } }

/-- Answers a primitive request. Each is counted, but for a routine on a transport that has none. -/
def answer : (request : Request) → Platform → request.Answer × Platform
  | .readIo8 address, p =>
    let (value, p) := p.counted.readIo address
    (.ok value, p)
  | .writeIo8 address value, p => (.ok (), p.counted.writeIo address value)
  | .readPci8 location offset, p => (.ok (UInt8.ofNat (p.config.read location offset 1)), p.counted)
  | .readPci16 location offset, p =>
    (.ok (UInt16.ofNat (p.config.read location offset 2)), p.counted)
  | .readPci32 location offset, p =>
    (.ok (UInt32.ofNat (p.config.read location offset 4)), p.counted)
  | .writePci8 location offset value, p =>
    (.ok (), { p.counted with config := p.config.write location offset 1 value.toNat })
  | .writePci16 location offset value, p =>
    (.ok (), { p.counted with config := p.config.write location offset 2 value.toNat })
  | .writePci32 location offset value, p =>
    (.ok (), { p.counted with config := p.config.write location offset 4 value.toNat })
  | .readMmio32 physical, p =>
    (.ok ((p.pm.map (·.readWindow physical)).getD 0xFFFFFFFF), p.counted)
  | .writeMmio8 physical value, p =>
    let p := p.counted
    let memoryWrites := p.counters.memoryWrites + 1
    (.ok (), { p with
      pm := p.pm.map (·.writeWindow physical value)
      counters := { p.counters with memoryWrites } })
  | .sleep us, p =>
    let p := p.counted
    ((), { p with counters := { p.counters with sleptUs := p.counters.sleptUs + us.toNat } })
  | .lock _, p => p.counted.takeLock
  | .unlock, p => (.ok (), { p.counted with lockHeld := false })
  | .delegate routine words answerWords, p =>
    match p.transport with
    | .direct => (Access.noRoutines .direct routine, p)
    | .delegated =>
      let (result, p) := p.counted.runRoutine routine words
      (result.map (fit answerWords), p)

end DimmBus.Platform
