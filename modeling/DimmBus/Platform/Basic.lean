import DimmBus.Controller.Info
import DimmBus.Platform.ConfigSpace
import DimmBus.Platform.Host
import DimmBus.Platform.PmBlock
/-!
# Simulated machines

Everything that primitive requests reach, in one value: configuration space, hosts, the
power-management block, a mailbox, the modules on the bus, the bus lock, and counters of what was
asked for. Time passes only on a counter.
-/

namespace DimmBus

/-- Misbehaviour that can be switched on. -/
inductive Fault where
  /-- The host looks busy for ever, even after a kill. -/
  | stuckBusy
  /-- A started transaction does not come to an end until it is killed. -/
  | stall
  /-- Every packet error code is wrong. -/
  | pecError
  /-- Firmware holds the host semaphore. -/
  | semaphoreHeld
  /-- The micro-controller does not acknowledge. -/
  | imcSilent
  /-- Somebody else holds the bus lock. -/
  | lockContended
deriving DecidableEq, Repr, Inhabited

/-- A transaction that reached the bus. -/
structure LoggedTransfer where
  slave : UInt8
  direction : Direction
  command : UInt8
  protocol : Protocol
deriving DecidableEq, Repr, Inhabited

/-- What was asked of the machine. -/
structure Counters where
  /-- Primitive requests. -/
  calls : Nat := 0
  /-- Transactions started. -/
  starts : Nat := 0
  /-- Kills of transactions. -/
  kills : Nat := 0
  /-- Times that the bus lock was taken. -/
  locks : Nat := 0
  /-- Time slept, in microseconds. -/
  sleptUs : Nat := 0
  /-- Commands that the micro-controller acknowledged. -/
  handshakes : Nat := 0
  /-- Writes to physical memory. -/
  memoryWrites : Nat := 0
  /-- The transactions that reached the bus, in order. -/
  log : Array LoggedTransfer := #[]
deriving DecidableEq, Repr, Inhabited

namespace Counters

/-- Transactions that addressed a slave. -/
def transfersTo (c : Counters) (slave : UInt8) : Nat := c.log.countP fun t => t.slave = slave

/-- Writes that addressed a slave. -/
def writesTo (c : Counters) (slave : UInt8) : Nat :=
  c.log.countP fun t => t.slave = slave ∧ t.direction = .write

end Counters

/-- A machine. -/
structure Platform where
  transport : Transport := .direct
  config : ConfigSpace := []
  ich : Option Host := none
  piix4 : Option Host := none
  pm : Option PmBlock := none
  mailbox : Option Mailbox := none
  segment : Segment := .empty
  faults : List Fault := []
  lockHeld : Bool := false
  counters : Counters := {}
deriving Repr

namespace Platform

instance : Inhabited Platform := ⟨{}⟩

def has (p : Platform) (fault : Fault) : Bool := p.faults.contains fault

/-- Switches a fault on. -/
def inject (p : Platform) (fault : Fault) : Platform :=
  if p.has fault then p else { p with faults := fault :: p.faults }

/-- Switches every fault off, and ends what they left stalled. -/
def clearFaults (p : Platform) : Platform :=
  { p with
    faults := []
    ich := p.ich.map fun h => { h with stalled := false }
    piix4 := p.piix4.map fun h => { h with stalled := false } }

def resetCounters (p : Platform) : Platform := { p with counters := {} }

/-- The host of a family. -/
def host? (p : Platform) : Family → Option Host
  | .ich => p.ich
  | .piix4 => p.piix4

/-- Puts a host back. -/
def setHost (p : Platform) (h : Host) : Platform :=
  if h.isPiix4 then { p with piix4 := some h } else { p with ich := some h }

/-- The host that answers at an I/O address, and the register there. -/
def decode? (p : Platform) (address : UInt16) : Option (Host × UInt16) :=
  let at? (h? : Option Host) := do
    let h ← h?
    let register ← h.decode? address
    return (h, register)
  at? p.ich <|> at? p.piix4

/-- Whether the modules are on the bus: PIIX4-compatible hosts reach them at output 0 of the
multiplexer. -/
def connected (p : Platform) (isPiix4 : Bool) : Bool :=
  !isPiix4 || p.pm.all fun pm => pm.selected = 0

/-- Sends a transaction to the bus. None if nobody acknowledges it. -/
def runTransfer (p : Platform) (isPiix4 : Bool) (t : Transfer) : Option Reply × Platform :=
  let entry := ⟨t.slave, t.direction, t.command, t.protocol⟩
  let p := { p with counters :=
    { p.counters with starts := p.counters.starts + 1, log := p.counters.log.push entry } }
  if p.connected isPiix4 then
    let (reply, segment) := p.segment.execute t
    (reply, { p with segment })
  else (none, p)

/-- Starts the transaction that is loaded in a host. -/
def start (p : Platform) (h : Host) : Platform :=
  if p.has .stall || p.has .stuckBusy then
    { p.setHost { h with stalled := true } with
      counters := { p.counters with starts := p.counters.starts + 1 } }
  else
    match h.protocol? with
    | none => p.setHost { h with status := h.status ||| Status.deviceError }
    | some protocol =>
      let (reply, p) := p.runTransfer h.isPiix4 (h.loaded protocol)
      p.setHost (h.complete (p.has .pecError) reply)

end Platform

end DimmBus
