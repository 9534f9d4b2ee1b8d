import DimmBus.Controller.Discovery
import DimmBus.Controller.Ich.Parts
import DimmBus.Controller.Registers
import DimmBus.Delegated.Call
/-!
# Intel host controllers

A transaction looks whether the host is idle, loads the registers, sets the start bit and waits. A
transaction that does not come to an end is killed. Whatever happened, the last access writes the
status flags and the in-use semaphore back.
-/

namespace DimmBus

/-- An Intel host controller. -/
structure Ich where
  info : ControllerInfo
  /-- Wait for completion. -/
  poll : PollBudget
deriving DecidableEq, Repr, Inhabited

namespace Ich

open Access

/-- Whether a function is a known Intel host. -/
def isKnown (identity : Pci.Identity) : Bool :=
  identity.vendor = Pci.Vendor.intel && (part? identity.device).isSome

/-- Looks for a known host: at the two usual places, then on all of bus 0. -/
def detect : Transport → Attempt (Option Detected)
  | .delegated => do
    match ← ExceptT.lift (Delegated.identify Delegated.Routine.ichIdentity usualLocation) with
    | some found => return if isKnown found.identity then some found else none
    | none => return none
  | .direct => do
    let found ← Discovery.first isKnown (usualLocation :: laterLocation :: Discovery.bus0)
    return found.map (⟨·, none⟩)

def capabilities (f : Features) : Capabilities :=
  ⟨f.blockBuffer, f.blockProcCall, true, f.pec⟩

/-- A host configuration with the host switched on and I2C mode off. -/
def smbusMode (hostConfig : UInt8) : UInt8 :=
  (hostConfig ||| ConfigSpace.hostEnable) &&& ~~~ConfigSpace.i2cMode

/-- Resolves the base address of a direct host and switches the host on. Also tells whether writes
to module EEPROMs are blocked. -/
def resolve (part : Part) (location : Pci.Address) : Attempt (UInt16 × Bool) := do
  let bar ← readPci32 location ConfigSpace.baseRegister
  let base := UInt16.ofNat (bar &&& ConfigSpace.baseMask).toNat
  if base = 0 then
    throw (.unsupported (.barAssigned part.name location))
  else
    Discovery.enableIoSpace location
    let before ← readPci8 location ConfigSpace.hostConfig
    let wanted := smbusMode before
    if wanted ≠ before then
      writePci8 location ConfigSpace.hostConfig wanted
    return (base, hasAny wanted ConfigSpace.writeDisable)

/-- Base address and write protection, by transport. -/
def settle (part : Part) (found : Detected) : Transport → Attempt (UInt16 × Bool)
  | .delegated =>
    match found.ioBase with
    | some base => return (base, false)
    | none => throw (.access .identityWithoutBase)
  | .direct => resolve part found.identity.location

/-- Takes a host into use. -/
def init (transport : Transport) (found : Detected) (config : Config) : Attempt Ich := do
  match part? found.identity.device with
  | none => throw .noDevice
  | some part =>
    let (base, writeProtected) ← settle part found transport
    return {
      info := {
        family := .ich
        name := part.name
        identity := found.identity
        base
        transport
        capabilities := capabilities part.features
        traits := { writeProtected } }
      poll := config.ichPoll }

/-- Refuses what the part cannot carry. -/
def check (c : Ich) (tx : Transaction) : Except Error Unit :=
  let can := c.info.capabilities
  let name := c.info.name
  if tx.protocol = .blockData ∧ !can.block then .error (.unsupported (.blockBuffer name))
  else if tx.protocol = .blockProcCall ∧ !can.blockProcCall then
    .error (.unsupported (.blockProcCall name))
  else if tx.pec ∧ !can.pec then .error (.unsupported (.pec name))
  else .ok ()

/-- The I/O address of a register. -/
def register (c : Ich) (offset : UInt16) : UInt16 := c.info.base + offset

/-- The auxiliary features that a transaction needs. -/
def auxFor (tx : Transaction) : UInt8 :=
  (if tx.protocol.isBlock then AuxControl.blockBuffer else 0) |||
    (if tx.pec then AuxControl.crc else 0)

/-- Loads the command, and the data other than a block. -/
def loadCommand (c : Ich) (tx : Transaction) : Attempt Unit := do
  let command := writeIo8 (c.register HostRegister.command) tx.command
  match tx.protocol with
  | .quick => return
  | .byte => if tx.direction = .write then command else return
  | .byteData =>
    command
    match tx.payload.asByte with
    | some value => writeIo8 (c.register HostRegister.data0) value
    | none => return
  | .wordData | .procCall =>
    command
    match tx.payload.asWord with
    | some value => HostData.loadWord c.info.base value
    | none => return
  | .blockData | .blockProcCall => command

/-- Switches auxiliary features on. A block needs the buffer, which some parts do not switch on. -/
def enableAux (c : Ich) (tx : Transaction) (aux : UInt8) : Attempt Unit := do
  if aux ≠ 0 then
    let current ← readIo8 (c.register HostRegister.auxControl)
    writeIo8 (c.register HostRegister.auxControl) (current ||| aux)
    if tx.protocol.isBlock then
      let now ← readIo8 (c.register HostRegister.auxControl)
      if hasAny now AuxControl.blockBuffer then return
      else throw (.unsupported (.bufferEnable c.info.name))
    else return
  else return

/-- Loads all that a transaction needs. -/
def program (c : Ich) (tx : Transaction) : Attempt Unit := do
  writeIo8 (c.register HostRegister.address) tx.addressByte
  c.loadCommand tx
  c.enableAux tx (auxFor tx)
  match tx.payload.asBlock with
  | some data => HostData.loadBlock c.info.base data
  | none => return

/-- Waits for a final status, with so many looks left. -/
def awaitWithin (c : Ich) : Nat → Attempt UInt8
  | 0 => throw (.timeout c.poll.retries c.poll.quantumUs)
  | n + 1 => do
    sleep c.poll.quantumUs
    let status ← readIo8 (c.register HostRegister.status)
    if Status.isFinal status then return status else c.awaitWithin n

/-- Waits for a final status. -/
def await (c : Ich) : Attempt UInt8 := c.awaitWithin c.poll.retries.toNat

/-- Tells a wrong packet error code from a missing acknowledgement, and clears the former. -/
def deviceFault (c : Ich) (tx : Transaction) : Attempt BusFault := do
  if tx.pec then
    let aux ← readIo8 (c.register HostRegister.auxStatus)
    if hasAny aux crcError then
      writeIo8 (c.register HostRegister.auxStatus) crcError
      return .pec
    else return .nak
  else return .nak

/-- Fails with the fault that a final status shows, if it shows one. -/
def checkStatus (c : Ich) (tx : Transaction) (status : UInt8) : Attempt Unit :=
  let fail (fault : BusFault) : Attempt Unit := throw (.bus tx.slave tx.protocol fault status)
  if hasAny status Status.failed then fail .failed
  else if hasAny status Status.deviceError then do
    let fault ← c.deviceFault tx
    fail fault
  else if hasAny status Status.busError then fail .collision
  else return

/-- The control value that starts a transaction. -/
def startValue (tx : Transaction) : UInt8 :=
  Control.kind tx.protocol ||| Control.start ||| (if tx.pec then Control.pecEnable else 0)

/-- Starts the loaded transaction, waits for it and collects what it brings. -/
def execute (c : Ich) (tx : Transaction) : Attempt Payload := do
  writeIo8 (c.register HostRegister.control) (startValue tx)
  let status ← c.await
  c.checkStatus tx status
  HostData.collect c.info.base tx

/-- Switches auxiliary features off again. -/
def disableAux (c : Ich) (aux : UInt8) : Attempt Unit := do
  if aux ≠ 0 then
    let current ← readIo8 (c.register HostRegister.auxControl)
    writeIo8 (c.register HostRegister.auxControl) (current &&& ~~~aux)
  else return

/-- Runs a transaction on an idle host. -/
def runIdle (c : Ich) (tx : Transaction) : Attempt Payload := do
  c.program tx
  let result ← (c.execute tx).outcome
  c.disableAux (auxFor tx)
  Attempt.ofExcept result

/-- Runs a transaction, unless the host is busy. Flags that were left over are cleared first. -/
def transact (c : Ich) (tx : Transaction) : Attempt Payload := do
  let status ← readIo8 (c.register HostRegister.status)
  if hasAny status Status.hostBusy then
    writeIo8 (c.register HostRegister.status) (status &&& Status.flags)
    throw (.busy status)
  else if hasAny status Status.flags then
    writeIo8 (c.register HostRegister.status) (status &&& Status.flags)
    c.runIdle tx
  else
    c.runIdle tx

/-- Gives up whatever the host is doing. Best effort. -/
def kill (c : Ich) : Access Unit := Attempt.quietly do
  writeIo8 (c.register HostRegister.control) Control.kill
  sleep killDelayUs
  writeIo8 (c.register HostRegister.control) 0
  readIo8 (c.register HostRegister.status)

/-- Whether a failure may leave the host in the middle of a transaction. -/
def leavesRunning : Error → Bool
  | .timeout .. | .access _ => true
  | _ => false

/-- Clears the status flags and frees the in-use semaphore. Best effort. -/
def cleanUp (c : Ich) : Access Unit := Attempt.quietly do
  writeIo8 (c.register HostRegister.status) (Status.inUse ||| Status.flags)

/-- Runs one transaction through the registers. -/
def transferDirect (c : Ich) (tx : Transaction) : Attempt Payload := do
  let result ← (c.transact tx).outcome
  match result with
  | .error e => if leavesRunning e then ExceptT.lift c.kill
  | .ok _ => pure ()
  ExceptT.lift c.cleanUp
  Attempt.ofExcept result

/-- Runs one checked transaction. The caller holds the bus lock. -/
def transfer (c : Ich) (tx : Transaction) : Attempt Payload :=
  match c.info.transport with
  | .delegated => Delegated.transfer Delegated.Routine.ichTransfer tx
  | .direct => c.transferDirect tx

end Ich

end DimmBus
