import DimmBus.Controller.Discovery
import DimmBus.Controller.Piix4.Parts
import DimmBus.Controller.Registers
import DimmBus.Delegated.Call
/-!
# PIIX4-compatible host controllers

All parts share one way to run a transaction. On SB800-class parts it is wrapped: the host semaphore
is taken, the micro-controller is sent to sleep, and the bus multiplexer is switched; afterwards
these are undone in the opposite order.
-/

namespace DimmBus

namespace Piix4

open Access

/-- How the power-management block is reached. -/
inductive PmAccess where
  /-- Through its index and data addresses. -/
  | indexData
  /-- Through the memory-mapped window. -/
  | window
deriving DecidableEq, Repr, Inhabited

namespace PmAccess

/-- Reads a register of the block. -/
def read (pm : PmAccess) (index : UInt8) : Attempt UInt8 :=
  match pm with
  | .indexData => do
    writeIo8 Pm.index index
    readIo8 Pm.data
  | .window => do
    let word ← readMmio32 (Pm.window + (index &&& ~~~3).toUInt64)
    return LittleEndian.digit word.toNat (index.toNat % 4)

/-- Writes a register of the block. Through the window only this byte is written, since its
neighbours enable the decoding of other addresses. -/
def write (pm : PmAccess) (index value : UInt8) : Attempt Unit :=
  match pm with
  | .indexData => do
    writeIo8 Pm.index index
    writeIo8 Pm.data value
  | .window => writeMmio8 (Pm.window + index.toUInt64) value

end PmAccess

/-- What bring-up finds out about an SB800-class part. -/
structure Sb800 where
  pm : PmAccess
  selector : Selector
  /-- Whether a micro-controller shares the bus. -/
  notifyImc : Bool
deriving DecidableEq, Repr, Inhabited

end Piix4

/-- A PIIX4-compatible host controller. -/
structure Piix4 where
  info : ControllerInfo
  /-- Wait for completion. -/
  poll : PollBudget
  /-- Present on SB800-class parts that are driven directly. -/
  sb800 : Option Piix4.Sb800
  /-- Output of the bus multiplexer that transactions go to. -/
  port : UInt8
deriving DecidableEq, Repr, Inhabited

namespace Piix4

open Access

/-! ## Bring-up -/

/-- Whether a function is a known part. -/
def isKnown (identity : Pci.Identity) : Bool := (part? identity.vendor identity.device).isSome

/-- Looks for a known part on bus 0. -/
def detect : Transport → Attempt (Option Detected)
  | .delegated => do
    match ← ExceptT.lift (Delegated.identify Delegated.Routine.piix4Identity amdLocation) with
    | some found => return if isKnown found.identity then some found else none
    | none => return none
  | .direct => do
    let found ← Discovery.first isKnown Discovery.bus0
    return found.map (⟨·, none⟩)

/-- The base address of a part that has it in configuration space, 0 if there is none. -/
def resolveLegacy (identity : Pci.Identity) : Attempt UInt16 := do
  let location := identity.location
  let register ← readPci16 location (baseRegister identity.vendor identity.device)
  let base := register &&& ConfigSpace.baseMask
  if base = 0 then
    return 0
  else
    let hostConfig ← readPci8 location ConfigSpace.hostConfig
    if hasAny hostConfig ConfigSpace.hostEnable then
      Discovery.enableIoSpace location
      return base
    else
      throw (.unsupported (.hostEnabled location))

/-- The enable bit and the base address in the power-management block. -/
def pmBase (identity : Pci.Identity) (pm : PmAccess) : Attempt (Bool × UInt16) := do
  if usesFchEnable identity.vendor identity.device identity.revision then
    let lo ← pm.read Pm.fchEnable
    let hi ← pm.read (Pm.fchEnable + 1)
    return (hasAny lo Pm.fchEnableBit, LittleEndian.word 0 hi)
  else
    let lo ← pm.read Pm.sb800Enable
    let hi ← pm.read (Pm.sb800Enable + 1)
    return (hasAny lo Pm.sb800EnableBit, LittleEndian.word lo hi &&& Pm.sb800BaseMask)

/-- The field that sets the bus multiplexer. -/
def findSelector (identity : Pci.Identity) (pm : PmAccess) : Attempt Selector := do
  if identity.vendor = Pci.Vendor.ati then
    let choice ← pm.read Selector.choice
    return if hasAny choice 1 then .alternate else .primary
  else if usesKernczSelector identity.vendor identity.device identity.revision then
    return .kerncz
  else
    return .alternate

/-- Whether a micro-controller shares the bus and is running. -/
def findImc (identity : Pci.Identity) : Attempt Bool := do
  if identity.device = DeviceId.kerncz then
    match ← Discovery.identity Imc.bridge with
    | some _ =>
      let config ← readPci8 Imc.bridge Imc.bridgeConfig
      return hasAny config Imc.active
    | none => return false
  else
    return false

/-- Base address and layout of an SB800-class part. -/
def resolveSb800 (identity : Pci.Identity) : Attempt (UInt16 × Sb800) := do
  let pm : PmAccess :=
    if usesPmWindow identity.vendor identity.device identity.revision then .window else .indexData
  let (enabled, base) ← pmBase identity pm
  if enabled then
    let selector ← findSelector identity pm
    let notifyImc ← findImc identity
    return (base, ⟨pm, selector, notifyImc⟩)
  else
    throw (.unsupported (.pmEnabled identity.location))

/-- Base address and layout, by transport. -/
def settle (found : Detected) : Transport → Attempt (UInt16 × Option Sb800)
  | .delegated =>
    match found.ioBase with
    | some base => return (base, none)
    | none => throw (.access .identityWithoutBase)
  | .direct =>
    let identity := found.identity
    if isSb800 identity.vendor identity.device identity.revision then do
      let (base, sb800) ← resolveSb800 identity
      return (base, some sb800)
    else do
      let base ← resolveLegacy identity
      return (base, none)

/-- Takes a host into use. -/
def init (transport : Transport) (found : Detected) (config : Config) : Attempt Piix4 := do
  let identity := found.identity
  let ports := portCount identity.vendor identity.device identity.revision
  match part? identity.vendor identity.device with
  | none => throw .noDevice
  | some part =>
    if ports ≤ config.piix4Port then
      throw (.param (.busPort part.name ports config.piix4Port))
    else
      let (base, sb800) ← settle found transport
      if base = 0 then
        throw (.unsupported (.baseAssigned part.name identity.location))
      else
        return {
          info := {
            family := .piix4
            name := part.name
            identity
            base
            transport
            capabilities := ⟨true, false, false, false⟩
            traits := {
              memoryMappedBase := sb800.any fun s => s.pm = .window
              postStartDelay := needsStartDelay identity.vendor identity.device
              notifiesImc := sb800.any fun s => s.notifyImc } }
          poll := config.piix4Poll
          sb800
          port := config.piix4Port }

/-! ## Transactions -/

/-- Refuses what the family cannot carry. -/
def check (c : Piix4) (tx : Transaction) : Except Error Unit :=
  let name := c.info.name
  if tx.protocol = .procCall ∨ tx.protocol = .blockProcCall then
    .error (.unsupported (.procCall name))
  else if tx.pec then .error (.unsupported (.pec name))
  else .ok ()

/-- The I/O address of a register. -/
def register (c : Piix4) (offset : UInt16) : UInt16 := c.info.base + offset

/-- The kind of transaction: the family has no process calls of its own. -/
def kind : Protocol → UInt8
  | .procCall => Control.kind .wordData
  | .blockProcCall => Control.kind .blockData
  | protocol => Control.kind protocol

/-- Fails unless the status is clear, after trying to clear it. -/
def clearStatus (c : Piix4) : Attempt Unit := do
  let status ← readIo8 (c.register HostRegister.status)
  if status = 0 then
    return
  else
    writeIo8 (c.register HostRegister.status) status
    let again ← readIo8 (c.register HostRegister.status)
    if again = 0 then return else throw (.busy again)

/-- Loads the command byte of the transactions that have one. -/
def loadCommand (c : Piix4) (tx : Transaction) : Attempt Unit :=
  let command := writeIo8 (c.register HostRegister.command) tx.command
  match tx.protocol with
  | .quick => return
  | .byte => if tx.direction = .write then command else return
  | _ => command

/-- Loads address, command and data. -/
def program (c : Piix4) (tx : Transaction) : Attempt Unit := do
  writeIo8 (c.register HostRegister.address) tx.addressByte
  c.loadCommand tx
  match tx.payload with
  | .none => return
  | .byte value => writeIo8 (c.register HostRegister.data0) value
  | .word value => HostData.loadWord c.info.base value
  | .block data => HostData.loadBlock c.info.base data

/-- Sets the kind of transaction, then the start bit, and gives the host time to begin. -/
def start (c : Piix4) (tx : Transaction) : Attempt Unit := do
  writeIo8 (c.register HostRegister.control) (kind tx.protocol)
  let control ← readIo8 (c.register HostRegister.control)
  writeIo8 (c.register HostRegister.control) (control ||| Control.start)
  sleep (if c.info.traits.postStartDelay then longStartDelayUs else startDelayUs)

/-- Waits for a final status, with so many looks left; `last` is the status seen last. A wait that
ends without one clears the flags for the next transaction, as the family has no kill. -/
def awaitWithin (c : Piix4) : Nat → (last : UInt8) → Attempt UInt8
  | 0, last => do
    writeIo8 (c.register HostRegister.status) last
    throw (.timeout c.poll.retries c.poll.quantumUs)
  | n + 1, _ => do
    sleep c.poll.quantumUs
    let status ← readIo8 (c.register HostRegister.status)
    if Status.isFinal status then return status else c.awaitWithin n status

/-- Waits for a final status. -/
def await (c : Piix4) : Attempt UInt8 := c.awaitWithin c.poll.retries.toNat 0

/-- The fault that a final status shows. -/
def faultOf (status : UInt8) : Option BusFault :=
  if hasAny status Status.failed then some .failed
  else if hasAny status Status.busError then some .collision
  else if hasAny status Status.deviceError then some .nak
  else none

/-- Runs one transaction through the registers. -/
def transact (c : Piix4) (tx : Transaction) : Attempt Payload := do
  c.clearStatus
  c.program tx
  c.start tx
  let status ← c.await
  writeIo8 (c.register HostRegister.status) status
  let _ ← readIo8 (c.register HostRegister.status)
  match faultOf status with
  | some fault => throw (.bus tx.slave tx.protocol fault status)
  | none => HostData.collect c.info.base tx

/-! ## The wrapping of SB800-class parts -/

/-- Asks for the host semaphore, with so many attempts left; `last` is what the host showed last. -/
def acquireWithin (c : Piix4) : Nat → (last : UInt8) → Attempt Unit
  | 0, last => throw (.busy last)
  | n + 1, _ => do
    let current ← readIo8 (c.register HostRegister.slaveControl)
    writeIo8 (c.register HostRegister.slaveControl) (current ||| SlaveControl.hostSemaphore)
    let value ← readIo8 (c.register HostRegister.slaveControl)
    if hasAny value SlaveControl.hostSemaphore then
      return
    else
      sleep semaphoreQuantumUs
      c.acquireWithin n value

/-- Takes the host semaphore that is shared with firmware. -/
def acquire (c : Piix4) : Attempt Unit := c.acquireWithin semaphorePolls 0

/-- Gives the host semaphore back. Best effort. -/
def release (c : Piix4) : Access Unit := Attempt.quietly do
  let current ← readIo8 (c.register HostRegister.slaveControl)
  writeIo8 (c.register HostRegister.slaveControl) (current ||| SlaveControl.hostRelease)

/-- Writes a mailbox register. -/
def writeMailbox (index value : UInt8) : Attempt Unit := do
  writeIo8 Imc.index index
  writeIo8 Imc.data value

/-- Waits for the micro-controller's acknowledgement, with so many looks left. -/
def awaitImc : Nat → Attempt Bool
  | 0 => return false
  | n + 1 => do
    writeIo8 Imc.index Imc.argument
    let answer ← readIo8 Imc.data
    if answer = Imc.acknowledged then
      return true
    else
      sleep imcQuantumUs
      awaitImc n

/-- Sends a command to the micro-controller and waits for its acknowledgement. -/
def imcHandshake (command : UInt8) : Attempt Bool := do
  writeMailbox Imc.argument 0
  writeMailbox Imc.command command
  writeMailbox Imc.doorbell Imc.ring
  awaitImc imcPolls

/-- Whether the micro-controller acknowledged a command. -/
def imcCommand (command : UInt8) : Access Bool := do
  match ← (imcHandshake command).run with
  | .ok acknowledged => return acknowledged
  | .error _ => return false

/-- Runs a program with the bus multiplexer switched to the wanted output. -/
def withPort (c : Piix4) (s : Sb800) (body : Attempt α) : Attempt α := do
  let saved ← s.pm.read s.selector.register
  let wanted := s.selector.set saved c.port
  if wanted = saved then
    body
  else
    s.pm.write s.selector.register wanted
    let result ← body.outcome
    ExceptT.lift (s.pm.write s.selector.register saved).quietly
    Attempt.ofExcept result

/-- Runs one transaction on an SB800-class part. -/
def transferSb800 (c : Piix4) (s : Sb800) (tx : Transaction) : Attempt Payload := do
  c.acquire
  let asleep ← if s.notifyImc then ExceptT.lift (imcCommand Imc.sleep) else pure false
  let result ← (c.withPort s (c.transact tx)).outcome
  if asleep then
    let _ ← ExceptT.lift (imcCommand Imc.wake)
  ExceptT.lift c.release
  Attempt.ofExcept result

/-- Runs one transaction through the routines; on another output than the first, between two
switches of the bus multiplexer. -/
def transferDelegated (c : Piix4) (tx : Transaction) : Attempt Payload := do
  if c.port = 0 then
    Delegated.transfer Delegated.Routine.piix4Transfer tx
  else
    let select := Delegated.Routine.piix4SelectPort
    let answer ← delegate select [c.port.toUInt64] 1
    let result ← (Delegated.transfer Delegated.Routine.piix4Transfer tx).outcome
    ExceptT.lift (delegate select [answer.headD 0] 1).quietly
    Attempt.ofExcept result

/-- Runs one checked transaction. The caller holds the bus lock. -/
def transfer (c : Piix4) (tx : Transaction) : Attempt Payload :=
  match c.info.transport, c.sb800 with
  | .delegated, _ => c.transferDelegated tx
  | .direct, some s => c.transferSb800 s tx
  | .direct, none => c.transact tx

end Piix4

end DimmBus
