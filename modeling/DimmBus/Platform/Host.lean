import DimmBus.Controller.Ich.Parts
import DimmBus.Controller.Piix4.Parts
import DimmBus.Controller.Registers
import DimmBus.Platform.Segment
/-!
# Simulated host controllers

The registers of a host as the processor sees them.
-/

namespace DimmBus

/-- What kind of host it is. -/
inductive HostModel where
  | ich (features : Ich.Features)
  | piix4
deriving DecidableEq, Repr

/-- A host controller. -/
structure Host where
  model : HostModel
  base : UInt16
  location : Pci.Address
  status : UInt8 := 0
  control : UInt8 := 0
  command : UInt8 := 0
  address : UInt8 := 0
  data0 : UInt8 := 0
  data1 : UInt8 := 0
  block : Vector UInt8 32 := Vector.replicate 32 0
  /-- Where the next access to the block register goes. -/
  blockIndex : Nat := 0
  auxControl : UInt8 := 0
  auxStatus : UInt8 := 0
  slaveControl : UInt8 := 0
  inUse : Bool := false
  /-- A transaction was started and does not come to an end. -/
  stalled : Bool := false
deriving DecidableEq, Repr

/-- What else a register write sets off. -/
inductive HostEvent where
  | none
  | kill
  | start
deriving DecidableEq, Repr

namespace Host

/-- The register that an I/O address reaches, if it reaches one. -/
def decode? (h : Host) (address : UInt16) : Option UInt16 :=
  if h.base ≤ address ∧ address - h.base < 0x10 then some (address - h.base) else none

def isPiix4 (h : Host) : Bool := h.model = .piix4

/-- Reads a register. `stuck` makes the host look busy, and `semaphoreHeld` takes the semaphore from
it. -/
def read (h : Host) (stuck semaphoreHeld : Bool) (register : UInt16) : UInt8 × Host :=
  if register = HostRegister.status then
    let shown := h.status ||| (if h.stalled || stuck then Status.hostBusy else 0)
    if h.isPiix4 then (shown, h)
    else (shown ||| (if h.inUse then Status.inUse else 0), { h with inUse := true })
  else if register = HostRegister.control then
    (h.control &&& ~~~Control.start, { h with blockIndex := 0 })
  else if register = HostRegister.command then (h.command, h)
  else if register = HostRegister.address then (h.address, h)
  else if register = HostRegister.data0 then (h.data0, h)
  else if register = HostRegister.data1 then (h.data1, h)
  else if register = HostRegister.block then
    ((h.block[h.blockIndex]?).getD 0, { h with blockIndex := h.blockIndex + 1 })
  else if register = HostRegister.slaveControl ∧ h.isPiix4 then
    (if semaphoreHeld then h.slaveControl &&& ~~~Piix4.SlaveControl.hostSemaphore
      else h.slaveControl, h)
  else if register = HostRegister.auxStatus then (h.auxStatus, h)
  else if register = HostRegister.auxControl then (h.auxControl, h)
  else (0xFF, h)

/-- The auxiliary features that a host can switch on. -/
def auxMask : HostModel → UInt8
  | .ich f =>
    (if f.pec then Ich.AuxControl.crc else 0) |||
      (if f.blockBuffer then Ich.AuxControl.blockBuffer else 0)
  | .piix4 => 0

/-- Writes the control register. A kill wins over a start, and ends a transaction that is
stalled. -/
def writeControl (h : Host) (value : UInt8) : Host × HostEvent :=
  let h := { h with control := value }
  if hasAny value Control.kill then
    if h.stalled then ({ h with stalled := false, status := h.status ||| Status.failed }, .kill)
    else (h, .kill)
  else if hasAny value Control.start then (h, .start)
  else (h, .none)

/-- Writes a register. -/
def write (h : Host) (register : UInt16) (value : UInt8) : Host × HostEvent :=
  if register = HostRegister.status then
    ({ h with
        status := h.status &&& ~~~(value &&& ~~~Status.hostBusy &&& ~~~Status.inUse)
        inUse := h.inUse && !hasAny value Status.inUse }, .none)
  else if register = HostRegister.control then h.writeControl value
  else if register = HostRegister.command then ({ h with command := value }, .none)
  else if register = HostRegister.address then ({ h with address := value }, .none)
  else if register = HostRegister.data0 then ({ h with data0 := value }, .none)
  else if register = HostRegister.data1 then ({ h with data1 := value }, .none)
  else if register = HostRegister.block then
    ({ h with
        block := h.block.setIfInBounds h.blockIndex value
        blockIndex := h.blockIndex + 1 }, .none)
  else if register = HostRegister.slaveControl ∧ h.isPiix4 then
    ({ h with slaveControl :=
        if hasAny value Piix4.SlaveControl.hostRelease then
          h.slaveControl &&& ~~~Piix4.SlaveControl.hostSemaphore
        else value }, .none)
  else if register = HostRegister.auxStatus then
    ({ h with auxStatus := h.auxStatus &&& ~~~value }, .none)
  else if register = HostRegister.auxControl then
    ({ h with auxControl := value &&& auxMask h.model }, .none)
  else (h, .none)

/-- The protocol that the control register asks for, if the host has it. -/
def protocol? (h : Host) : Option Protocol :=
  let kind := h.control &&& Control.kindMask
  let known : List Protocol :=
    if h.isPiix4 then [.quick, .byte, .byteData, .wordData, .blockData]
    else [.quick, .byte, .byteData, .wordData, .procCall, .blockData, .blockProcCall]
  known.find? fun p => Control.kind p == kind

/-- The operation that the loaded registers describe. -/
def loaded (h : Host) (protocol : Protocol) : Transfer where
  slave := h.address >>> 1
  direction := if h.address &&& 1 = 0 then .write else .read
  command := h.command
  protocol
  word := LittleEndian.word h.data0 h.data1
  block := h.block.toList.take h.data0.toNat

/-- Whether the started transaction checks its packet error code. -/
def wantsPec (h : Host) : Bool := !h.isPiix4 && hasAny h.control Control.pecEnable

/-- Bytes over the front of the block buffer. -/
def fillBlock (block : Vector UInt8 32) (data : List UInt8) : Vector UInt8 32 :=
  Vector.ofFn fun i => data.getD i.val block[i]

/-- The host after its transaction came to an end: nobody acknowledged, the packet error code was
wrong, or a reply arrived. -/
def complete (h : Host) (pecError : Bool) : Option Reply → Host
  | none => { h with status := h.status ||| Status.deviceError }
  | some reply =>
    if h.wantsPec && pecError then
      { h with
        status := h.status ||| Status.deviceError
        auxStatus := h.auxStatus ||| Ich.crcError }
    else
      let h := { h with status := h.status ||| Status.interrupt }
      match reply with
      | .ack => h
      | .byte value => { h with data0 := value }
      | .word value => { h with data0 := LittleEndian.low value, data1 := LittleEndian.high value }
      | .block data =>
        { h with
          data0 := UInt8.ofNat (data.take maxBlock).length
          block := fillBlock h.block data
          blockIndex := 0 }

end Host

end DimmBus
