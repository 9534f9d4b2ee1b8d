import DimmBus.Pci
import DimmBus.Spd.Generation
import DimmBus.Transaction
import DimmBus.Transport
/-!
# Failures

Every way in which an operation can fail, as a cause, and the text that reports it.
-/

namespace DimmBus

/-- What a host controller says about a transaction that ended badly. -/
inductive BusFault where
  /-- No slave acknowledged. -/
  | nak
  /-- Arbitration was lost. -/
  | collision
  /-- The controller gave the transaction up. -/
  | failed
  /-- The packet error code was wrong. -/
  | pec
deriving DecidableEq, Repr, Inhabited

def BusFault.text : BusFault → String
  | .nak => "no acknowledge"
  | .collision => "bus collision"
  | .failed => "transaction failed"
  | .pec => "PEC mismatch"

def Protocol.text : Protocol → String
  | .quick => "Quick"
  | .byte => "Byte"
  | .byteData => "ByteData"
  | .wordData => "WordData"
  | .procCall => "ProcCall"
  | .blockData => "BlockData"
  | .blockProcCall => "BlockProcCall"

def Direction.text : Direction → String
  | .write => "Write"
  | .read => "Read"

/-- A payload in a message: its shape, and its values in decimal. -/
def Payload.text : Payload → String
  | .none => "None"
  | .byte value => "Byte(" ++ toString value.toNat ++ ")"
  | .word value => "Word(" ++ toString value.toNat ++ ")"
  | .block data => "Block([" ++ ", ".intercalate (data.map fun b => toString b.toNat) ++ "])"

/-- What is wrong with a request or with an answer that was meant to fill it. -/
inductive Malformed where
  /-- The slave address has more than seven bits. -/
  | slave (address : UInt8)
  /-- A block to be sent is empty or too long. -/
  | blockLength (length : Nat)
  /-- The data does not fit the shape of the transaction. -/
  | mismatch (protocol : Protocol) (direction : Direction) (payload : Payload)
  /-- A device announced a block that is empty or too long. -/
  | returnedLength (length : UInt8)
  /-- The address lies past the end of the module. -/
  | spdAddress (generation : Generation) (address : UInt16)
  /-- There is no such slot. -/
  | slot (slot : UInt8)
  /-- The bus multiplexer has no such output. -/
  | busPort (part : String) (count requested : UInt8)
  /-- A delegated transfer came with too few words. -/
  | shortInput
  /-- A delegated transfer has no such protocol. -/
  | protocolCode (code : UInt64)
  /-- A cause that the access layer put into words. -/
  | reported (reason : String)
deriving DecidableEq, Repr

/-- What a controller, a module or an access layer does not offer. -/
inductive Missing where
  | blockBuffer (part : String)
  | blockProcCall (part : String)
  | procCall (part : String)
  | pec (part : String)
  /-- The block buffer did not switch on. -/
  | bufferEnable (part : String)
  /-- Firmware gave the Intel host no base address. -/
  | barAssigned (part : String) (location : Pci.Address)
  /-- Firmware gave the PIIX4-compatible host no base address. -/
  | baseAssigned (part : String) (location : Pci.Address)
  /-- Firmware switched the host off in configuration space. -/
  | hostEnabled (location : Pci.Address)
  /-- Firmware switched the host off in the power-management block. -/
  | pmEnabled (location : Pci.Address)
  | thermalSensor (slot : UInt8)
  /-- The transport runs no routines, or not this one. -/
  | routine (transport : Transport) (name : String)
  | knownRoutine (name : String)
  | portMultiplexer
  /-- A cause that the access layer put into words. -/
  | reported (reason : String)
deriving DecidableEq, Repr

/-- What went wrong in reaching the hardware. -/
inductive AccessFault where
  /-- The identity routine did not tell the base address. -/
  | identityWithoutBase
  /-- A transfer routine returned too few words. -/
  | shortAnswer (routine : String) (words : Nat)
  | expectedByte (got : Payload)
  | expectedWord (got : Payload)
  /-- The lock file cannot be opened. -/
  | lockFile (path : String)
  /-- A cause that the access layer put into words. -/
  | reported (reason : String)
deriving DecidableEq, Repr

/-- How an operation failed. -/
inductive Error where
  /-- The machine has no host controller that is known here. -/
  | noDevice
  /-- No module answers in the slot. -/
  | noModule (slot : UInt8)
  /-- The bus stayed occupied; `status` is what the host showed last. -/
  | busy (status : UInt8)
  /-- Completion did not come within the poll budget. -/
  | timeout (retries quantumUs : UInt32)
  /-- The host reported a fault. -/
  | bus (slave : UInt8) (protocol : Protocol) (fault : BusFault) (status : UInt8)
  | param (cause : Malformed)
  | unsupported (cause : Missing)
  | access (cause : AccessFault)
  /-- An access to a module that is known to be there failed. -/
  | spd (slot : UInt8) (address : UInt16) (protocol : Protocol) (source : Error)
deriving DecidableEq, Repr

instance : Inhabited Error := ⟨.noDevice⟩

/-- The bounds of a block's length, as messages show them. -/
def blockBounds : String := "1..=" ++ toString maxBlock

def Malformed.text : Malformed → String
  | .slave address => "slave address " ++ Hex.number 2 address.toNat ++ " is not 7-bit"
  | .blockLength length => "block length " ++ toString length ++ " outside " ++ blockBounds
  | .mismatch protocol direction payload =>
    protocol.text ++ " " ++ direction.text ++ " cannot carry " ++ payload.text
  | .returnedLength length =>
    "device returned block length " ++ toString length.toNat ++ " outside " ++ blockBounds
  | .spdAddress generation address =>
    generation.text ++ " address " ++ Hex.number 3 address.toNat ++ " out of range"
  | .slot number => "slot " ++ toString number.toNat ++ " outside 0.." ++ toString Spd.slotCount
  | .busPort part count requested =>
    part ++ " has " ++ toString count.toNat ++ " SMBus port(s), port " ++
      toString requested.toNat ++ " requested"
  | .shortInput => "short delegated input"
  | .protocolCode code => "protocol code " ++ toString code.toNat
  | .reported reason => reason

def Missing.text : Missing → String
  | .blockBuffer part => part ++ " has no block buffer"
  | .blockProcCall part => part ++ " has no block process call"
  | .procCall part => part ++ " has no process call"
  | .pec part => part ++ " has no hardware PEC"
  | .bufferEnable part => part ++ ": 32-byte buffer would not enable"
  | .barAssigned part location => part ++ " at " ++ location.text ++ ": SMBus BAR unassigned"
  | .baseAssigned part location => part ++ " at " ++ location.text ++ ": SMBus base unassigned"
  | .hostEnabled location => "host controller at " ++ location.text ++ " disabled by firmware"
  | .pmEnabled location => "SMBus at " ++ location.text ++ " disabled in the PM block"
  | .thermalSensor slot => "slot " ++ toString slot.toNat ++ " has no thermal sensor"
  | .routine transport name => transport.text ++ " transport cannot run " ++ name
  | .knownRoutine name => "unknown routine " ++ name
  | .portMultiplexer => "no port multiplexer"
  | .reported reason => reason

/-- Words that a delegated transfer returns. -/
def transferWords : Nat := 5

def AccessFault.text : AccessFault → String
  | .identityWithoutBase => "delegated identity carried no I/O base"
  | .shortAnswer routine words =>
    routine ++ " returned " ++ toString words ++ " words, expected " ++ toString transferWords
  | .expectedByte got => "expected a byte, got " ++ got.text
  | .expectedWord got => "expected a word, got " ++ got.text
  | .lockFile path => "Cannot open lock file " ++ path
  | .reported reason => reason

namespace Error

/-- The text that reports a failure. -/
def message : Error → String
  | .noDevice => "No supported SMBus controller detected"
  | .noModule slot => "No memory module detected in slot " ++ toString slot.toNat
  | .busy status => "SMBus busy (status " ++ Hex.number 2 status.toNat ++ ")"
  | .timeout retries quantumUs =>
    "SMBus timeout after " ++ toString retries.toNat ++ " polls of " ++
      toString quantumUs.toNat ++ "us"
  | .bus slave protocol fault status =>
    "SMBus " ++ protocol.text ++ " to " ++ Hex.number 2 slave.toNat ++ " failed: " ++ fault.text ++
      " (status " ++ Hex.number 2 status.toNat ++ ")"
  | .param cause => "Invalid request: " ++ cause.text
  | .unsupported cause => "Unsupported: " ++ cause.text
  | .access cause => "Bus access failed: " ++ cause.text
  | .spd slot address protocol source =>
    "SPD slot " ++ toString slot.toNat ++ " address " ++ Hex.number 3 address.toNat ++ " (" ++
      protocol.text ++ "): " ++ source.message

/-- Whether the same operation may succeed when it is tried again. -/
def isRetryable : Error → Bool
  | .busy _ | .timeout .. => true
  | .bus _ _ fault _ => fault = .collision
  | .spd _ _ _ source => source.isRetryable
  | _ => false

/-- Whether the addressed slave just did not answer. -/
def isNak : Error → Bool
  | .bus _ _ fault _ => fault = .nak
  | .spd _ _ _ source => source.isNak
  | _ => false

/-- The failure that this one reports a place for. -/
def source? : Error → Option Error
  | .spd _ _ _ source => some source
  | _ => none

/-- Every failure behind this one, nearest first. -/
def sources : Error → List Error
  | .spd _ _ _ source => source :: source.sources
  | _ => []

/-- The failure with the module address at which it happened. -/
def atSpd (e : Error) (slot : UInt8) (address : UInt16) (protocol : Protocol) : Error :=
  .spd slot address protocol e

end Error

end DimmBus
