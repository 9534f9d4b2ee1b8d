import DimmBus.Delegated.Words
import DimmBus.Platform.Basic
/-!
# Delegated routines of a simulated machine

What stands on the other side of the call when transactions are delegated. A routine works on the
same hosts and modules as the registers do.
-/

namespace DimmBus.Platform

open Delegated

/-- What the machine does when a host of a family is asked for its identity: the first dword of the
header, the revision with ones above it, and the base address. -/
def identityOf (p : Platform) (family : Family) : Except Error (List UInt64) :=
  match p.host? family with
  | none => .error .noDevice
  | some h =>
    let ids := p.config.read h.location Pci.Header.vendorId 4
    let revision := p.config.read h.location Pci.Header.revision 1
    .ok [UInt64.ofNat ids, UInt64.ofNat (revision + 0xFFFFFF00), h.base.toUInt64]

/-- The operation that the words of a transfer describe, given its protocol. Names of slaves and
commands are low bytes, and every direction but 0 is a read. -/
def transferOf (words : List UInt64) (protocol : Protocol) : Transfer :=
  let buffer := unpack (words.drop 4)
  { slave := UInt8.ofNat (words.getD 0 0).toNat
    direction := if words.getD 1 0 = 0 then .write else .read
    command := UInt8.ofNat (words.getD 2 0).toNat
    protocol
    word := buffer.word
    block := (buffer.toList.drop 1).take (min buffer.byte.toNat maxBlock) }

/-- The bytes that stand for a reply. -/
def replyBytes : Reply → List UInt8
  | .ack => []
  | .byte value => payloadBytes (.byte value)
  | .word value => payloadBytes (.word value)
  | .block data => payloadBytes (.block data)

/-- The wait for completion on the other side. -/
def pollOf : Family → PollBudget
  | .ich => .ich
  | .piix4 => .piix4

/-- Runs a transaction for a family. -/
def transferFor (p : Platform) (family : Family) (words : List UInt64) :
    Except Error (List UInt64) × Platform :=
  if words.length < inputWords then (.error (.param .shortInput), p)
  else if (p.host? family).isNone then (.error .noDevice, p)
  else if p.has .stuckBusy then (.error (.busy Status.hostBusy), p)
  else if p.has .stall then
    let budget := pollOf family
    let c := p.counters
    let counters :=
      { c with
        starts := c.starts + 1
        kills := c.kills + 1
        sleptUs := c.sleptUs + budget.worstCaseUs }
    (.error (.timeout budget.retries budget.quantumUs), { p with counters })
  else
    let code := words.getD 3 0
    match protocolOf? code with
    | none => (.error (.param (.protocolCode code)), p)
    | some protocol =>
      let t := transferOf words protocol
      let (reply, p) := p.runTransfer (family = .piix4) t
      match reply with
      | none => (.error (.bus t.slave protocol .nak Status.deviceError), p)
      | some reply => (.ok (pack (.ofBytes (replyBytes reply))).toList, p)

/-- Sets the bus multiplexer and tells what it showed before. -/
def selectPort (p : Platform) (words : List UInt64) : Except Error (List UInt64) × Platform :=
  match p.pm with
  | none => (.error (.unsupported .portMultiplexer), p)
  | some pm =>
    let output := UInt8.ofNat (words.getD 0 0).toNat
    (.ok [pm.selected.toUInt64], { p with pm := some (pm.select output) })

/-- Runs a routine. -/
def runRoutine (p : Platform) (routine : String) (words : List UInt64) :
    Except Error (List UInt64) × Platform :=
  if routine = Routine.ichIdentity then (p.identityOf .ich, p)
  else if routine = Routine.piix4Identity then (p.identityOf .piix4, p)
  else if routine = Routine.ichTransfer then p.transferFor .ich words
  else if routine = Routine.piix4Transfer then p.transferFor .piix4 words
  else if routine = Routine.piix4SelectPort then p.selectPort words
  else (.error (.unsupported (.knownRoutine routine)), p)

/-- Cuts an answer to the words that are wanted, or fills it up with zeros. -/
def fit (count : Nat) (words : List UInt64) : List UInt64 :=
  words.take count ++ List.replicate (count - words.length) 0

end DimmBus.Platform
