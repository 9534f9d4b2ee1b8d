import DimmBus.Controller.Piix4.Parts
import DimmBus.LittleEndian
import DimmBus.Platform.RegisterFile
/-!
# Power-management block and mailbox

The registers that later PIIX4-compatible parts keep outside configuration space, and the mailbox of
the micro-controller beside them.
-/

namespace DimmBus

/-- The power-management block. -/
structure PmBlock where
  registers : RegisterFile 256 UInt8
  /-- The register that the data address reaches. -/
  index : UInt8
  /-- The block answers in its window only, not at the index and data addresses. -/
  windowOnly : Bool
  /-- The field of the bus multiplexer. -/
  selector : Piix4.Selector
deriving DecidableEq, Repr

namespace PmBlock

/-- The output that the bus multiplexer shows. -/
def selected (pm : PmBlock) : UInt8 :=
  pm.selector.get (pm.registers.read pm.selector.register.toNat)

/-- Sets the bus multiplexer. -/
def select (pm : PmBlock) (output : UInt8) : PmBlock :=
  let register := pm.selector.register.toNat
  { pm with registers :=
      pm.registers.write register (pm.selector.set (pm.registers.read register) output) }

/-- The register behind a physical address, if an aligned access of that width lies in the
window. -/
def inWindow? (physical : UInt64) (width : Nat) : Option Nat :=
  let start := Piix4.Pm.window.toNat
  let offset := physical.toNat - start
  if start ≤ physical.toNat ∧ offset + width ≤ Piix4.Pm.windowSize ∧ offset % width = 0 then
    some offset
  else none

/-- The aligned word at a physical address; ones outside the window. -/
def readWindow (pm : PmBlock) (physical : UInt64) : UInt32 :=
  match inWindow? physical 4 with
  | some offset =>
    UInt32.ofNat (LittleEndian.ofBytes ((List.range 4).map fun i => pm.registers.read (offset + i)))
  | none => 0xFFFFFFFF

/-- Sets the byte at a physical address; nothing changes outside the window. -/
def writeWindow (pm : PmBlock) (physical : UInt64) (value : UInt8) : PmBlock :=
  match inWindow? physical 1 with
  | some offset => { pm with registers := pm.registers.write offset value }
  | none => pm

end PmBlock

/-- The mailbox of the micro-controller, and whether it sleeps. -/
structure Mailbox where
  registers : RegisterFile 256 UInt8
  /-- The register that the data address reaches. -/
  index : UInt8
  asleep : Bool
deriving DecidableEq, Repr

namespace Mailbox

/-- Awake, with nothing in the mailbox. -/
def awake : Mailbox := ⟨RegisterFile.filled 256 0, 0, false⟩

/-- What a command asks for: to sleep or to wake. Other commands ask for nothing. -/
def wish? (command : UInt8) : Option Bool :=
  if command = Piix4.Imc.sleep then some true
  else if command = Piix4.Imc.wake then some false
  else none

/-- Stores a byte. A ring of the doorbell has the command carried out and acknowledged, and the flag
says whether that happened; a micro-controller that is silent only stores. -/
def write (m : Mailbox) (silent : Bool) (value : UInt8) : Mailbox × Bool :=
  let stored := { m with registers := m.registers.write m.index.toNat value }
  if m.index = Piix4.Imc.doorbell ∧ value = Piix4.Imc.ring ∧ !silent then
    match wish? (stored.registers.read Piix4.Imc.command.toNat) with
    | some asleep =>
      let registers := stored.registers.write Piix4.Imc.argument.toNat Piix4.Imc.acknowledged
      ({ stored with registers, asleep }, true)
    | none => (stored, false)
  else (stored, false)

end Mailbox

end DimmBus
