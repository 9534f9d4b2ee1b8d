import DimmBus.Error
/-!
# Access to the machine

All that the controllers know about the machine goes through a handful of primitive requests. A
program over them is a tree: a request at each inner node, and a continuation for each answer the
machine may give. Nothing is assumed about the answers; `Access.run` feeds a program from a machine.
-/

namespace DimmBus

/-- A primitive access to the machine. -/
inductive Request where
  | readIo8 (address : UInt16)
  | writeIo8 (address : UInt16) (value : UInt8)
  | readPci8 (location : Pci.Address) (offset : UInt8)
  | readPci16 (location : Pci.Address) (offset : UInt8)
  | readPci32 (location : Pci.Address) (offset : UInt8)
  | writePci8 (location : Pci.Address) (offset value : UInt8)
  | writePci16 (location : Pci.Address) (offset : UInt8) (value : UInt16)
  | writePci32 (location : Pci.Address) (offset : UInt8) (value : UInt32)
  /-- An aligned word of physical memory. -/
  | readMmio32 (physical : UInt64)
  /-- One byte of physical memory; its neighbours stay as they are. -/
  | writeMmio8 (physical : UInt64) (value : UInt8)
  | sleep (us : UInt32)
  /-- Take the system-wide bus lock. -/
  | lock (timeoutUs : Nat)
  | unlock
  /-- Run a named routine on words; `answerWords` of them are wanted back. -/
  | delegate (routine : String) (words : List UInt64) (answerWords : Nat)
deriving DecidableEq, Repr

/-- What a request is answered with. Every request but a pause can fail. -/
@[reducible] def Request.Answer : Request → Type
  | .readIo8 _ | .readPci8 .. => Except Error UInt8
  | .readPci16 .. => Except Error UInt16
  | .readPci32 .. | .readMmio32 _ => Except Error UInt32
  | .sleep _ => Unit
  | .delegate .. => Except Error (List UInt64)
  | _ => Except Error Unit

/-- A program over primitive requests. -/
inductive Access (α : Type) where
  | done (value : α)
  | call (request : Request) (next : request.Answer → Access α)

namespace Access

protected def bind : Access α → (α → Access β) → Access β
  | .done value, f => f value
  | .call request next, f => .call request fun answer => (next answer).bind f

instance : Monad Access where
  pure := .done
  bind := Access.bind

theorem bind_done (x : Access α) : x.bind .done = x := by
  induction x with
  | done => rfl
  | call request next ih => exact congrArg (Access.call request) (funext ih)

theorem bind_assoc (x : Access α) (f : α → Access β) (g : β → Access γ) :
    (x.bind f).bind g = x.bind fun a => (f a).bind g := by
  induction x with
  | done => rfl
  | call request next ih => exact congrArg (Access.call request) (funext ih)

instance : LawfulMonad Access :=
  LawfulMonad.mk' Access bind_done (fun _ _ => rfl) bind_assoc

/-- Runs a program on a machine: a state, and a step that answers one request. -/
def run (step : (request : Request) → σ → request.Answer × σ) : Access α → σ → α × σ
  | .done value, s => (value, s)
  | .call request next, s =>
    let (answer, s) := step request s
    (next answer).run step s

end Access

/-- A program that can fail. -/
abbrev Attempt := ExceptT Error Access

namespace Attempt

/-- The result or the failure, as a value; this step itself never fails. -/
def outcome (x : Attempt α) : Attempt (Except Error α) := ExceptT.lift x.run

/-- A result or failure that is already known. -/
def ofExcept (r : Except Error α) : Attempt α := ExceptT.mk (pure r)

/-- Best effort: a failure is dropped. -/
def quietly (x : Attempt α) : Access Unit := do
  let _ ← x.run

end Attempt

namespace Access

def readIo8 (address : UInt16) : Attempt UInt8 := ExceptT.mk (.call (.readIo8 address) .done)

def writeIo8 (address : UInt16) (value : UInt8) : Attempt Unit :=
  ExceptT.mk (.call (.writeIo8 address value) .done)

def readPci8 (location : Pci.Address) (offset : UInt8) : Attempt UInt8 :=
  ExceptT.mk (.call (.readPci8 location offset) .done)

def readPci16 (location : Pci.Address) (offset : UInt8) : Attempt UInt16 :=
  ExceptT.mk (.call (.readPci16 location offset) .done)

def readPci32 (location : Pci.Address) (offset : UInt8) : Attempt UInt32 :=
  ExceptT.mk (.call (.readPci32 location offset) .done)

def writePci8 (location : Pci.Address) (offset value : UInt8) : Attempt Unit :=
  ExceptT.mk (.call (.writePci8 location offset value) .done)

def writePci16 (location : Pci.Address) (offset : UInt8) (value : UInt16) : Attempt Unit :=
  ExceptT.mk (.call (.writePci16 location offset value) .done)

def writePci32 (location : Pci.Address) (offset : UInt8) (value : UInt32) : Attempt Unit :=
  ExceptT.mk (.call (.writePci32 location offset value) .done)

def readMmio32 (physical : UInt64) : Attempt UInt32 :=
  ExceptT.mk (.call (.readMmio32 physical) .done)

def writeMmio8 (physical : UInt64) (value : UInt8) : Attempt Unit :=
  ExceptT.mk (.call (.writeMmio8 physical value) .done)

def sleep (us : UInt32) : Attempt Unit := ExceptT.lift (.call (.sleep us) .done)

def lock (timeoutUs : Nat) : Attempt Unit := ExceptT.mk (.call (.lock timeoutUs) .done)

def unlock : Attempt Unit := ExceptT.mk (.call .unlock .done)

def delegate (routine : String) (words : List UInt64) (answerWords : Nat) :
    Attempt (List UInt64) :=
  ExceptT.mk (.call (.delegate routine words answerWords) .done)

/-- The answer to a routine on a transport that has none: whatever its name, it is not supported. -/
def noRoutines (transport : Transport) (routine : String) : Except Error α :=
  .error (.unsupported (.routine transport routine))

end Access

end DimmBus
