import DimmBus.Config
import DimmBus.Controller
/-!
# Sessions

A session drives one controller under the bus lock and remembers two things between operations: the
page that it selected last, and the modules that it has found.
-/

namespace DimmBus

/-- The page that was selected last, and for which slave. -/
structure PageLatch where
  slave : UInt8
  page : UInt8
deriving DecidableEq, Repr, Inhabited

/-- A module that was found in a slot. -/
structure Module where
  generation : Generation
  memoryType : UInt8
  /-- Whether it has a temperature sensor; none while this is not known. -/
  thermal : Option Bool
deriving DecidableEq, Repr, Inhabited

/-- What a session remembers between operations. -/
structure Memory where
  /-- None when no page can be relied on. -/
  latch : Option PageLatch
  slots : Vector (Option Module) 8
deriving DecidableEq, Repr

namespace Memory

/-- Nothing is known yet. -/
def empty : Memory := ⟨none, Vector.replicate 8 none⟩

instance : Inhabited Memory := ⟨empty⟩

/-- The module found in a slot. -/
def module? (m : Memory) (slot : UInt8) : Option Module := (m.slots[slot.toNat]?).join

/-- The same with the module of one slot set. -/
def setModule (m : Memory) (slot : UInt8) (found : Module) : Memory :=
  { m with slots := m.slots.setIfInBounds slot.toNat (some found) }

end Memory

/-- What bring-up settles for the whole life of a session. -/
structure Link where
  controller : Controller
  config : Config
deriving DecidableEq, Repr, Inhabited

namespace Session

/-- A part of a session's work that cannot fail. -/
abbrev Step := StateT Memory Access

/-- A part of a session's work that can fail. What is remembered outlives the failure. -/
abbrev Operation := ExceptT Error Step

/-- Accesses to the machine as part of an operation. -/
def access (x : Attempt α) : Operation α := ExceptT.mk (StateT.lift x.run)

/-- The result or the failure, as a value; this step itself never fails. -/
def outcome (x : Operation α) : Operation (Except Error α) := ExceptT.lift x.run

/-- A result or failure that is already known. -/
def ofExcept (r : Except Error α) : Operation α := ExceptT.mk (pure r)

/-- A step that cannot fail, as part of an operation. -/
def step (x : Step α) : Operation α := ExceptT.lift x

/-- From now on no page is relied on. -/
def dropLatch : Step Unit := modify fun m => { m with latch := none }

/-- From now on a page is relied on. -/
def setLatch (slave page : UInt8) : Step Unit :=
  modify fun m => { m with latch := some ⟨slave, page⟩ }

/-- Runs an operation under the bus lock. A failure to give the lock back is dropped. -/
def locked (link : Link) (body : Operation α) : Operation α := do
  access (Access.lock link.config.lockTimeoutUs)
  let result ← outcome body
  let _ ← outcome (access Access.unlock)
  ofExcept result

/-- Repeats an operation after failures that may pass, at most so many further times. No page is
relied on after a failure. -/
def retryingWithin (body : Operation α) : (further : Nat) → Operation α
  | 0 => do
    match ← outcome body with
    | .ok value => return value
    | .error e =>
      step dropLatch
      throw e
  | n + 1 => do
    match ← outcome body with
    | .ok value => return value
    | .error e =>
      step dropLatch
      if e.isRetryable then retryingWithin body n else throw e

/-- Repeats an operation as often as the session is set to. -/
def retrying (link : Link) (body : Operation α) : Operation α :=
  retryingWithin body link.config.retries.toNat

/-- Fails, without any access, if a transaction is malformed or beyond the controller. -/
def accept (link : Link) (tx : Transaction) : Operation Unit := do
  ofExcept tx.validate
  ofExcept (link.controller.check tx)

/-- Runs a transaction as part of a longer operation that holds the lock. -/
def send (link : Link) (tx : Transaction) : Operation Payload := do
  accept link tx
  access (link.controller.transfer tx)

/-- Runs a single transaction of the user. It may move any page latch on the bus, so that no page is
relied on afterwards. -/
def transfer (link : Link) (tx : Transaction) : Operation Payload := do
  accept link tx
  step dropLatch
  locked link (access (link.controller.transfer tx))

/-- Reads the byte behind a command. -/
def readByte (link : Link) (slave command : UInt8) : Operation UInt8 := do
  match ← send link (.readByteData slave command) with
  | .byte value => return value
  | other => throw (.access (.expectedByte other))

/-- Runs a transaction that reads a word. -/
def readWord (link : Link) (tx : Transaction) : Operation UInt16 := do
  match ← send link tx with
  | .word value => return value
  | other => throw (.access (.expectedWord other))

end Session

end DimmBus
