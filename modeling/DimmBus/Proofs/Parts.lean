import DimmBus.Controller.Ich
import DimmBus.Controller.Piix4

/-!
# Parts of a transaction

A transaction does its work, and then undoes what it has begun, whatever came of the work. The parts
that later proofs speak of have a name here, and a transaction is put together from them.
-/

namespace DimmBus

open Access

namespace HostData

/-- Reads a block, whose length comes first. -/
def collectBlock (base : UInt16) : Attempt Payload := do
  let length ← Attempt.ofExcept (checkReturnedLength (← readIo8 (base + HostRegister.data0)))
  let _ ← readIo8 (base + HostRegister.control)
  let data ← readBytes (base + HostRegister.block) length
  return .block data

end HostData

/-! ## Intel hosts -/

namespace Ich

/-- Whether a result leaves the host in the middle of a transaction. -/
def interrupted {α : Type} : Except Error α → Bool
  | .error e => leavesRunning e
  | .ok _ => false

/-- What is done once the transaction is started. -/
def finish (c : Ich) (tx : Transaction) : Attempt Payload := do
  let status ← c.await
  c.checkStatus tx status
  HostData.collect c.info.base tx

/-- Frees the host, and ends as the work did. -/
def free (c : Ich) (r : Except Error Payload) : Attempt Payload := do
  ExceptT.lift c.cleanUp
  Attempt.ofExcept r

/-- What is done after the work. A host that may still be running is killed first. -/
def windUp (c : Ich) (r : Except Error Payload) : Attempt Payload := do
  if interrupted r then
    ExceptT.lift c.kill
    c.free r
  else
    c.free r

variable (c : Ich) (tx : Transaction)

theorem execute_eq : c.execute tx =
    writeIo8 (c.register HostRegister.control) (startValue tx) >>= fun _ => c.finish tx := rfl

theorem transferDirect_eq : c.transferDirect tx = (c.transact tx).outcome >>= c.windUp := by
  unfold transferDirect
  congr 1
  funext r
  cases r with
  | ok payload => rfl
  | error e => rfl

end Ich

/-! ## PIIX4-compatible hosts -/

namespace Piix4

/-- What is done once the host has something to report. -/
def conclude (c : Piix4) (tx : Transaction) : Attempt Payload := do
  let status ← c.await
  writeIo8 (c.register HostRegister.status) status
  let _ ← readIo8 (c.register HostRegister.status)
  match faultOf status with
  | some fault => throw (.bus tx.slave tx.protocol fault status)
  | none => HostData.collect c.info.base tx

/-- Gives the semaphore back, and ends as the work did. -/
def giveBack (c : Piix4) (r : Except Error Payload) : Attempt Payload := do
  ExceptT.lift c.release
  Attempt.ofExcept r

/-- What is done after the work. A micro-controller that sleeps is woken first. -/
def windUp (c : Piix4) (asleep : Bool) (r : Except Error Payload) : Attempt Payload := do
  if asleep then
    let _ ← ExceptT.lift (imcCommand Imc.wake)
    c.giveBack r
  else
    c.giveBack r

/-- What is done under the semaphore, once it is known whether the micro-controller sleeps. -/
def underSemaphore (c : Piix4) (s : Sb800) (tx : Transaction) (asleep : Bool) : Attempt Payload :=
  (c.withPort s (c.transact tx)).outcome >>= c.windUp asleep

variable (c : Piix4) (s : Sb800) (tx : Transaction)

theorem transact_eq : c.transact tx = (do
    c.clearStatus
    c.program tx
    c.start tx
    c.conclude tx) := rfl

theorem transferSb800_eq : c.transferSb800 s tx = (do
    c.acquire
    if s.notifyImc then
      let asleep ← ExceptT.lift (imcCommand Imc.sleep)
      c.underSemaphore s tx asleep
    else
      c.underSemaphore s tx false) := rfl

end Piix4

end DimmBus
