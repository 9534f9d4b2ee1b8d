import DimmBus.Controller.Info
import DimmBus.Delegated.Words
/-!
# Calls of delegated routines
-/

namespace DimmBus.Delegated

/-- Asks an identity routine for its controller; none when it fails or says too little. The fields
are the low bits of its three words. -/
def identify (routine : String) (location : Pci.Address) : Access (Option Detected) := do
  match ← (Access.delegate routine [] identityWords).run with
  | .ok (ids :: revision :: base :: _) =>
    let (vendor, device) := Pci.splitId (UInt32.ofNat ids.toNat)
    return some ⟨⟨location, vendor, device, UInt8.ofNat revision.toNat⟩,
      some (UInt16.ofNat base.toNat)⟩
  | _ => return none

/-- Runs one transaction through a transfer routine. -/
def transfer (routine : String) (tx : Transaction) : Attempt Payload := do
  let words ← Access.delegate routine (encode tx) transferWords
  if words.length < transferWords ∧ tx.readsBack then
    throw (.access (.shortAnswer routine words.length))
  else
    Attempt.ofExcept (decode tx words)

end DimmBus.Delegated
