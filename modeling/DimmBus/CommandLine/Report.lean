import DimmBus.CommandLine.Number
import DimmBus.Error
/-!
# Reports of failures

What the command line says when a command fails: what it was about, and the causes.
-/

namespace DimmBus.CommandLine

/-- How a command fails. -/
inductive Failure where
  /-- There is no machine but a simulated one. -/
  | noMachine
  | badValue (bad : BadValue)
  /-- A process call needs data. -/
  | callWithoutData
  | reading (slot : UInt8) (error : Error)
  | transfer (protocol : Protocol) (slave : UInt8) (error : Error)
deriving DecidableEq, Repr

namespace Failure

/-- What the failure is about. -/
def subject : Failure → String
  | .noMachine => "cannot open /dev/port (are you root?)"
  | .badValue (.notNumber value _) => "invalid number: " ++ value
  | .badValue (.notByte value) => value ++ " does not fit in a byte"
  | .callWithoutData => "process calls need --write"
  | .reading slot _ => "reading slot " ++ toString slot.toNat
  | .transfer protocol slave _ => protocol.text ++ " to " ++ Hex.number 2 slave.toNat

/-- An error and what is behind it. -/
def chain (e : Error) : List String := (e :: e.sources).map (·.message)

/-- The causes, nearest first. -/
def causes : Failure → List String
  | .noMachine | .callWithoutData => []
  | .badValue (.notNumber _ fault) => [fault.text]
  | .badValue (.notByte _) => [NumberFault.tooLarge.text]
  | .reading _ e | .transfer _ _ e => chain e

/-- The causes, one a line; several are numbered. -/
def causeLines : List String → List String
  | [] => []
  | [cause] => ["    " ++ cause]
  | several => several.zipIdx.map fun c => "    " ++ toString c.2 ++ ": " ++ c.1

/-- The whole report. -/
def report (f : Failure) : String :=
  let below :=
    if f.causes.isEmpty then "" else "\n\nCaused by:\n" ++ "\n".intercalate (causeLines f.causes)
  "Error: " ++ f.subject ++ below ++ "\n"

end Failure

end DimmBus.CommandLine
