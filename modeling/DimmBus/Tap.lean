import DimmBus.Platform.Answer
import DimmBus.Tap.Rule
import DimmBus.Tap.Trace
/-!
# Taps

A tap sits between a program and a machine. It hands requests on, bends those that a rule is about,
and can write down what goes through it.
-/

namespace DimmBus

/-- A machine with a tap in front of it. -/
structure Tap where
  platform : Platform
  /-- In the order in which they are asked. -/
  rules : List Tap.Rule := []
  /-- What was written down; none while nothing is to be. -/
  recording : Option (Array Tap.Seen) := none

namespace Tap

/-- The failure of a request; a pause has none. -/
def failed? (error : Error) : (request : Request) → Option request.Answer
  | .sleep _ => none
  | .readIo8 _ | .readPci8 .. | .readPci16 .. | .readPci32 .. | .readMmio32 _ => some (.error error)
  | .writeIo8 .. | .writePci8 .. | .writePci16 .. | .writePci32 .. | .writeMmio8 .. =>
    some (.error error)
  | .lock _ | .unlock | .delegate .. => some (.error error)

/-- The success of a write; other requests have none to be had without the machine. -/
def dropped? : (request : Request) → Option request.Answer
  | .writeIo8 .. | .writePci8 .. | .writePci16 .. | .writePci32 .. | .writeMmio8 .. => some (.ok ())
  | _ => none

/-- The answer of a routine. -/
def answered? (words : List UInt64) : (request : Request) → Option request.Answer
  | .delegate .. => some (.ok words)
  | _ => none

/-- The answer that an effect gives without the machine, if it gives one. -/
def withheld? (effect : Effect) (request : Request) : Option request.Answer :=
  match effect with
  | .fail error => failed? error request
  | .drop => dropped? request
  | .answer words => answered? words request
  | .alter .. => none

/-- The answer to a read with bits of its value kept and set. -/
def altered (keep set : Nat) : (request : Request) → request.Answer → request.Answer
  | .readIo8 _, answer | .readPci8 .., answer =>
    answer.map fun v => UInt8.ofNat ((v.toNat &&& keep) ||| set)
  | .readPci16 .., answer => answer.map fun v => UInt16.ofNat ((v.toNat &&& keep) ||| set)
  | .readPci32 .., answer | .readMmio32 _, answer =>
    answer.map fun v => UInt32.ofNat ((v.toNat &&& keep) ||| set)
  | _, answer => answer

/-- Writes a request down, if a recording is on. -/
def note (t : Tap) (request : Request) (answer : request.Answer) (dropped : Bool) : Tap :=
  { t with recording := t.recording.map (·.push ⟨request, answer, dropped⟩) }

/-- Hands a request on. -/
def pass (t : Tap) (request : Request) : request.Answer × Tap :=
  let (answer, platform) := t.platform.answer request
  (answer, { t with platform })

/-- Hands a request on, unless a rule decides otherwise. -/
def answer (request : Request) (t : Tap) : request.Answer × Tap :=
  let (effect?, rules) := Rule.decide? request t.rules
  let t := { t with rules }
  match effect? with
  | none =>
    let (answer, t) := t.pass request
    (answer, t.note request answer false)
  | some effect =>
    match withheld? effect request with
    | some answer => (answer, t.note request answer (effect = .drop))
    | none =>
      let (answer, t) := t.pass request
      let answer :=
        match effect with
        | .alter keep set => altered keep set request answer
        | _ => answer
      (answer, t.note request answer false)

/-- Runs a program on the machine behind the tap. -/
def run (t : Tap) (program : Access α) : α × Tap := program.run answer t

/-- Adds a rule behind the others. -/
def addRule (t : Tap) (rule : Rule) : Tap := { t with rules := t.rules ++ [rule] }

def clearRules (t : Tap) : Tap := { t with rules := [] }

/-- Begins an empty recording. -/
def startTrace (t : Tap) : Tap := { t with recording := some #[] }

/-- Ends the recording and hands it out. -/
def endTrace (t : Tap) : Array Seen × Tap := (t.recording.getD #[], { t with recording := none })

end Tap

end DimmBus
