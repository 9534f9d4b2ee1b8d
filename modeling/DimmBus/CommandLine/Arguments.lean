import DimmBus.CommandLine.Grammar
/-!
# Reading the command line

Options may stand in any order, in front of the command and behind it. A value follows its option as
the next word or behind an equals sign. A value is checked when the next option or operand is met,
which decides between asking for help and a mistake that was made before.
-/

namespace DimmBus.CommandLine

/-- What can be explained. -/
inductive Topic where
  | program
  | verb (verb : Verb)
  | help
deriving DecidableEq, Repr, Inhabited

/-- Why there is nothing to carry out. -/
inductive Stop where
  | help (topic : Topic) (long : Bool)
  | version
  /-- The words do not follow the grammar. -/
  | rejected
deriving DecidableEq, Repr, Inhabited

/-- The last word, as long as its value is not checked. -/
inductive Pending where
  | nothing
  /-- An option whose value is still to come. -/
  | wanting (flag : Flag)
  /-- An option with its value. -/
  | given (flag : Flag) (value : String)
  | operand (form : Form) (value : String)
deriving DecidableEq, Repr, Inhabited

/-- What has been read at one place. -/
structure Found where
  /-- Options with their values; those without a value have an empty one. -/
  flags : List (String × String) := []
  operands : List String := []
  pending : Pending := .nothing
  /-- All further words are operands. -/
  plain : Bool := false
deriving DecidableEq, Repr, Inhabited

namespace Found

/-- Keeps an option. No option may be given twice at one place. -/
def keep (f : Found) (flag : Flag) (value : String) : Except Stop Found :=
  if (f.flags.lookup flag.name).isSome || !(flag.form.all (·.accepts value)) then .error .rejected
  else .ok { f with flags := (flag.name, value) :: f.flags }

/-- Checks what is pending. -/
def settle (f : Found) : Except Stop Found :=
  let settled := { f with pending := .nothing }
  match f.pending with
  | .nothing => .ok settled
  | .wanting _ => .error .rejected
  | .given flag value => settled.keep flag value
  | .operand form value =>
    if form.accepts value then .ok { settled with operands := f.operands ++ [value] }
    else .error .rejected

/-- Settles and stops. -/
def stop (f : Found) (reason : Stop) : Except Stop α := do
  let _ ← f.settle
  throw reason

/-- Takes a word as the next operand. -/
def operand (f : Found) (place : Place) (value : String) : Except Stop Found := do
  let f ← f.settle
  match place.operands[f.operands.length]? with
  | some o => return { f with pending := .operand o.form value }
  | none => throw .rejected

end Found

/-- The topic of a place. -/
def Place.topic : Place → Topic
  | .front => .program
  | .behind verb => .verb verb

/-- The text in front of the first equals sign, and the text behind it if there is one. -/
def splitValue (cs : List Char) : String × Option String :=
  match cs.dropWhile (· ≠ '=') with
  | _ :: value => (String.ofList (cs.takeWhile (· ≠ '=')), some (String.ofList value))
  | [] => (String.ofList cs, none)

/-- Takes an option by its long name. -/
def takeLong (place : Place) (f : Found) (name : String) (value? : Option String) :
    Except Stop Found := do
  match place.flag? name, value? with
  | some flag, some value =>
    let f ← f.settle
    if flag.form.isSome then f.keep flag value else throw .rejected
  | some flag, none =>
    let f ← f.settle
    if flag.form.isSome then return { f with pending := .wanting flag } else f.keep flag ""
  | none, some _ => throw .rejected
  | none, none =>
    if name = "help" then f.stop (.help place.topic true)
    else if name = "version" ∧ place = .front then f.stop .version
    else throw .rejected

/-- Takes an option by its letter. -/
def takeShort (place : Place) (f : Found) (letter : Char) : Except Stop Found :=
  if letter = 'h' then f.stop (.help place.topic false)
  else if letter = 'V' ∧ place = .front then f.stop .version
  else .error .rejected

/-- The topic of a call for help with these words behind it. -/
def helpTopic : List String → Stop
  | [] => .help .program true
  | ["help"] => .help .help true
  | [name] =>
    match Verb.named? name with
    | some verb => .help (.verb verb) true
    | none => .rejected
  | _ => .rejected

/-- Takes one word. -/
def takeWord (place : Place) (f : Found) (word : String) : Except Stop Found :=
  if f.plain then f.operand place word
  else
    match word.toList with
    | ['-', '-'] => .ok { f with plain := true }
    | '-' :: '-' :: cs =>
      let (name, value?) := splitValue cs
      takeLong place f name value?
    | '-' :: letter :: _ => takeShort place f letter
    | _ =>
      match f.pending with
      | .wanting flag => .ok { f with pending := .given flag word }
      | _ => f.operand place word

/-- Whether a word can name a command here. -/
def Found.awaitsCommand (f : Found) : Bool :=
  !f.plain && (match f.pending with
    | .wanting _ => false
    | _ => true)

/-- Reads the words behind a command. All its operands must be there. -/
def readBehind (verb : Verb) (f : Found) : List String → Except Stop Found
  | [] => do
    let f ← f.settle
    if f.operands.length < verb.operands.length then throw .rejected else return f
  | word :: rest => do
    let f ← takeWord (.behind verb) f word
    readBehind verb f rest

/-- Reads all words: those up to the command, the command, and those behind it. -/
def readFront (f : Found) : List String → Except Stop (Found × Verb × Found)
  | [] => .error .rejected
  | word :: rest => do
    if f.awaitsCommand then
      if word = "help" then throw (helpTopic rest)
      match Verb.named? word with
      | some verb =>
        let behind ← readBehind verb {} rest
        return (← f.settle, verb, behind)
      | none => readFront (← takeWord .front f word) rest
    else readFront (← takeWord .front f word) rest

/-- What the command is to do. -/
inductive Task where
  | detect
  | scan
  | dump (slot : UInt8) (full : Bool)
  /-- Poll once, or every so many seconds; in that case stop after so many polls, if so asked. -/
  | temps (watch count : Option Nat)
  | xfer (slave : UInt8) (shape : Protocol) (command : UInt8) (write : Option String) (pec : Bool)
deriving DecidableEq, Repr, Inhabited

/-- A command line that follows the grammar. -/
structure Invocation where
  simulate : Option Machine
  lock : String
  retries : UInt8
  port : UInt8
  task : Task
deriving DecidableEq, Repr, Inhabited

/-- The value of an option; behind the command it counts before the one in front of it. -/
def valueOf? (flag : String) (front behind : Found) : Option String :=
  behind.flags.lookup flag <|> front.flags.lookup flag <|>
    (commonFlags.find? fun f => f.name = flag).bind (·.default)

/-- A byte that was checked. -/
def byteOf (most : Nat) (value? : Option String) : UInt8 :=
  UInt8.ofNat ((value?.bind (Number.whole? most)).getD 0)

/-- What is to be done, from words that were checked. -/
def taskOf (verb : Verb) (f : Found) : Task :=
  let operand (i : Nat) : String := f.operands.getD i ""
  let given (flag : String) : Bool := (f.flags.lookup flag).isSome
  let number (flag : String) (most : Nat) : Option Nat :=
    (f.flags.lookup flag).bind (Number.whole? most)
  let byte (value : String) : UInt8 := (Number.byte value).toOption.getD 0
  match verb with
  | .detect => .detect
  | .scan => .scan
  | .dump => .dump (byteOf 0xFF (some (operand 0))) (given "full")
  | .temps => .temps (number "watch" 0xFFFFFFFFFFFFFFFF) (number "count" 0xFFFFFFFF)
  | .xfer =>
    .xfer (byte (operand 0)) ((shapes.lookup (operand 1)).getD .quick)
      (((f.flags.lookup "command").map byte).getD 0) (f.flags.lookup "write") (given "pec")

/-- Reads a command line. -/
def readArguments (words : List String) : Except Stop Invocation := do
  let (front, verb, behind) ← readFront {} words
  let value (flag : String) := valueOf? flag front behind
  return {
    simulate := (value "simulate").bind Machine.named?
    lock := (value "lock").getD ""
    retries := byteOf 0xFF (value "retries")
    port := byteOf 0xFF (value "port")
    task := taskOf verb behind }

end DimmBus.CommandLine
