import DimmBus.CommandLine.Number
import DimmBus.Transaction
/-!
# The grammar of the command line

The commands, their operands and options, and what each is for.
-/

namespace DimmBus.CommandLine

/-- One of the values that can be chosen. -/
structure Choice where
  name : String
  about : String := ""
deriving DecidableEq, Repr, Inhabited

/-- What a value must look like. -/
inductive Form where
  | text
  | choice (choices : List Choice)
  /-- A whole number from 0 on. -/
  | whole (most : Nat)
  /-- A byte, decimal or hexadecimal. -/
  | byte
deriving DecidableEq, Repr, Inhabited

namespace Form

def accepts : Form → String → Bool
  | .text, _ => true
  | .choice choices, value => choices.any fun c => c.name = value
  | .whole most, value => (Number.whole? most value).isSome
  | .byte, value => (Number.byte value).toBool

def choices : Form → List Choice
  | .choice choices => choices
  | _ => []

end Form

/-- An option. -/
structure Flag where
  name : String
  about : String
  /-- The form of its value; none if it has no value. -/
  form : Option Form := none
  default : Option String := none
deriving DecidableEq, Repr, Inhabited

/-- A value that is told by its place. -/
structure Operand where
  name : String
  about : String
  form : Form
deriving DecidableEq, Repr, Inhabited

/-- The machines that can be simulated. -/
inductive Machine where
  | intel
  | amd
deriving DecidableEq, Repr, Inhabited

namespace Machine

def choices : List Choice := [
  ⟨"intel", "Intel 600-series PCH with DDR4 and DDR5 modules"⟩,
  ⟨"amd", "AMD FCH with IMC and DDR5 modules"⟩]

def named? (name : String) : Option Machine :=
  [("intel", Machine.intel), ("amd", .amd)].lookup name

end Machine

/-- The shapes of raw transactions. -/
def shapes : List (String × Protocol) := [
  ("quick", .quick), ("byte", .byte), ("byte-data", .byteData), ("word-data", .wordData),
  ("proc-call", .procCall), ("block", .blockData), ("block-proc-call", .blockProcCall)]

/-- The commands. -/
inductive Verb where
  | detect
  | scan
  | dump
  | temps
  | xfer
deriving DecidableEq, Repr, Inhabited

namespace Verb

def all : List Verb := [.detect, .scan, .dump, .temps, .xfer]

def name : Verb → String
  | .detect => "detect"
  | .scan => "scan"
  | .dump => "dump"
  | .temps => "temps"
  | .xfer => "xfer"

def about : Verb → String
  | .detect => "Identify the SMBus host controller"
  | .scan => "List populated slots, module generation and thermal sensors"
  | .dump => "Hex dump of one module's SPD contents"
  | .temps => "Read every module temperature sensor"
  | .xfer => "Run one raw SMBus transaction"

def named? (name : String) : Option Verb := all.find? fun v => v.name = name

def operands : Verb → List Operand
  | .dump => [⟨"slot", "Slot (0-7)", .whole 0xFF⟩]
  | .xfer => [
    ⟨"slave", "7-bit slave address (e.g. 0x50)", .byte⟩,
    ⟨"protocol", "Transaction shape", .choice (shapes.map fun s => ⟨s.1, ""⟩)⟩]
  | _ => []

/-- The options that only this command has. -/
def flags : Verb → List Flag
  | .dump => [⟨"full", "Read the whole module instead of the identity ranges", none, none⟩]
  | .temps => [
    ⟨"watch", "Keep polling every N seconds", some (.whole 0xFFFFFFFFFFFFFFFF), none⟩,
    ⟨"count", "Stop after this many polls (with --watch)", some (.whole 0xFFFFFFFF), none⟩]
  | .xfer => [
    ⟨"command", "Command / offset byte", some .byte, some "0"⟩,
    ⟨"write", "Write this value (byte, word, or comma-separated block) instead of reading",
      some .text, none⟩,
    ⟨"pec", "Request packet error checking", none, none⟩]
  | _ => []

end Verb

/-- The options that every command has. They may also stand in front of the command. -/
def commonFlags : List Flag := [
  ⟨"simulate", "Run against a simulated platform instead of hardware",
    some (.choice Machine.choices), none⟩,
  ⟨"lock", "Lock file shared with other SMBus users", some .text,
    some "/run/lock/smbus-spd.lock"⟩,
  ⟨"retries", "Extra attempts after a retryable SPD failure", some (.whole 0xFF), some "2"⟩,
  ⟨"port", "SB800-class SMBus port carrying the modules", some (.whole 0xFF), some "0"⟩]

/-- Where options and operands are looked for: in front of the command, or behind it. -/
inductive Place where
  | front
  | behind (verb : Verb)
deriving DecidableEq, Repr, Inhabited

namespace Place

def flags : Place → List Flag
  | .front => commonFlags
  | .behind verb => verb.flags ++ commonFlags

def operands : Place → List Operand
  | .front => []
  | .behind verb => verb.operands

def flag? (place : Place) (name : String) : Option Flag :=
  place.flags.find? fun f => f.name = name

end Place

end DimmBus.CommandLine
