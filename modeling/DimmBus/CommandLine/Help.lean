import DimmBus.CommandLine.Arguments
/-!
# Help

The explanation of the program and of its commands. In the short form each option is one line. In
the long form the explanation stands below the option, and the meaning of each choice is listed.
-/

namespace DimmBus.CommandLine

namespace Help

/-- One option or operand as it is listed. -/
structure Entry where
  /-- How it is written. -/
  usage : String
  about : String
  choices : List Choice := []
  default : Option String := none
deriving DecidableEq, Repr, Inhabited

def padded (width : Nat) (text : String) : String :=
  text ++ String.ofList (List.replicate (width - text.length) ' ')

/-- The column at which long explanations stand. -/
def margin : String := "          "

/-- Whether the choices have meanings of their own. -/
def explains (choices : List Choice) : Bool := choices.any fun c => c.about ≠ ""

/-- What is added to an explanation: the default and the choices. -/
def remarks (e : Entry) (long : Bool) : List String :=
  (e.default.map fun d => "[default: " ++ d ++ "]").toList ++
    (if e.choices.isEmpty || (long && explains e.choices) then []
      else ["[possible values: " ++ ", ".intercalate (e.choices.map (·.name)) ++ "]"])

/-- An entry in one line. -/
def shortText (width : Nat) (e : Entry) : String :=
  padded width e.usage ++ "  " ++ " ".intercalate (e.about :: remarks e false)

/-- An entry over several lines. -/
def longText (e : Entry) : String :=
  let notes := remarks e true
  let separator := "\n" ++ margin
  let about := e.about ++
    (if notes.isEmpty then "" else separator ++ separator ++ separator.intercalate notes)
  let width := (e.choices.map fun c => c.name.length).foldl max 0
  let choice (c : Choice) : String :=
    separator ++ "- " ++ padded (width + 1) (c.name ++ ":") ++ " " ++ c.about
  e.usage ++ separator ++ about ++
    (if explains e.choices then
      "\n" ++ separator ++ "Possible values:" ++ String.join (e.choices.map choice)
    else "")

/-- Entries below each other. -/
def entries (long : Bool) (es : List Entry) : String :=
  let width := (es.map fun e => e.usage.length).foldl max 0
  if long then "\n\n".intercalate (es.map longText)
  else "\n".intercalate (es.map (shortText width))

def flagEntry (f : Flag) : Entry where
  usage := "      --" ++ f.name ++ (if f.form.isSome then " <" ++ f.name.toUpper ++ ">" else "")
  about := f.about
  choices := (f.form.map (·.choices)).getD []
  default := f.default

def operandEntry (o : Operand) : Entry where
  usage := "  <" ++ o.name.toUpper ++ ">"
  about := o.about
  choices := o.form.choices

/-- The options that stand at a place: by their rank among the options of the command or of the
program, and by name where two have the same rank. -/
def flagEntries (place : Place) : List Entry :=
  let ranked (fs : List Flag) : List (Nat × Flag) := fs.zipIdx.map fun f => (f.2, f.1)
  let all :=
    match place with
    | .front => ranked commonFlags
    | .behind verb => ranked verb.flags ++ ranked commonFlags
  let le (a b : Nat × Flag) : Bool := a.1 < b.1 || (a.1 == b.1 && decide (a.2.name ≤ b.2.name))
  (all.mergeSort le).map fun f => flagEntry f.2

def helpEntry (long : Bool) : Entry where
  usage := "  -h, --help"
  about :=
    if long then "Print help (see a summary with '-h')" else "Print help (see more with '--help')"

def versionEntry : Entry := { usage := "  -V, --version", about := "Print version" }

/-- The about line of the command that explains the others. -/
def helpAbout : String := "Print this message or the help of the given subcommand(s)"

/-- The commands, one a line. -/
def commands : String :=
  let all := (Verb.all.map fun v => (v.name, v.about)) ++ [("help", helpAbout)]
  let width := (all.map fun c => c.1.length).foldl max 0
  "\n".intercalate (all.map fun c => "  " ++ padded width c.1 ++ "  " ++ c.2)

/-- The operands of a command in the usage line. -/
def usageOperands (verb : Verb) : String :=
  String.join (verb.operands.map fun o => " <" ++ o.name.toUpper ++ ">")

def program (long : Bool) : String :=
  "Chipset SMBus and DIMM SPD tool\n\nUsage: smbus [OPTIONS] <COMMAND>\n\nCommands:\n" ++
    commands ++ "\n\nOptions:\n" ++
    entries long (flagEntries .front ++ [helpEntry long, versionEntry]) ++ "\n"

def verb (v : Verb) (long : Bool) : String :=
  let operands :=
    if v.operands.isEmpty then ""
    else "Arguments:\n" ++ entries long (v.operands.map operandEntry) ++ "\n\n"
  v.about ++ "\n\nUsage: smbus " ++ v.name ++ " [OPTIONS]" ++ usageOperands v ++ "\n\n" ++
    operands ++ "Options:\n" ++ entries long (flagEntries (.behind v) ++ [helpEntry long]) ++ "\n"

def help : String :=
  helpAbout ++ "\n\nUsage: smbus help [COMMAND]...\n\nArguments:\n" ++
    "  [COMMAND]...  Print help for the subcommand(s)\n"

end Help

/-- The explanation of a topic. -/
def Topic.text : Topic → (long : Bool) → String
  | .program, long => Help.program long
  | .verb v, long => Help.verb v long
  | .help, _ => Help.help

/-- The name of the program and its version. -/
def versionText : String := "smbus 0.1.0\n"

end DimmBus.CommandLine
