import DimmBus.CommandLine.Help
import DimmBus.CommandLine.Report
import DimmBus.Monitor
import DimmBus.Platform.Answer
import DimmBus.Platform.Build
/-!
# The program behind the command line

What each command prints. All commands but an endless watch come to an end, and their output is a
value.
-/

namespace DimmBus.CommandLine

/-- How a run ended. -/
structure Outcome where
  code : UInt32
  stdout : String := ""
  stderr : String := ""
deriving DecidableEq, Repr, Inhabited

/-- The simulated machines. -/
def Machine.platform : Machine → Platform
  | .intel =>
    let bare := ({} : Platform).withIch 0x7AA3 Ich.ConfigSpace.hostEnable
    ((bare.withModule .ddr4 0 true).withModule .ddr4 1 false).withModule .ddr5 2 true
  | .amd =>
    let bare := (({} : Platform).withPiix4 Pci.Vendor.amd Piix4.DeviceId.kerncz 0x61).withImc
    (bare.withModule .ddr5 0 true).withModule .ddr5 1 true

/-- Text with blanks in front of it. -/
def rightAligned (width : Nat) (text : String) : String :=
  String.ofList (List.replicate (width - text.length) ' ') ++ text

def lines (ls : List String) : String := String.join (ls.map (· ++ "\n"))

/-- The shapes that a controller can carry. -/
def capabilityNames (c : Capabilities) : List String :=
  ["quick", "byte", "byte-data", "word-data"] ++ (if c.procCall then ["proc-call"] else []) ++
    (if c.block then ["block"] else []) ++
    (if c.blockProcCall then ["block-proc-call"] else []) ++ (if c.pec then ["pec"] else [])

/-- What is known about the controller. -/
def detectText (info : ControllerInfo) : String :=
  let trait (has : Bool) (text : String) : List String :=
    if has then ["               " ++ text] else []
  lines (["Controller   : " ++ info.text, "Backend      : " ++ info.family.text,
    "Capabilities : " ++ " ".intercalate (capabilityNames info.capabilities)] ++
    trait info.traits.writeProtected "SPD write protection enabled" ++
    trait info.traits.memoryMappedBase "PM block reached through MMIO" ++
    trait info.traits.notifiesImc "IMC present (sleep/wake around transfers)" ++
    trait info.traits.postStartDelay "post-start delay")

def sensorWord : Option Bool → String
  | some true => "yes"
  | some false => "no"
  | none => "?"

/-- The populated slots as a table. -/
def scanText (slots : List MonitoredSlot) : String :=
  if slots.isEmpty then "No memory modules found\n"
  else
    lines ("Slot  Type  Code  Sensor" :: slots.map fun s =>
      rightAligned 4 (toString s.slot.toNat) ++ "  " ++ Help.padded 4 s.generation.text ++ "  " ++
        Hex.number 2 s.memoryType.toNat ++ "  " ++ sensorWord s.thermal)

/-- Sixteen addresses from `base` on; nothing if the dump has none of them. -/
def dumpRow (d : SpdDump) (image : Array UInt8) (base : Nat) : List String :=
  let row := (image.extract base (base + 16)).toList
  let touched := (List.range row.length).any fun i => (d.get? (UInt16.ofNat (base + i))).isSome
  if touched then [Hex.digits 4 base ++ ": " ++ Hex.spaced row] else []

/-- A dump, sixteen bytes a line. -/
def dumpText (d : SpdDump) : String :=
  let image := d.toImage
  let rows := (List.range ((image.size + 15) / 16)).flatMap fun row => dumpRow d image (16 * row)
  lines (("Slot " ++ toString d.slot.toNat ++ ": " ++ d.generation.text ++ " (" ++
    toString d.length ++ " bytes read)") :: rows)

def readingText (r : Reading) : String :=
  "slot " ++ toString r.slot.toNat ++ ": " ++
    match r.temperature with
    | some t => t.text 2 ++ " °C"
    | none => "--"

def payloadText : Payload → String
  | .none => "ok"
  | .byte value => Hex.number 2 value.toNat
  | .word value => Hex.number 4 value.toNat
  | .block data => "[" ++ toString data.length ++ "] " ++ Hex.spaced data

/-- The transaction that reads; process calls do not. -/
def readingOf (slave : UInt8) (shape : Protocol) (command : UInt8) : Except Failure Transaction :=
  match shape with
  | .quick => .ok (.quick slave .read)
  | .byte => .ok (.readByte slave)
  | .byteData => .ok (.readByteData slave command)
  | .wordData => .ok (.readWordData slave command)
  | .blockData => .ok (.readBlock slave command)
  | .procCall | .blockProcCall => .error .callWithoutData

/-- The transaction that writes a value. -/
def writingOf (slave : UInt8) (shape : Protocol) (command : UInt8) (value : String) :
    Except BadValue Transaction :=
  match shape with
  | .quick => .ok (.quick slave .write)
  | .byte => (Number.byte value).map (.writeByte slave)
  | .byteData => (Number.byte value).map (.writeByteData slave command)
  | .wordData => (Number.word value).map (.writeWordData slave command)
  | .procCall => (Number.word value).map (.procCall slave command)
  | .blockData => (Number.bytes value).map (.writeBlock slave command)
  | .blockProcCall => (Number.bytes value).map (.blockProcCall slave command)

/-- The transaction that a command line asks for: a write if there is a value to write. -/
def transactionOf (slave : UInt8) (shape : Protocol) (command : UInt8) :
    (value : Option String) → Except Failure Transaction
  | none => readingOf slave shape command
  | some value => (writingOf slave shape command value).mapError .badValue

/-- A monitor that is polled again and again. -/
structure Watch where
  machine : Platform
  monitor : Monitor
  /-- Seconds between two polls. -/
  seconds : Nat
  /-- Polls that are still to be made; none without end. -/
  left : Option Nat

namespace Watch

/-- Polls once. -/
def poll (w : Watch) : String × Watch :=
  let ((readings, monitor), machine) := w.monitor.poll.run Platform.answer w.machine
  (lines (readings.map readingText), { w with machine, monitor, left := w.left.map (· - 1) })

/-- Polls a number of times, with an empty line between two polls. -/
def polls (w : Watch) : Nat → String
  | 0 => ""
  | 1 => w.poll.1
  | n + 1 =>
    let (text, w) := w.poll
    text ++ "\n" ++ w.polls n

end Watch

/-- A run: its outcome, or a watch that goes on. -/
inductive Run where
  | ended (outcome : Outcome)
  | watching (watch : Watch)

namespace Run

def printed (text : String) : Run := .ended { code := 0, stdout := text }

def failed (f : Failure) : Run := .ended { code := 1, stderr := f.report }

/-- The outcome, without the pauses; none if the run has no end. -/
def outcome? : Run → Option Outcome
  | .ended outcome => some outcome
  | .watching w => w.left.map fun n => { code := 0, stdout := w.polls n }

end Run

/-- Carries out a task with a session on a machine. -/
def carryOut (machine : Platform) (s : Session) : Task → Run
  | .detect => .printed (detectText s.info)
  | .scan =>
    let (monitor, _) := (Monitor.ofSession s).run Platform.answer machine
    .printed (scanText monitor.slots)
  | .dump slot full =>
    let mode : DumpMode := if full then .full else .compact
    let ((result, _), _) := (s.run (Session.dump · slot mode)).run Platform.answer machine
    match result with
    | .ok d => .printed (dumpText d)
    | .error e => .failed (.reading slot e)
  | .temps watch count =>
    let (monitor, machine) := (Monitor.ofSession s).run Platform.answer machine
    if monitor.slots.all fun slot => slot.thermal = some false then
      .printed "No module temperature sensors found\n"
    else
      match watch with
      | none => .watching ⟨machine, monitor, 0, some 1⟩
      | some seconds => .watching ⟨machine, monitor, seconds, count.map (max 1)⟩
  | .xfer slave shape command write pec =>
    match transactionOf slave shape command write with
    | .error f => .failed f
    | .ok tx =>
      let tx := if pec then tx.withPec else tx
      let ((result, _), _) := (s.run (Session.transfer · tx)).run Platform.answer machine
      match result with
      | .ok payload => .printed (payloadText payload ++ "\n")
      | .error e => .failed (.transfer tx.protocol slave e)

/-- Carries out an invocation on a machine. -/
def runOn (machine : Platform) (i : Invocation) : Run :=
  let config : Config := { retries := i.retries, piix4Port := i.port }
  let (session?, machine) :=
    (Session.bringUp machine.transport config).run Platform.answer machine
  match session? with
  | none => .printed "No supported SMBus controller found\n"
  | some s => carryOut machine s i.task

/-- What is printed when there is nothing to carry out. -/
def Stop.outcome : Stop → Outcome
  | .help topic long => { code := 0, stdout := topic.text long }
  | .version => { code := 0, stdout := versionText }
  | .rejected =>
    { code := 2, stderr := "error: invalid arguments\n\nFor more information, try '--help'.\n" }

/-- Runs a command line. -/
def run (words : List String) : Run :=
  match readArguments words with
  | .error stop => .ended stop.outcome
  | .ok i =>
    match i.simulate with
    | some machine => runOn machine.platform i
    | none => .failed .noMachine

end DimmBus.CommandLine
