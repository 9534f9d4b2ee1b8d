import DimmBus.Session
/-!
# Temperature monitor

The populated slots are listed once, and their temperatures read on demand. A reading that fails is
reported as missing and ends nothing; a slot whose sensor could not be checked is checked again at
the next reading.
-/

namespace DimmBus

/-- A populated slot. -/
structure MonitoredSlot where
  slot : UInt8
  generation : Generation
  memoryType : UInt8
  /-- Whether there is a temperature sensor; none while this is not known. -/
  thermal : Option Bool
deriving DecidableEq, Repr, Inhabited

/-- The temperature of a slot, if there is one. -/
structure Reading where
  slot : UInt8
  temperature : Option Temperature
deriving DecidableEq, Repr, Inhabited

/-- A session with the list of populated slots. -/
structure Monitor where
  session : Session
  slots : List MonitoredSlot
deriving DecidableEq, Repr, Inhabited

namespace Monitor

open Session

/-- Looks into one slot. -/
def inspect (link : Link) (slot : UInt8) : Step (Option MonitoredSlot) := do
  match ← probe link slot with
  | none => return none
  | some generation =>
    let _ ← thermalAvailable link slot
    let known := (← get).module? slot
    return some ⟨slot, generation, (known.map (·.memoryType)).getD 0, known.bind (·.thermal)⟩

/-- Looks into slots one after the other. -/
def inspectAll (link : Link) : List UInt8 → Step (List MonitoredSlot)
  | [] => return []
  | slot :: rest => do
    let here ← inspect link slot
    let others ← inspectAll link rest
    return here.toList ++ others

/-- Every slot of the segment. -/
def allSlots : List UInt8 := (List.range Spd.slotCount).map UInt8.ofNat

/-- Lists the populated slots of a session. Modules that it has found already are kept. -/
def ofSession (s : Session) : Access Monitor := do
  let (slots, session) ← s.perform fun link => inspectAll link allSlots
  return ⟨session, slots⟩

/-- A monitor over the controller that is found, if one is. -/
def bringUp (transport : Transport) (config : Config) : Access (Option Monitor) := do
  match ← Session.bringUp transport config with
  | some session => some <$> ofSession session
  | none => return none

/-- Forgets all modules and lists the slots anew. -/
def rescan (m : Monitor) : Access Monitor := ofSession m.session.forgotten

/-- Reads one slot. A slot that is known to have no sensor is left alone. -/
def pollSlot (link : Link) (s : MonitoredSlot) : Step (MonitoredSlot × Reading) := do
  if s.thermal = some false then
    return (s, ⟨s.slot, none⟩)
  else
    let result ← (readTemperature link s.slot).run
    let known := ((← get).module? s.slot).bind (·.thermal)
    return ({ s with thermal := known }, ⟨s.slot, result.toOption⟩)

/-- Reads slots one after the other. -/
def pollAll (link : Link) : List MonitoredSlot → Step (List (MonitoredSlot × Reading))
  | [] => return []
  | s :: rest => do
    let here ← pollSlot link s
    let others ← pollAll link rest
    return here :: others

/-- Reads every listed slot once. -/
def poll (m : Monitor) : Access (List Reading × Monitor) := do
  let (results, session) ← m.session.perform fun link => pollAll link m.slots
  return (results.map Prod.snd, ⟨session, results.map Prod.fst⟩)

end Monitor

end DimmBus
