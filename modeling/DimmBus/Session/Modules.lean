import DimmBus.Session.Basic
/-!
# Pages and modules

Selecting a page only when another one may be shown, and finding out which module a slot holds.
-/

namespace DimmBus.Session

/-- The write that shows a page of a module; flat modules have none. -/
def pageSelect? (g : Generation) (slave page : UInt8) : Option Transaction :=
  match g with
  | .ddr3 => none
  | .ddr4 => some (.writeByteData (Spd.pageLatch page) 0 0)
  | .ddr5 => some (.writeByteData slave Spd.HubRegister.page page)

/-- Shows a page. The write is left out when the page was the last to be selected. -/
def selectPage (link : Link) (g : Generation) (slave page : UInt8) : Operation Unit := do
  match pageSelect? g slave page with
  | none => return
  | some tx =>
    if (← get).latch = some ⟨slave, page⟩ then
      return
    else
      match ← outcome (send link tx) with
      | .ok _ => step (setLatch slave page)
      | .error e =>
        step dropLatch
        throw e

/-- The memory-type code of a two-page EEPROM in the slot. Only such EEPROMs acknowledge the page
latch. -/
def probeDdr4 (link : Link) (slot : UInt8) : Operation (Option UInt8) := do
  let slave := Spd.eepromAddress slot
  let _ ← send link (.quick (Spd.pageLatch 0) .write)
  selectPage link .ddr4 slave 0
  let code ← readByte link slave Spd.memoryTypeByte
  return if Spd.MemoryType.isDdr4 code then some code else none

/-- The memory-type code of a hub in the slot. Nothing is written before a hub has shown itself. -/
def probeDdr5 (link : Link) (slot : UInt8) : Operation (Option UInt8) := do
  let slave := Spd.eepromAddress slot
  let kind ← readByte link slave Spd.HubRegister.deviceType
  if kind = Spd.HubRegister.hubType then
    let shown ← readByte link slave Spd.HubRegister.page
    step (setLatch slave (shown &&& Spd.HubRegister.pageMask))
    selectPage link .ddr5 slave 0
    let code ← readByte link slave (Spd.hubMemory ||| Spd.memoryTypeByte)
    return if Spd.MemoryType.isDdr5 code then some code else none
  else
    return none

/-- The memory-type code of a flat EEPROM in the slot. -/
def probeLegacy (link : Link) (slot : UInt8) : Operation (Option UInt8) := do
  let code ← readByte link (Spd.eepromAddress slot) Spd.memoryTypeByte
  return if Spd.MemoryType.isLegacy code then some code else none

/-- The first generation whose probe finds a module. A probe that fails finds none. -/
def firstFound : List (Generation × Operation (Option UInt8)) → Step (Option (Generation × UInt8))
  | [] => return none
  | (g, probe) :: rest => do
    match ← probe.run with
    | .ok (some code) => return some (g, code)
    | .ok none => firstFound rest
    | .error _ =>
      dropLatch
      firstFound rest

/-- Finds out which module answers in a slot. -/
def probeSlot (link : Link) (slot : UInt8) : Step (Option (Generation × UInt8)) :=
  firstFound [(.ddr4, probeDdr4 link slot), (.ddr5, probeDdr5 link slot),
    (.ddr3, probeLegacy link slot)]

/-- The generation of the module in a slot. It is looked for until one is found and remembered from
then on. -/
def probe (link : Link) (slot : UInt8) : Step (Option Generation) := do
  if slot.toNat < Spd.slotCount then
    match (← get).module? slot with
    | some found => return some found.generation
    | none =>
      match ← (locked link (step (probeSlot link slot))).run with
      | .ok (some (g, code)) =>
        modify fun m => m.setModule slot ⟨g, code, none⟩
        return some g
      | _ => return none
  else
    return none

/-- The generation of the module in a slot; it is an error if there is none. -/
def confirmed (link : Link) (slot : UInt8) : Operation Generation := do
  if slot.toNat < Spd.slotCount then
    match ← step (probe link slot) with
    | some g => return g
    | none => throw (.noModule slot)
  else
    throw (.param (.slot slot))

/-- Forgets every module and every page. -/
def forgetModules : Step Unit := set Memory.empty

end DimmBus.Session
