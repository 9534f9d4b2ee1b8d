import DimmBus.Proofs.Reading

/-!
# Temperature sensors

Which modules have a sensor that can be used, and the reading that it holds. Operations on the bus
change neither, and a module that grows warmer keeps its sensor.
-/

namespace DimmBus

namespace Slave

/-- Whether a module announces a sensor, in a byte of its EEPROM or in a register of its hub. -/
def announces : Slave → Bool
  | .flat stored _ => hasAny (stored.getD 32 0xFF) Spd.sensorBit
  | .paged stored _ => hasAny (stored.getD 14 0xFF) Spd.sensorBit
  | .hub h => hasAny (h.registers.read Spd.HubRegister.capability.toNat)
      Spd.HubRegister.sensorCapable
  | .sensor _ => false

/-- The reading that a hub or a chip holds. -/
def raw? : Slave → Option UInt16
  | .hub h => some (LittleEndian.word (h.registers.read Spd.HubRegister.temperature.toNat)
      (h.registers.read (Spd.HubRegister.temperature.toNat + 1)))
  | .sensor chip => some (chip.registers.read Spd.SensorRegister.temperature.toNat)
  | _ => none

/-- A hub answers with its reading as it is. -/
theorem raw_hub (h : Hub) (page : UInt8) : (Slave.hub h).raw? =
    some ((Slave.hub h).readWord page Spd.HubRegister.temperature).1 := by
  have hlow : hasAny Spd.HubRegister.temperature Spd.hubMemory = false := by decide
  have hhigh : hasAny (Spd.HubRegister.temperature + 1) Spd.hubMemory = false := by decide
  have hnext : (Spd.HubRegister.temperature + 1).toNat = Spd.HubRegister.temperature.toNat + 1 := by
    decide
  simp [raw?, readWord, read, Hub.read, hlow, hhigh, hnext]

/-- A chip answers with its reading the other way round. -/
theorem raw_chip (chip : SensorChip) (page : UInt8) : (Slave.sensor chip).raw? = some
    (LittleEndian.swap ((Slave.sensor chip).readWord page Spd.SensorRegister.temperature).1) :=
  congrArg some (LittleEndian.swap_swap _).symm

theorem constant_announces : Constant announces where
  read s _ _ := by cases s <;> rfl
  send s _ := by cases s <;> rfl
  write s command value := by
    cases s with
    | hub h =>
        simp only [write, announces]
        rw [read_hub_write command h value (by decide) (.inl (by decide)) (by decide)]
    | flat => rfl
    | paged => rfl
    | sensor => rfl
  store _ _ _ := rfl

/-- Registers of a chip that cannot be written keep what they hold, under whatever command. -/
theorem read_chip_writeWord (chip : SensorChip) (command : UInt8) (value : UInt16)
    {register : UInt8} (hr : SensorChip.isWritable register = false) :
    (chip.writeWord command value).registers.read register.toNat =
      chip.registers.read register.toNat := by
  have hfew : ∀ register : UInt8, SensorChip.isWritable register = false → register.toNat < 8 :=
    forall_byte (by decide +kernel)
  unfold SensorChip.writeWord
  dsimp only
  split
  · rename_i hw
    rw [RegisterFile.read_write, if_neg]
    intro hmod
    have hsame : command &&& 7 = register := by
      refine UInt8.toNat_inj.mp ?_
      have hand : (command &&& 7).toNat = command.toNat % 8 := Nat.and_two_pow_sub_one_eq_mod _ 3
      rw [hand, hmod, Nat.mod_eq_of_lt (hfew register hr)]
    rw [hsame, hr] at hw
    cases hw
  · rfl

theorem constant_raw : Constant raw? where
  read s _ _ := by cases s <;> rfl
  send s _ := by cases s <;> rfl
  write s command value := by
    cases s with
    | hub h =>
        simp only [write, raw?]
        rw [read_hub_write command h value (by decide) (.inl (by decide)) (by decide),
          read_hub_write command h value (by decide) (.inl (by decide)) (by decide)]
    | flat => rfl
    | paged => rfl
    | sensor => rfl
  store chip command value := by
    simp only [raw?]
    rw [read_chip_writeWord chip command value (by decide)]

end Slave

namespace Segment

variable {g g₀ : Segment} {slot : UInt8}

/-- What measures the temperature of the module in a slot: its hub, or a chip of its own next to its
EEPROM. -/
def sensor? (g : Segment) (slot : UInt8) : Option Slave :=
  match g.slave? (Spd.eepromAddress slot) with
  | some (.hub h) => some (.hub h)
  | some (.flat ..) | some (.paged ..) => g.slave? (Spd.sensorAddress slot)
  | _ => none

/-- Whether the module in a slot has a sensor that can be used: it announces one, and somebody
answers for it. -/
def hasSensor (g : Segment) (slot : UInt8) : Bool :=
  (g.slave? (Spd.eepromAddress slot)).any Slave.announces && (g.sensor? slot).isSome

/-- The reading that the sensor of the module in a slot holds. -/
def raw? (g : Segment) (slot : UInt8) : Option UInt16 := (g.sensor? slot).bind Slave.raw?

/-- Two segments have the same slaves, as far as a view goes. -/
def Agree {β : Type} (view : Slave → β) (g g₀ : Segment) : Prop :=
  ∀ address, (g.slave? address).map view = (g₀.slave? address).map view

theorem Agree.execute {β : Type} {view : Slave → β} (h : Agree view g g₀)
    (hc : Slave.Constant view) (t : Transfer) : Agree view (g.execute t).2 g₀ :=
  fun address => (map_slave?_execute hc g t address).trans (h address)

theorem sensor?_eq (g : Segment) (slot : UInt8) :
    g.sensor? slot = (g.generation? (Spd.eepromAddress slot)).bind fun
      | .ddr5 => g.slave? (Spd.eepromAddress slot)
      | _ => g.slave? (Spd.sensorAddress slot) := by
  unfold sensor? generation? lasting?
  cases hs : g.slave? (Spd.eepromAddress slot) with
  | none => rfl
  | some s => cases s <;> rfl

/-- Where a view of the slaves is the same, so is that of the sensor. -/
theorem Agree.sensor {β : Type} {view : Slave → β} (h : Agree view g g₀)
    (hl : ∀ address, g.lasting? address = g₀.lasting? address) (slot : UInt8) :
    (g.sensor? slot).map view = (g₀.sensor? slot).map view := by
  rw [sensor?_eq, sensor?_eq, generation?, generation?, hl]
  cases (g₀.lasting? (Spd.eepromAddress slot)).bind (·.generation) with
  | none => rfl
  | some kind => cases kind <;> exact h _

theorem Agree.raw (h : Agree Slave.raw? g g₀)
    (hl : ∀ address, g.lasting? address = g₀.lasting? address) (slot : UInt8) :
    g.raw? slot = g₀.raw? slot := by
  have hjoin : ∀ s? : Option Slave, s?.bind Slave.raw? = (s?.map Slave.raw?).join := by
    intro s?
    cases s? <;> rfl
  rw [raw?, raw?, hjoin, hjoin, h.sensor hl]

theorem Agree.hasSensor (h : Agree Slave.announces g g₀)
    (hl : ∀ address, g.lasting? address = g₀.lasting? address) (slot : UInt8) :
    g.hasSensor slot = g₀.hasSensor slot := by
  have hany : ∀ s? : Option Slave, s?.any Slave.announces = (s?.map Slave.announces).any id := by
    intro s?
    cases s? <;> rfl
  have hsome := congrArg Option.isSome (h.sensor hl slot)
  rw [Option.isSome_map, Option.isSome_map] at hsome
  rw [Segment.hasSensor, Segment.hasSensor, hany, hany, h, hsome]

/-- Nobody but temperature chips is where they are expected. -/
def ChipsOnly (g : Segment) : Prop :=
  ∀ slot l, g.lasting? (Spd.sensorAddress slot) = some l → l.generation = none

theorem ChipsOnly.congr (hg : g₀.ChipsOnly)
    (hl : ∀ address, g.lasting? address = g₀.lasting? address) : g.ChipsOnly :=
  fun slot l h => hg slot l ((hl _).symm.trans h)

theorem ChipsOnly.chip {s : Slave} (hg : g.ChipsOnly)
    (hs : g.slave? (Spd.sensorAddress slot) = some s) : ∃ chip, s = .sensor chip := by
  have hl := hg slot s.lasting (by rw [lasting?, hs, Option.map_some])
  cases s with
  | sensor chip => exact ⟨chip, rfl⟩
  | flat => cases hl
  | paged => cases hl
  | hub => cases hl

theorem ChipsOnly.attach_eeprom (hg : g.ChipsOnly) (slot : UInt8) (s : Slave) :
    (g.attach (Spd.eepromAddress slot) s).ChipsOnly := by
  intro slot' l hl
  rw [lasting?_attach_ite, if_neg (Spd.sensorAddress_ne slot' slot).symm] at hl
  exact hg slot' l hl

theorem ChipsOnly.attach_sensor (hg : g.ChipsOnly) (slot : UInt8) (chip : SensorChip) :
    (g.attach (Spd.sensorAddress slot) (.sensor chip)).ChipsOnly := by
  intro slot' l hl
  rw [lasting?_attach_ite] at hl
  split at hl
  · rw [← Option.some.inj hl]
    rfl
  · exact hg slot' l hl

theorem ChipsOnly.plug (hg : g.ChipsOnly) (kind : Generation) (slot : UInt8) (thermal : Bool) :
    (Modules.plug g kind slot thermal).ChipsOnly := by
  unfold Modules.plug
  dsimp only
  cases kind with
  | ddr3 | ddr4 =>
      dsimp only
      split
      · exact (hg.attach_eeprom slot _).attach_sensor slot _
      · exact hg.attach_eeprom slot _
  | ddr5 => exact hg.attach_eeprom slot _

/-! ## What a session asks of them -/

theorem execute_quickSensor (g : Segment) (slot : UInt8) :
    (g.execute (Transaction.quick (Spd.sensorAddress slot) .write).request).1 =
      (g.slave? (Spd.sensorAddress slot)).map fun _ => .ack := by
  unfold execute
  simp only [Transaction.request, Transaction.quick, Spd.isLatch_sensor, Bool.false_eq_true,
    if_false]
  cases g.slave? (Spd.sensorAddress slot) <;> rfl

theorem execute_sensorConfig (g : Segment) (slot value : UInt8) :
    (g.execute (Transaction.writeByteData (Spd.eepromAddress slot) Spd.HubRegister.sensorConfig
      value).request).1 = (g.slave? (Spd.eepromAddress slot)).map fun _ => .ack := by
  unfold execute
  simp only [Transaction.request, Transaction.writeByteData, Spd.isLatch_eeprom, Bool.false_eq_true,
    if_false]
  cases g.slave? (Spd.eepromAddress slot) <;> rfl

theorem isLatch_ofModule (kind : Generation) (slot : UInt8) :
    isLatch (ThermalSensor.ofModule kind slot).reading.slave = false := by
  cases kind with
  | ddr3 | ddr4 => exact Spd.isLatch_sensor slot
  | ddr5 => exact Spd.isLatch_eeprom slot

/-- The transaction for a reading is answered by the sensor. -/
theorem execute_reading {kind : Generation}
    (hkind : g.generation? (Spd.eepromAddress slot) = some kind) :
    (g.execute (ThermalSensor.ofModule kind slot).reading.request).1 =
      (g.sensor? slot).map fun s =>
        .word (s.readWord g.page (ThermalSensor.ofModule kind slot).reading.command).1 := by
  have hlatch := isLatch_ofModule kind slot
  rw [sensor?_eq, hkind, Option.bind_some]
  rw [execute, if_neg (Bool.not_eq_true _ ▸ hlatch)]
  cases kind with
  | ddr3 | ddr4 =>
      dsimp only [ThermalSensor.ofModule, ThermalSensor.reading, Transaction.readWordData,
        Transaction.request]
      cases g.slave? (Spd.sensorAddress slot) <;> rfl
  | ddr5 =>
      dsimp only [ThermalSensor.ofModule, ThermalSensor.reading, Transaction.readWordData,
        Transaction.request]
      cases g.slave? (Spd.eepromAddress slot) <;> rfl

/-- Both kinds of sensors get their reading across, each in its own byte order. -/
theorem temperature_of_execute {kind : Generation} {word : UInt16} (hg : g.ChipsOnly)
    (hkind : g.generation? (Spd.eepromAddress slot) = some kind)
    (h : (g.execute (ThermalSensor.ofModule kind slot).reading.request).1 = some (.word word)) :
    ∃ raw, g.raw? slot = some raw ∧
      (ThermalSensor.ofModule kind slot).temperature word = .ofReading raw := by
  rw [execute_reading hkind] at h
  obtain ⟨s, hs, hword⟩ := Option.map_eq_some_iff.mp h
  have hraw : g.raw? slot = s.raw? := by rw [raw?, hs, Option.bind_some]
  rw [sensor?_eq, hkind, Option.bind_some] at hs
  injection hword with hword
  subst hword
  cases kind with
  | ddr3 | ddr4 =>
      obtain ⟨chip, rfl⟩ := hg.chip hs
      exact ⟨_, hraw.trans (Slave.raw_chip chip g.page), rfl⟩
  | ddr5 =>
      obtain ⟨s', hs', hhub⟩ := slave_of_generation hkind
      cases hs.symm.trans hs'
      cases s with
      | hub hub => exact ⟨_, hraw.trans (Slave.raw_hub hub g.page), rfl⟩
      | flat => cases hhub
      | paged => cases hhub
      | sensor => cases hhub

/-- The byte that announces the sensor of a module with an EEPROM. -/
def announcement? : Generation → Option UInt16
  | .ddr3 => some 32
  | .ddr4 => some 14
  | .ddr5 => none

theorem Telling.announcement {kind : Generation} {address : UInt16} (hg : g.Telling)
    (hkind : g.generation? (Spd.eepromAddress slot) = some kind)
    (ha : announcement? kind = some address) : ∃ value, g.stored? slot address = some value := by
  obtain ⟨l, hl, hgen⟩ := Option.bind_eq_some_iff.mp hkind
  have hlt : address.toNat < l.stored.size := by
    rw [(hg slot l hl).size hgen]
    cases kind with
    | ddr3 | ddr4 =>
        cases ha
        decide
    | ddr5 => cases ha
  exact ⟨l.stored[address.toNat], by
    rw [stored?, hl, Option.bind_some, Array.getElem?_eq_getElem hlt]⟩

/-- Next to an EEPROM, the byte and the chip tell. -/
theorem hasSensor_of_stored {kind : Generation} {address : UInt16} {value : UInt8}
    (hkind : g.generation? (Spd.eepromAddress slot) = some kind)
    (ha : announcement? kind = some address) (hv : g.stored? slot address = some value) :
    g.hasSensor slot =
      (hasAny value Spd.sensorBit && (g.slave? (Spd.sensorAddress slot)).isSome) := by
  obtain ⟨s, hs, hl⟩ := slave_of_generation hkind
  rw [stored?, lasting?, hs, Option.map_some, Option.bind_some] at hv
  rw [hasSensor, sensor?, hs, Option.any_some]
  cases s with
  | flat stored pointer =>
      cases hl
      cases ha
      have hv : stored[32]? = some value := hv
      simp only [Slave.announces, Array.getD_eq_getD_getElem?, hv, Option.getD_some]
  | paged stored pointer =>
      cases hl
      cases ha
      have hv : stored[14]? = some value := hv
      simp only [Slave.announces, Array.getD_eq_getD_getElem?, hv, Option.getD_some]
  | hub =>
      cases hl
      cases ha
  | sensor => cases hl

/-- Of a hub, its register tells. -/
theorem hasSensor_of_hub {hub : Hub} (hs : g.slave? (Spd.eepromAddress slot) = some (.hub hub)) :
    g.hasSensor slot = (Slave.hub hub).announces := by
  rw [hasSensor, sensor?, hs]
  exact Bool.and_true _

/-- No sensor without a module. -/
theorem hasSensor_absent (hg : g.Telling)
    (hkind : g.generation? (Spd.eepromAddress slot) = none) : g.hasSensor slot = false := by
  rw [hasSensor, hg.absent hkind]
  rfl

end Segment

namespace Platform

variable {p : Platform} {slot : UInt8}

theorem Assembled.chipsOnly (ha : p.Assembled) : p.segment.ChipsOnly := by
  induction ha with
  | bare =>
      intro slot l hl
      have hnone : (Segment.empty).slave? (Spd.sensorAddress slot) = none :=
        RegisterFile.read_filled none _
      rw [show ({} : Platform).segment = Segment.empty from rfl, Segment.lasting?, hnone] at hl
      cases hl
  | withIch _ device hostConfig ih => exact ih
  | withPiix4 _ vendor device revision ih => exact ih
  | withImc _ ih => exact ih
  | withModule _ kind slot thermal ih => exact ih.plug kind slot thermal
  | delegated _ ih => exact ih
  | latched _ page hpage ih => exact ih
  | withHubRegister _ slot register value hr ih =>
      exact ih.congr fun address => lasting?_setHubRegister slot value address hr

theorem announces_setTemperature (slot : UInt8) (raw : UInt16) :
    (p.setTemperature slot raw).segment.Agree Slave.announces p.segment := by
  refine map_slave?_setTemperature (fun h => ?_) (fun _ => rfl) slot
  simp only [Slave.announces]
  rw [read_hub_setReading h raw (by decide) (by decide) (by decide)]

theorem slave?_change_ne {address address' : UInt8} {f : Slave → Option Slave}
    (hne : address ≠ address') :
    (p.change address f).segment.slave? address' = p.segment.slave? address' := by
  unfold change
  split
  · dsimp only
    rw [Segment.slave?_attach, if_neg hne]
  · rfl

theorem slave?_change_self {address : UInt8} {f : Slave → Option Slave} {s s' : Slave}
    (hs : p.segment.slave? address = some s) (hf : f s = some s') :
    (p.change address f).segment.slave? address = some s' := by
  unfold change
  rw [hs, Option.bind_some, hf]
  dsimp only
  rw [Segment.slave?_attach, if_pos rfl]

theorem hub_setTemperature {hub : Hub}
    (hs : p.segment.slave? (Spd.eepromAddress slot) = some (.hub hub)) (raw : UInt16) :
    (p.setTemperature slot raw).segment.slave? (Spd.eepromAddress slot) =
      some (.hub (hub.setReading raw)) := by
  unfold setTemperature
  exact (slave?_change_ne (Spd.sensorAddress_ne slot slot)).trans (slave?_change_self hs rfl)

theorem chip_setTemperature {chip : SensorChip}
    (hs : p.segment.slave? (Spd.sensorAddress slot) = some (.sensor chip)) (raw : UInt16) :
    (p.setTemperature slot raw).segment.slave? (Spd.sensorAddress slot) =
      some (.sensor (chip.setReading raw)) := by
  have hne := (Spd.sensorAddress_ne slot slot).symm
  unfold setTemperature
  exact slave?_change_self ((slave?_change_ne hne).trans hs) rfl

/-- The reading that was set is held. -/
theorem raw_setTemperature (hc : p.segment.ChipsOnly) (h : p.segment.hasSensor slot = true)
    (raw : UInt16) : (p.setTemperature slot raw).segment.raw? slot = some raw := by
  rw [Segment.hasSensor, Bool.and_eq_true, Segment.sensor?_eq] at h
  obtain ⟨s, hs⟩ := Option.isSome_iff_exists.mp h.2
  obtain ⟨kind, hkind, hs⟩ := Option.bind_eq_some_iff.mp hs
  have hkind' : (p.setTemperature slot raw).segment.generation? (Spd.eepromAddress slot) =
      some kind := by
    rw [Segment.generation?, lasting?_setTemperature]
    exact hkind
  rw [Segment.raw?, Segment.sensor?_eq, hkind', Option.bind_some]
  cases kind with
  | ddr3 | ddr4 =>
      obtain ⟨chip, rfl⟩ := hc.chip hs
      dsimp only
      rw [chip_setTemperature hs, Option.bind_some, Slave.raw?, SensorChip.setReading,
        RegisterFile.read_write, if_pos rfl]
  | ddr5 =>
      have hhub := (Segment.generation?_of_slave hs).symm.trans hkind
      cases s with
      | hub hub =>
          dsimp only
          rw [hub_setTemperature hs, Option.bind_some, Slave.raw?, Hub.setReading]
          dsimp only
          rw [RegisterFile.read_write, if_neg (by decide), RegisterFile.read_write, if_pos rfl,
            RegisterFile.read_write, if_pos rfl, LittleEndian.word_low_high]
      | flat => cases hhub
      | paged => cases hhub
      | sensor => cases hhub

end Platform

end DimmBus
