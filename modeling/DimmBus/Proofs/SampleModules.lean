import DimmBus.Proofs.Assembly
import DimmBus.Proofs.Contents

/-!
# The modules of an assembled machine

The sample modules can be told apart, and nothing but modules is in the slots.
-/

namespace DimmBus

/-! ## Addresses -/

namespace Spd

theorem eepromAddress_ge : ∀ slot : UInt8, 0x20 ≤ eepromAddress slot :=
  forall_byte (by decide +kernel)

theorem sensorAddress_lt : ∀ slot : UInt8, sensorAddress slot < 0x20 :=
  forall_byte (by decide +kernel)

theorem sensorAddress_ne (slot slot' : UInt8) : sensorAddress slot ≠ eepromAddress slot' := by
  intro h
  have hlt := sensorAddress_lt slot
  have hge := eepromAddress_ge slot'
  rw [h] at hlt
  exact absurd (UInt8.lt_of_lt_of_le hlt hge) (UInt8.lt_irrefl _)

end Spd

/-! ## Sample modules -/

namespace Modules

theorem size_patched (bytes : Array UInt8) (values : List (Nat × UInt8)) :
    (patched bytes values).size = bytes.size := by
  unfold patched
  induction values generalizing bytes with
  | nil => rfl
  | cons value values ih => rw [List.foldl_cons, ih, Array.size_setIfInBounds]

theorem pattern_eq_toArray (size seed : Nat) : pattern size seed =
    ((List.range size).map fun i => UInt8.ofNat ((i * 31 + seed) % 65536 % 251)).toArray := by
  apply Array.ext'
  simp [pattern]

theorem size_pattern (size seed : Nat) : (pattern size seed).size = size := by
  rw [pattern, Array.size_map, Array.size_range]

theorem getD_pattern {size i : Nat} (hi : i < size) (seed : Nat) (d : UInt8) :
    (pattern size seed).getD i d = UInt8.ofNat ((i * 31 + seed) % 65536 % 251) := by
  rw [pattern, Array.getD_eq_getD_getElem?, Array.getElem?_map, Array.getElem?_range, if_pos hi]
  rfl

theorem getD_setIfInBounds {a : Array UInt8} {i : Nat} (hi : i < a.size) (j : Nat) (v d : UInt8) :
    (a.setIfInBounds j v).getD i d = if j = i then v else a.getD i d := by
  rw [Array.getD_eq_getD_getElem?, Array.getD_eq_getD_getElem?, Array.getElem?_setIfInBounds]
  by_cases hj : j = i
  · subst hj
    simp [hi]
  · simp [hj]

/-- The last of the values that are set at a place is there. -/
theorem getD_patched {bytes : Array UInt8} {i : Nat} (hi : i < bytes.size)
    (values : List (Nat × UInt8)) (d : UInt8) :
    (patched bytes values).getD i d = (values.reverse.lookup i).getD (bytes.getD i d) := by
  induction values generalizing bytes with
  | nil => rfl
  | cons value values ih =>
      obtain ⟨j, v⟩ := value
      have hcons : patched bytes ((j, v) :: values) =
        patched (bytes.setIfInBounds j v) values := rfl
      have hi' : i < (bytes.setIfInBounds j v).size := by
        rw [Array.size_setIfInBounds]
        exact hi
      rw [hcons, ih hi', getD_setIfInBounds hi, List.reverse_cons, List.lookup_append,
        Option.getD_or]
      congr 1
      by_cases hj : j = i
      · subst hj
        simp
      · have hne : (i == j) = false := by simpa using fun h => hj h.symm
        simp [List.lookup_cons, hne, hj]

/-- A byte of a sample module. -/
theorem getD_sample {size i : Nat} (hi : i < size) (seed : Nat) (values : List (Nat × UInt8))
    (d : UInt8) : (patched (pattern size seed) values).getD i d =
      (values.reverse.lookup i).getD (UInt8.ofNat ((i * 31 + seed) % 65536 % 251)) := by
  rw [getD_patched (by rw [size_pattern]; exact hi), getD_pattern hi]

theorem telling_ddr3 (thermal : Bool) :
    (Slave.flat (image .ddr3 thermal) 0).lasting.Telling := by
  refine ⟨?_, ?_, ?_⟩ <;> simp only [Slave.lasting, image, ddr3Image]
  · rw [size_patched, size_pattern]
  all_goals rw [getD_sample (by decide)]
  all_goals simp [List.lookup_cons]
  all_goals decide

theorem telling_ddr4 (thermal : Bool) :
    (Slave.paged (image .ddr4 thermal) 0).lasting.Telling := by
  refine ⟨?_, ?_, ?_, ?_, ?_⟩ <;> simp only [Slave.lasting, image, ddr4Image]
  · rw [size_patched, size_pattern]
  all_goals rw [getD_sample (by decide)]
  all_goals simp [List.lookup_cons]
  all_goals decide

theorem telling_ddr5 (thermal : Bool) :
    (Slave.hub (hub (image .ddr5 thermal) thermal)).lasting.Telling := by
  have hkind : (hub (image .ddr5 thermal) thermal).registers.read
      Spd.HubRegister.deviceType.toNat = Spd.HubRegister.hubType := by
    simp +decide [hub, RegisterFile.writeAll, RegisterFile.read_write]
  have hrevision : (hub (image .ddr5 thermal) thermal).registers.read
      Spd.memoryTypeByte.toNat = 0x12 := by
    simp +decide [hub, RegisterFile.writeAll, RegisterFile.read_write]
  refine ⟨?_, hkind, ?_, ?_, ?_⟩ <;> simp only [Slave.lasting, hrevision]
  · rw [hub, image, ddr5Image, size_patched, size_pattern]
  · rw [hub, image, ddr5Image, getD_sample (by decide)]
    simp
    decide
  · decide
  · decide

end Modules

namespace Segment

variable {g : Segment}

theorem lasting?_attach_ite (slave address : UInt8) (s : Slave) :
    (g.attach slave s).lasting? address =
      if slave = address then some s.lasting else g.lasting? address := by
  unfold lasting?
  rw [slave?_attach]
  split <;> rfl

theorem Telling.congr {g₀ : Segment} (hg : g₀.Telling)
    (hl : ∀ address, g.lasting? address = g₀.lasting? address) : g.Telling :=
  fun slot l h => hg slot l ((hl _).symm.trans h)

theorem Telling.attach (hg : g.Telling) (slave : UInt8) {s : Slave} (hs : s.lasting.Telling) :
    (g.attach slave s).Telling := by
  intro slot l hl
  rw [lasting?_attach_ite] at hl
  split at hl
  · rw [← Option.some.inj hl]
    exact hs
  · exact hg slot l hl

theorem Telling.attach_sensor (hg : g.Telling) (slot : UInt8) (s : Slave) :
    (g.attach (Spd.sensorAddress slot) s).Telling := by
  intro slot' l hl
  rw [lasting?_attach_ite, if_neg (Spd.sensorAddress_ne slot slot')] at hl
  exact hg slot' l hl

theorem Telling.plug (hg : g.Telling) (generation : Generation) (slot : UInt8) (thermal : Bool) :
    (Modules.plug g generation slot thermal).Telling := by
  unfold Modules.plug
  dsimp only
  cases generation with
  | ddr3 =>
      have hm := hg.attach (Spd.eepromAddress slot) (Modules.telling_ddr3 thermal)
      dsimp only
      split
      · exact hm.attach_sensor slot _
      · exact hm
  | ddr4 =>
      have hm := hg.attach (Spd.eepromAddress slot) (Modules.telling_ddr4 thermal)
      dsimp only
      split
      · exact hm.attach_sensor slot _
      · exact hm
  | ddr5 => exact hg.attach _ (Modules.telling_ddr5 thermal)

theorem page_plug (generation : Generation) (slot : UInt8) (thermal : Bool) :
    (Modules.plug g generation slot thermal).page = g.page := by
  unfold Modules.plug
  dsimp only
  cases generation <;> dsimp only <;> (try split) <;> rfl

end Segment

/-! ## Assembled machines -/

namespace Platform

variable {p : Platform}

/-- A change that does not show in a view of one slave does not show in that of any. -/
theorem map_slave?_change {β : Type} {view : Slave → β} {address : UInt8} {f : Slave → Option Slave}
    (hf : ∀ s s', f s = some s' → view s' = view s) (address' : UInt8) :
    ((p.change address f).segment.slave? address').map view =
      (p.segment.slave? address').map view := by
  unfold change
  cases hs : p.segment.slave? address with
  | none => rfl
  | some s =>
      cases hs' : f s with
      | none => simp only [Option.bind_some, hs']
      | some s' =>
          simp only [Option.bind_some, hs']
          exact Segment.map_slave?_attach hs (hf s s' hs')

theorem page_change {address : UInt8} {f : Slave → Option Slave} :
    (p.change address f).segment.page = p.segment.page := by
  unfold change
  split <;> rfl

theorem lasting?_setHubRegister (slot value address : UInt8) {register : UInt8}
    (hr : register.toNat % 128 ≠ Spd.HubRegister.deviceType.toNat ∧
      register.toNat % 128 ≠ Spd.HubRegister.deviceRevision.toNat) :
    (p.setHubRegister slot register value).segment.lasting? address =
      p.segment.lasting? address := by
  refine map_slave?_change (fun s s' hs => ?_) address
  cases s with
  | hub h =>
      have hkind : Spd.HubRegister.deviceType.toNat % 128 = Spd.HubRegister.deviceType.toNat := by
        decide
      have hrevision : Spd.memoryTypeByte.toNat % 128 = Spd.HubRegister.deviceRevision.toNat := by
        decide
      rw [← Option.some.inj hs]
      simp [Slave.lasting, RegisterFile.read_write, hkind, hrevision, hr.1, hr.2]
  | flat => cases hs
  | paged => cases hs
  | sensor => cases hs

theorem Assembled.telling (ha : p.Assembled) : p.segment.Telling ∧ p.segment.page ≤ 1 := by
  induction ha with
  | bare =>
      refine ⟨fun slot l hl => ?_, by decide⟩
      have hnone : (Segment.empty).slave? (Spd.eepromAddress slot) = none :=
        RegisterFile.read_filled none _
      rw [show ({} : Platform).segment = Segment.empty from rfl, Segment.lasting?, hnone] at hl
      cases hl
  | withIch _ device hostConfig ih => exact ih
  | withPiix4 _ vendor device revision ih => exact ih
  | withImc _ ih => exact ih
  | withModule _ g slot thermal ih =>
      refine ⟨ih.1.plug g slot thermal, ?_⟩
      rw [Platform.withModule, Segment.page_plug]
      exact ih.2
  | delegated _ ih => exact ih
  | latched _ page hpage ih => exact ⟨ih.1, hpage⟩
  | withHubRegister _ slot register value hr ih =>
      refine ⟨ih.1.congr fun address => lasting?_setHubRegister slot value address hr, ?_⟩
      rw [setHubRegister, page_change]
      exact ih.2

theorem moduleAt?_withModule (p : Platform) (g : Generation) (slot : UInt8) (thermal : Bool) :
    ∃ module, (p.withModule g slot thermal).moduleAt? slot = some module ∧
      module.lasting.generation = some g := by
  have hne := Spd.sensorAddress_ne slot slot
  unfold withModule moduleAt? Modules.plug
  dsimp only
  cases g with
  | ddr3 =>
      refine ⟨.flat (Modules.image .ddr3 thermal) 0, ?_, rfl⟩
      cases thermal <;> simp [Segment.slave?_attach, hne]
  | ddr4 =>
      refine ⟨.paged (Modules.image .ddr4 thermal) 0, ?_, rfl⟩
      cases thermal <;> simp [Segment.slave?_attach, hne]
  | ddr5 =>
      refine ⟨.hub (Modules.hub (Modules.image .ddr5 thermal) thermal), ?_, rfl⟩
      simp [Segment.slave?_attach]

/-! ## Temperatures -/

/-- A view that shows no reading does not show a change of it. -/
theorem map_slave?_setTemperature {β : Type} {view : Slave → β} {raw : UInt16}
    (hhub : ∀ h : Hub, view (.hub (h.setReading raw)) = view (.hub h))
    (hchip : ∀ chip : SensorChip, view (.sensor (chip.setReading raw)) = view (.sensor chip))
    (slot address : UInt8) : ((p.setTemperature slot raw).segment.slave? address).map view =
      (p.segment.slave? address).map view := by
  unfold setTemperature
  rw [map_slave?_change, map_slave?_change]
  · intro s s' hs
    cases s with
    | hub h =>
        rw [← Option.some.inj hs]
        exact hhub h
    | flat => cases hs
    | paged => cases hs
    | sensor => cases hs
  · intro s s' hs
    cases s with
    | sensor chip =>
        rw [← Option.some.inj hs]
        exact hchip chip
    | flat => cases hs
    | paged => cases hs
    | hub => cases hs

/-- A reading has two registers of a hub. -/
theorem read_hub_setReading (h : Hub) (raw : UInt16) {i : Nat} (hi : i < 128)
    (hlow : i ≠ Spd.HubRegister.temperature.toNat)
    (hhigh : i ≠ Spd.HubRegister.temperature.toNat + 1) :
    (h.setReading raw).registers.read i = h.registers.read i := by
  have ht : Spd.HubRegister.temperature.toNat = 0x31 := by decide
  unfold Hub.setReading
  dsimp only
  rw [RegisterFile.read_write, if_neg (by omega), RegisterFile.read_write, if_neg (by omega)]

theorem lasting?_setTemperature (slot : UInt8) (raw : UInt16) (address : UInt8) :
    (p.setTemperature slot raw).segment.lasting? address = p.segment.lasting? address := by
  refine map_slave?_setTemperature (fun h => ?_) (fun _ => rfl) slot address
  simp only [Slave.lasting]
  rw [read_hub_setReading h raw (by decide) (by decide) (by decide),
    read_hub_setReading h raw (by decide) (by decide) (by decide)]
  rfl

theorem page_setTemperature (slot : UInt8) (raw : UInt16) :
    (p.setTemperature slot raw).segment.page = p.segment.page := by
  unfold setTemperature
  rw [page_change, page_change]

theorem shown?_setTemperature (slot : UInt8) (raw : UInt16) (address : UInt8) :
    (p.setTemperature slot raw).segment.shown? address = p.segment.shown? address := by
  have hjoin : ∀ (s? : Option Slave) (latch : UInt8),
      s?.bind (Slave.shown? latch) = (s?.map (Slave.shown? latch)).join := by
    intro s? latch
    cases s? <;> rfl
  unfold Segment.shown?
  rw [page_setTemperature, hjoin, hjoin, map_slave?_setTemperature (fun h => ?_) fun _ => rfl]
  simp only [Slave.shown?]
  rw [read_hub_setReading h raw (by decide) (by decide) (by decide)]

/-- What a machine stores is told by what lasts of its slaves. -/
theorem storedByte?_eq (p : Platform) (slot : UInt8) (address : UInt16) :
    p.storedByte? slot address =
      (p.segment.lasting? (Spd.eepromAddress slot)).bind (·.stored[address.toNat]?) := by
  unfold storedByte? moduleAt? Segment.lasting?
  cases p.segment.slave? (Spd.eepromAddress slot) with
  | none => rfl
  | some s => cases s <;> rfl

end Platform

end DimmBus
