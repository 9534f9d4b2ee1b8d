import DimmBus.Proofs.SampleModules
import DimmBus.Session.Thermal

/-!
# What a session remembers

Modules and pages as a session remembers them, and when they are those of the segment.
-/

namespace DimmBus

/-! ## Memory -/

namespace Memory

variable (m : Memory) (slot slot' : UInt8)

theorem module?_empty : Memory.empty.module? slot = none := by
  simp [module?, empty, Vector.getElem?_replicate]
  split <;> rfl

theorem module?_setModule (found : Module) : (m.setModule slot found).module? slot' =
    if slot = slot' ∧ slot.toNat < 8 then some found else m.module? slot' := by
  unfold module? setModule
  dsimp only
  rw [Vector.getElem?_setIfInBounds]
  by_cases hs : slot = slot'
  · subst hs
    by_cases hlt : slot.toNat < 8
    · simp [hlt]
    · simp [hlt]
  · have hne : slot.toNat ≠ slot'.toNat := fun h => hs (UInt8.toNat_inj.mp h)
    simp [hs, hne]

end Memory

/-! ## Transactions of a session -/

namespace Spd

theorem isLatch_eeprom : ∀ slot : UInt8, Segment.isLatch (eepromAddress slot) = false :=
  forall_byte (by decide +kernel)

theorem isLatch_sensor : ∀ slot : UInt8, Segment.isLatch (sensorAddress slot) = false :=
  forall_byte (by decide +kernel)

theorem eepromAddress_le : ∀ slot : UInt8, ¬0x7F < eepromAddress slot :=
  forall_byte (by decide +kernel)

theorem sensorAddress_le : ∀ slot : UInt8, ¬0x7F < sensorAddress slot :=
  forall_byte (by decide +kernel)

theorem isLatch_pageLatch : ∀ page : UInt8, page ≤ 1 →
    Segment.isLatch (pageLatch page) = true ∧ ¬0x7F < pageLatch page ∧
      pageLatch page - pageLatch 0 = page :=
  forall_byte (by decide +kernel)

end Spd

namespace Segment

variable {g g₀ : Segment} {slot command page : UInt8}

theorem generation?_of_slave {s : Slave} {address : UInt8} (hs : g.slave? address = some s) :
    g.generation? address = s.lasting.generation := by
  simp [generation?, lasting?, hs]

/-- Whether a module answers at an address. -/
theorem slave_of_generation {generation : Generation} {address : UInt8}
    (hg : g.generation? address = some generation) :
    ∃ s, g.slave? address = some s ∧ s.lasting.generation = some generation := by
  cases hs : g.slave? address with
  | none =>
      rw [generation?, lasting?, hs] at hg
      cases hg
  | some s => exact ⟨s, rfl, (generation?_of_slave hs).symm.trans hg⟩

/-- Two-page EEPROMs show the page of the latch. -/
theorem shown_of_generation {address : UInt8} (hg : g.generation? address = some .ddr4) :
    g.shown? address = some g.page := by
  obtain ⟨s, hs, hl⟩ := slave_of_generation hg
  rw [shown?, hs, Option.bind_some, Slave.shown_of_paged hl]

theorem generation_of_shown {address : UInt8} (hs : g.shown? address = some page) :
    g.generation? address = some .ddr4 ∨ g.generation? address = some .ddr5 := by
  obtain ⟨s, hs, hp⟩ := Option.bind_eq_some_iff.mp hs
  rw [generation?_of_slave hs]
  exact Slave.generation_of_shown hp

theorem hasPaged_of_generation {address : UInt8} (hg : g.generation? address = some .ddr4) :
    g.hasPaged = true := by
  obtain ⟨s, hs, hl⟩ := slave_of_generation hg
  cases s with
  | paged stored pointer =>
      have hlt : address.toNat % 256 < 256 := Nat.mod_lt _ (by decide)
      rw [hasPaged, Vector.any_eq_true]
      refine ⟨address.toNat % 256, hlt, ?_⟩
      have hcell : g.slaves.cells[address.toNat % 256] = some (.paged stored pointer) := hs
      rw [hcell]
  | flat => cases hl
  | hub => cases hl
  | sensor => cases hl

/-! ## Operations of a session -/

theorem execute_readByte (g : Segment) (slot command : UInt8) :
    (g.execute (Transaction.readByteData (Spd.eepromAddress slot) command).request).1 =
      (g.slave? (Spd.eepromAddress slot)).map fun s => .byte (s.read g.page command).1 := by
  unfold execute
  simp only [Transaction.request, Transaction.readByteData, Spd.isLatch_eeprom, Bool.false_eq_true,
    if_false]
  cases g.slave? (Spd.eepromAddress slot) <;> rfl

theorem execute_selectDdr4 (hpage : page ≤ 1) :
    g.execute (Transaction.writeByteData (Spd.pageLatch page) 0 0).request =
      if g.hasPaged then (some .ack, { g with page }) else (none, g) := by
  obtain ⟨hl, -, hsub⟩ := Spd.isLatch_pageLatch page hpage
  unfold execute
  simp only [Transaction.request, Transaction.writeByteData, hl, if_true, hsub]
  cases g.hasPaged <;> simp

theorem execute_quickLatch :
    g.execute (Transaction.quick (Spd.pageLatch 0) .write).request =
      if g.hasPaged then (some .ack, { g with page := 0 }) else (none, g) := by
  have hl : isLatch (Spd.pageLatch 0) = true := by decide
  have hsub : Spd.pageLatch 0 - Spd.pageLatch 0 = 0 := by decide
  unfold execute
  simp only [Transaction.request, Transaction.quick, hl, if_true, hsub]
  cases g.hasPaged <;> simp

/-- A hub shows the page that is written to its page register. -/
theorem execute_selectDdr5 :
    g.execute (Transaction.writeByteData (Spd.eepromAddress slot) Spd.HubRegister.page
        page).request =
      match g.slave? (Spd.eepromAddress slot) with
      | none => (none, g)
      | some s => (some .ack, g.attach (Spd.eepromAddress slot)
          (s.write Spd.HubRegister.page page)) := by
  have hlow := LittleEndian.low_word page 0
  have hlatch : ¬isLatch (Transaction.writeByteData (Spd.eepromAddress slot) Spd.HubRegister.page
      page).request.slave = true := by
    simp [Transaction.request, Transaction.writeByteData, Spd.isLatch_eeprom]
  rw [execute, if_neg hlatch]
  dsimp only [Transaction.request, Transaction.writeByteData]
  cases g.slave? (Spd.eepromAddress slot) with
  | none => rfl
  | some s => simp only [serve, hlow]

theorem shown_select {s : Slave} {latch : UInt8} (hg : s.lasting.generation = some .ddr5) :
    (s.write Spd.HubRegister.page page).shown? latch =
      some (page &&& Spd.HubRegister.pageMask) := by
  have hmask : ∀ page : UInt8, page &&& Spd.HubRegister.pageMask &&& Spd.HubRegister.pageMask =
      page &&& Spd.HubRegister.pageMask := forall_byte (by decide +kernel)
  cases s with
  | hub h =>
      simp only [Slave.write, Hub.write, if_true, Slave.shown?, RegisterFile.read_write, hmask]
  | flat => cases hg
  | paged => cases hg
  | sensor => cases hg

end Segment

/-! ## True memories -/

/-- The memory-type code that the module in a slot stores. -/
def Segment.code? (g : Segment) (slot : UInt8) : Option UInt8 :=
  (g.lasting? (Spd.eepromAddress slot)).map (·.stored.getD Spd.memoryTypeByte.toNat 0xFF)

/-- The modules that are remembered are those of the segment `g₀`, which the present segment `g`
came from by operations on the bus. -/
structure Memory.Knows (g₀ : Segment) (m : Memory) (g : Segment) : Prop where
  lasting : ∀ address, g.lasting? address = g₀.lasting? address
  page : g.page ≤ 1
  modules : ∀ slot found, m.module? slot = some found →
    g₀.generation? (Spd.eepromAddress slot) = some found.generation
  codes : ∀ slot found, m.module? slot = some found → g₀.code? slot = some found.memoryType

/-- The page that is relied on is the one that is shown. -/
def Memory.Trusts (m : Memory) (g : Segment) : Prop :=
  ∀ latch page, m.latch = some latch → g.shown? latch.slave = some page → page = latch.page

namespace Memory

variable {g₀ g g' : Segment} {m : Memory}

theorem Knows.generation (hk : m.Knows g₀ g) (address : UInt8) :
    g.generation? address = g₀.generation? address := by
  rw [Segment.generation?, Segment.generation?, hk.lasting]

theorem Knows.code (hk : m.Knows g₀ g) (slot : UInt8) : g.code? slot = g₀.code? slot := by
  rw [Segment.code?, Segment.code?, hk.lasting]

theorem Knows.execute (hk : m.Knows g₀ g) (t : Transfer) : m.Knows g₀ (g.execute t).2 where
  lasting address := (Segment.lasting?_execute g t address).trans (hk.lasting address)
  page := Segment.page_execute hk.page
  modules := hk.modules
  codes := hk.codes

/-- Pages have no part in it. -/
theorem Knows.relatch (hk : m.Knows g₀ g) (latch : Option PageLatch) :
    ({ m with latch } : Memory).Knows g₀ g := ⟨hk.lasting, hk.page, hk.modules, hk.codes⟩

theorem Knows.setModule (hk : m.Knows g₀ g) {slot : UInt8} (found : Module)
    (hf : g₀.generation? (Spd.eepromAddress slot) = some found.generation)
    (hc : g₀.code? slot = some found.memoryType) : (m.setModule slot found).Knows g₀ g where
  lasting := hk.lasting
  page := hk.page
  modules slot' found' h := by
    rw [module?_setModule] at h
    split at h
    · rename_i hs
      rw [← hs.1, ← Option.some.inj h]
      exact hf
    · exact hk.modules slot' found' h
  codes slot' found' h := by
    rw [module?_setModule] at h
    split at h
    · rename_i hs
      rw [← hs.1, ← Option.some.inj h]
      exact hc
    · exact hk.codes slot' found' h

theorem Trusts.dropped (m : Memory) (g : Segment) : ({ m with latch := none } : Memory).Trusts g :=
  fun _ _ hl => by cases hl

theorem Trusts.still (ht : m.Trusts g) (hs : ∀ address, g'.shown? address = g.shown? address) :
    m.Trusts g' := fun latch page hl hp => ht latch page hl (by rw [← hs, hp])

end Memory

end DimmBus
