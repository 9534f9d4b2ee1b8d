import DimmBus.Platform.Inspect
import DimmBus.Proofs.Requests

/-!
# What the modules hold

Operations on the bus change neither what a slave is nor what it stores; the pages that modules show
change only by writes to the page latch and to the page register of a hub.
-/

namespace DimmBus

/-- What no operation changes of a slave: the kind of module, its bytes, and two registers of a hub
that lie where EEPROMs have their first byte and their memory type. -/
structure Lasting where
  generation : Option Generation
  stored : Array UInt8
  deviceType : UInt8
  revision : UInt8

namespace Slave

/-! ## Slaves -/

/-- A view of slaves that no operation changes. -/
structure Constant {β : Type} (view : Slave → β) : Prop where
  read : ∀ s page command, view (read s page command).2 = view s
  send : ∀ s value, view (send s value) = view s
  write : ∀ s command value, view (write s command value) = view s
  store : ∀ chip command value, view (.sensor (chip.writeWord command value)) = view (.sensor chip)

namespace Constant

variable {β : Type} {view : Slave → β} (h : Constant view) (s : Slave) (page command : UInt8)

include h

theorem receive : view (s.receive page).2 = view s := by
  cases s <;> exact h.read _ _ _

theorem readWord : view (s.readWord page command).2 = view s := by
  cases s with
  | sensor chip => exact h.write (.sensor chip) command 0
  | _ => simp only [Slave.readWord, h.read]

theorem writeWord (value : UInt16) : view (s.writeWord command value) = view s := by
  cases s with
  | sensor chip => exact h.store _ _ _
  | _ => simp only [Slave.writeWord, h.write]

theorem readBytes (n : Nat) : view (s.readBytes page command n).2 = view s := by
  induction n generalizing s command with
  | zero => rfl
  | succ n ih => exact (ih _ _).trans (h.read _ _ _)

theorem writeBytes (bs : List UInt8) : view (s.writeBytes command bs) = view s := by
  induction bs generalizing s command with
  | nil => rfl
  | cons b bs ih => exact (ih _ _).trans (h.write _ _ _)

theorem serve (t : Transfer) : view (Segment.serve s page t).2 = view s := by
  unfold Segment.serve
  split <;> simp only [h.receive, h.read, h.readWord, h.readBytes, h.send, h.write, h.writeWord,
    h.writeBytes]

end Constant

def lasting : Slave → Lasting
  | .flat stored _ => ⟨some .ddr3, stored, 0, 0⟩
  | .paged stored _ => ⟨some .ddr4, stored, 0, 0⟩
  | .hub h => ⟨some .ddr5, h.stored, h.registers.read Spd.HubRegister.deviceType.toNat,
      h.registers.read Spd.memoryTypeByte.toNat⟩
  | .sensor _ => ⟨none, #[], 0, 0⟩

/-- The page that a slave shows, given that of the page latch. -/
def shown? (latch : UInt8) : Slave → Option UInt8
  | .paged .. => some latch
  | .hub h => some (h.registers.read Spd.HubRegister.page.toNat &&& Spd.HubRegister.pageMask)
  | _ => none

variable (s : Slave) (page command : UInt8)

theorem shown_read (latch : UInt8) : (s.read page command).2.shown? latch = s.shown? latch := by
  cases s <;> rfl

/-- A two-page EEPROM shows the page of the latch. -/
theorem shown_of_paged {s : Slave} {latch : UInt8} (hg : s.lasting.generation = some .ddr4) :
    s.shown? latch = some latch := by
  cases s with
  | paged => rfl
  | flat => cases hg
  | hub => cases hg
  | sensor => cases hg

/-- Only EEPROMs with pages and hubs show one. -/
theorem generation_of_shown {s : Slave} {latch page : UInt8} (hs : s.shown? latch = some page) :
    s.lasting.generation = some .ddr4 ∨ s.lasting.generation = some .ddr5 := by
  cases s with
  | paged => exact .inl rfl
  | hub => exact .inr rfl
  | flat => cases hs
  | sensor => cases hs

/-- Of the registers of a hub only two can be written. -/
theorem read_hub_write (h : Hub) (value : UInt8) {i : Nat} (hi : i < 128)
    (hp : i ≠ Spd.HubRegister.page.toNat ∨ command ≠ Spd.HubRegister.page)
    (hs : i ≠ Spd.HubRegister.sensorConfig.toNat) :
    (h.write command value).registers.read i = h.registers.read i := by
  have hpage : Spd.HubRegister.page.toNat < 128 := by decide
  have hsensor : Spd.HubRegister.sensorConfig.toNat < 128 := by decide
  unfold Hub.write
  split
  · rename_i hc
    obtain hp | hp := hp
    · rw [hc, RegisterFile.read_write, if_neg (by omega)]
    · exact absurd hc hp
  · split
    · rename_i hc
      rw [hc, RegisterFile.read_write, if_neg (by omega)]
    · rfl

theorem stored_hub_write (h : Hub) (command value : UInt8) :
    (h.write command value).stored = h.stored := by
  unfold Hub.write
  split
  · rfl
  · split <;> rfl

theorem constant_lasting : Constant lasting where
  read s _ _ := by cases s <;> rfl
  send s _ := by cases s <;> rfl
  write s command value := by
    cases s with
    | flat => rfl
    | paged => rfl
    | sensor => rfl
    | hub h =>
        simp only [write, lasting, stored_hub_write]
        rw [read_hub_write command h value (by decide) (.inl (by decide)) (by decide),
          read_hub_write command h value (by decide) (.inl (by decide)) (by decide)]
  store _ _ _ := rfl

theorem shown_write (value latch : UInt8) (hc : command ≠ Spd.HubRegister.page) :
    (s.write command value).shown? latch = s.shown? latch := by
  cases s with
  | flat => rfl
  | paged => rfl
  | sensor => rfl
  | hub h =>
      simp only [write, shown?]
      rw [read_hub_write command h value (by decide) (.inr hc) (by decide)]

theorem shown_readWord (latch : UInt8) :
    (s.readWord page command).2.shown? latch = s.shown? latch := by
  cases s <;> rfl

end Slave

/-- An operation that moves no page. -/
def Transfer.Still (t : Transfer) : Prop :=
  Segment.isLatch t.slave = false ∧
    (t.protocol = .quick ∨
      t.direction = .read ∧ (t.protocol = .byteData ∨ t.protocol = .wordData) ∨
      t.protocol = .byteData ∧ t.command ≠ Spd.HubRegister.page)

namespace Segment

variable {g g' : Segment} {t : Transfer} {address slave page : UInt8}

/-! ## Segments -/

theorem slave?_attach (s : Slave) : (g.attach slave s).slave? address =
    if slave = address then some s else g.slave? address := by
  have hs := slave.toNat_lt
  have ha := address.toNat_lt
  have hiff : (slave.toNat % 256 = address.toNat % 256) = (slave = address) := by
    rw [Nat.mod_eq_of_lt hs, Nat.mod_eq_of_lt ha, UInt8.toNat_inj]
  unfold slave? attach
  rw [RegisterFile.read_write]
  simp only [hiff]

/-- What lasts of the slave at an address. -/
def lasting? (g : Segment) (address : UInt8) : Option Lasting :=
  (g.slave? address).map Slave.lasting

/-- The page that the module at an address shows. -/
def shown? (g : Segment) (address : UInt8) : Option UInt8 :=
  (g.slave? address).bind (Slave.shown? g.page)

/-- The kind of module at an address. -/
def generation? (g : Segment) (address : UInt8) : Option Generation :=
  (g.lasting? address).bind (·.generation)

/-- A slave that looks the same in the place of another. -/
theorem map_slave?_attach {β : Type} {view : Slave → β} {s s' : Slave}
    (hs : g.slave? slave = some s) (hv : view s' = view s) :
    ((g.attach slave s').slave? address).map view = (g.slave? address).map view := by
  rw [slave?_attach]
  split
  · rename_i ha
    rw [← ha, hs, Option.map_some, Option.map_some, hv]
  · rfl

theorem map_slave?_execute {β : Type} {view : Slave → β} (h : Slave.Constant view) (g : Segment)
    (t : Transfer) (address : UInt8) :
    ((g.execute t).2.slave? address).map view = (g.slave? address).map view := by
  unfold execute
  split
  · split
    · rfl
    · rfl
  · split
    · rfl
    · rename_i s hs
      exact map_slave?_attach hs (h.serve s g.page t)

theorem lasting?_execute (g : Segment) (t : Transfer) (address : UInt8) :
    (g.execute t).2.lasting? address = g.lasting? address :=
  map_slave?_execute Slave.constant_lasting g t address

theorem page_execute_or (g : Segment) (t : Transfer) :
    (g.execute t).2.page = g.page ∨ (g.execute t).2.page ≤ 1 := by
  unfold execute
  split
  · rename_i hl
    split
    · exact .inl rfl
    · simp only [isLatch, decide_eq_true_eq] at hl
      refine .inr ?_
      obtain hl | hl := hl
      · rw [hl]
        exact (by decide : Spd.pageLatch 0 - Spd.pageLatch 0 ≤ 1)
      · rw [hl]
        exact (by decide : Spd.pageLatch 1 - Spd.pageLatch 0 ≤ 1)
  · split
    · exact .inl rfl
    · exact .inl rfl

theorem page_execute (hp : g.page ≤ 1) : (g.execute t).2.page ≤ 1 := by
  obtain heq | hle := page_execute_or g t
  · rw [heq]
    exact hp
  · exact hle

theorem shown_serve {s : Slave} {latch : UInt8} (ht : t.Still) :
    (serve s page t).2.shown? latch = s.shown? latch := by
  obtain ⟨-, hq | ⟨hd, hb | hw⟩ | ⟨hb, hc⟩⟩ := ht
  · simp only [serve, hq]
  · simp only [serve, hd, hb, Slave.shown_read]
  · simp only [serve, hd, hw, Slave.shown_readWord]
  · cases hd : t.direction with
    | read => simp only [serve, hd, hb, Slave.shown_read]
    | write => simp only [serve, hd, hb, Slave.shown_write _ _ _ _ hc]

theorem shown?_execute_still (ht : t.Still) (address : UInt8) :
    (g.execute t).2.shown? address = g.shown? address := by
  unfold execute
  rw [ht.1, if_neg Bool.false_ne_true]
  split
  · rfl
  · rename_i s hs
    unfold shown?
    rw [slave?_attach]
    split
    · rename_i ha
      rw [← ha, hs]
      exact shown_serve ht
    · rfl

end Segment

/-! ## Addresses of a module -/

/-- A command that reaches the stored bytes of a hub. -/
theorem hubMemory_offset : ∀ offset : UInt8, offset.toNat < 128 →
    hasAny (Spd.hubMemory ||| offset) Spd.hubMemory = true ∧
      (Spd.hubMemory ||| offset).toNat % 128 = offset.toNat :=
  forall_byte (by decide +kernel)

namespace Generation

variable {address : UInt16}

/-- Page and offset make up the address again: for a module that shows everything at once, -/
theorem offset_ddr3 (ha : address.toNat < 256) :
    (offsetOf .ddr3 address).toNat = address.toNat := by
  simp only [offsetOf, UInt8.toNat_ofNat']
  omega

/-- for one of two pages, -/
theorem page_offset_ddr4 (ha : address.toNat < 512) :
    (pageOf .ddr4 address).toNat * 256 + (offsetOf .ddr4 address).toNat = address.toNat := by
  simp only [pageOf, offsetOf, UInt8.toNat_ofNat']
  omega

/-- and for one with a hub, where the command also says that a stored byte is meant. -/
theorem page_offset_ddr5 (ha : address.toNat < 1024) :
    hasAny (offsetOf .ddr5 address) Spd.hubMemory = true ∧
      (pageOf .ddr5 address).toNat * 128 + (offsetOf .ddr5 address).toNat % 128 =
        address.toNat := by
  have hoffset : (UInt8.ofNat (address.toNat % 128)).toNat = address.toNat % 128 := by
    rw [UInt8.toNat_ofNat']
    omega
  obtain ⟨hbit, hmod⟩ := hubMemory_offset (UInt8.ofNat (address.toNat % 128)) (by omega)
  refine ⟨hbit, ?_⟩
  rw [offsetOf, hmod, hoffset, pageOf, UInt8.toNat_ofNat']
  omega

end Generation

/-- Once its page is shown, the byte at an address is behind the address's command. -/
theorem Slave.read_location {s : Slave} {g : Generation} {address : UInt16}
    {location : SpdLocation} {latch : UInt8} (hg : s.lasting.generation = some g)
    (hl : g.locate? address = some location)
    (hs : g = .ddr3 ∨ s.shown? latch = some location.page) :
    (s.read latch location.offset).1 = s.lasting.stored.getD address.toNat 0xFF := by
  unfold Generation.locate? at hl
  split at hl
  · rename_i hlt
    rw [UInt16.lt_iff_toNat_lt] at hlt
    obtain rfl := Option.some.inj hl
    cases s with
    | sensor => cases hg
    | flat stored pointer =>
        obtain rfl : Generation.ddr3 = g := Option.some.inj hg
        simp only [read, lasting, Generation.offset_ddr3 hlt]
    | paged stored pointer =>
        obtain rfl : Generation.ddr4 = g := Option.some.inj hg
        obtain ⟨⟨⟩⟩ | hs := hs
        obtain rfl : latch = Generation.ddr4.pageOf address := Option.some.inj hs
        simp only [read, lasting, Generation.page_offset_ddr4 hlt]
    | hub h =>
        obtain rfl : Generation.ddr5 = g := Option.some.inj hg
        obtain ⟨⟨⟩⟩ | hs := hs
        have hpage : h.page = (Generation.ddr5.pageOf address).toNat :=
          congrArg UInt8.toNat (Option.some.inj hs)
        obtain ⟨hbit, haddress⟩ := Generation.page_offset_ddr5 hlt
        simp only [read, lasting, Hub.read, hbit, if_true, hpage, haddress]
  · cases hl

theorem Generation.locate?_isSome {g : Generation} {address : UInt16} :
    (g.locate? address).isSome = true ↔ address.toNat < g.size.toNat := by
  unfold locate?
  split
  · rename_i hlt
    simpa using UInt16.lt_iff_toNat_lt.mp hlt
  · rename_i hlt
    simpa using fun h => hlt (UInt16.lt_iff_toNat_lt.mpr h)

/-! ## Modules that can be told apart -/

/-- The bytes of a module tell its generation, even where a page is shown that should not be. -/
def Lasting.Telling (l : Lasting) : Prop :=
  match l.generation with
  | some .ddr3 => l.stored.size = 256 ∧ l.stored.getD 0 0xFF ≠ Spd.HubRegister.hubType ∧
      Spd.MemoryType.isLegacy (l.stored.getD 2 0xFF) = true
  | some .ddr4 => l.stored.size = 512 ∧ l.stored.getD 0 0xFF ≠ Spd.HubRegister.hubType ∧
      l.stored.getD 256 0xFF ≠ Spd.HubRegister.hubType ∧
      Spd.MemoryType.isDdr4 (l.stored.getD 2 0xFF) = true ∧
      Spd.MemoryType.isLegacy (l.stored.getD 258 0xFF) = false
  | some .ddr5 => l.stored.size = 1024 ∧ l.deviceType = Spd.HubRegister.hubType ∧
      Spd.MemoryType.isDdr5 (l.stored.getD 2 0xFF) = true ∧
      Spd.MemoryType.isDdr4 l.revision = false ∧ Spd.MemoryType.isLegacy l.revision = false
  | none => False

theorem Lasting.Telling.size {l : Lasting} {g : Generation} (ht : l.Telling)
    (hg : l.generation = some g) : l.stored.size = g.size.toNat := by
  unfold Telling at ht
  rw [hg] at ht
  cases g <;> exact ht.1

/-- Every slot is empty or holds a module that can be told apart. -/
def Segment.Telling (g : Segment) : Prop :=
  ∀ slot l, g.lasting? (Spd.eepromAddress slot) = some l → l.Telling

/-- The first page of a module tells its generation to one who looks for two-page EEPROMs first, for
hubs next and for flat EEPROMs last. -/
def Lasting.Recognisable (l : Lasting) : Prop :=
  match l.generation with
  | some .ddr3 => l.stored.getD 0 0xFF ≠ Spd.HubRegister.hubType ∧
      Spd.MemoryType.isLegacy (l.stored.getD 2 0xFF) = true
  | some .ddr4 => Spd.MemoryType.isDdr4 (l.stored.getD 2 0xFF) = true
  | some .ddr5 => l.deviceType = Spd.HubRegister.hubType ∧
      Spd.MemoryType.isDdr4 l.revision = false ∧
      Spd.MemoryType.isDdr5 (l.stored.getD 2 0xFF) = true
  | none => False

instance : DecidablePred Lasting.Recognisable := fun l => by
  unfold Lasting.Recognisable
  split <;> infer_instance

theorem Lasting.Telling.recognisable {l : Lasting} (ht : l.Telling) : l.Recognisable := by
  unfold Telling at ht
  unfold Recognisable
  split at ht
  · exact ht.2
  · exact ht.2.2.2.1
  · obtain ⟨-, htype, hcode, hrevision, -⟩ := ht
    exact ⟨htype, hrevision, hcode⟩
  · exact ht

/-- Every slot is empty or holds a module that a probe recognises. -/
def Segment.Recognisable (g : Segment) : Prop :=
  ∀ slot l, g.lasting? (Spd.eepromAddress slot) = some l → l.Recognisable

theorem Segment.Telling.recognisable {g : Segment} (hg : g.Telling) : g.Recognisable :=
  fun slot l hl => (hg slot l hl).recognisable

end DimmBus
