import DimmBus.Platform.Inspect
import DimmBus.Proofs.Transfers

/-!
# Machines as they are put together

Every machine that the builders make, and what configuration space and board hold in each of them.
-/

namespace DimmBus

namespace ConfigSpace

variable {space : RegisterFile 256 UInt8} {i j : Nat}

theorem read_setBytes {bs : List UInt8} (hi : i < 256) (hj : j + bs.length ≤ 256) :
    (setBytes space j bs).read i =
      if j ≤ i ∧ i < j + bs.length then bs.getD (i - j) 0 else space.read i := by
  induction bs generalizing space j with
  | nil =>
      rw [setBytes, if_neg]
      rw [List.length_nil]
      omega
  | cons b bs ih =>
      rw [List.length_cons] at hj ⊢
      rw [setBytes, if_pos (by omega), ih (by omega)]
      by_cases hij : j = i
      · subst hij
        rw [if_neg (by omega), if_pos (by omega), Nat.sub_self, RegisterFile.read_write, if_pos rfl]
        rfl
      · have hmod : j % 256 ≠ i % 256 := by omega
        rw [RegisterFile.read_write, if_neg hmod]
        by_cases hlt : j < i
        · have hsub : i - j = i - (j + 1) + 1 := by omega
          by_cases hend : i < j + 1 + bs.length
          · rw [if_pos (by omega), if_pos (by omega), hsub, List.getD_cons_succ]
          · rw [if_neg (by omega), if_neg (by omega)]
        · rw [if_neg (by omega), if_neg (by omega)]

theorem setBytes_byte (value : UInt8) (hj : j < 256) :
    setBytes space j (LittleEndian.toBytes 1 value.toNat) = space.write j value := by
  simp [LittleEndian.toBytes, setBytes, hj]

theorem lookup_insert (c : ConfigSpace) (location location' : Pci.Address) :
    (c.insert location space).lookup location' =
      if location' = location then some space else c.lookup location' := by
  unfold ConfigSpace.insert
  rw [List.lookup_cons]
  by_cases hl : location' = location
  · simp [hl]
  · have hne : (location' == location) = false := by simpa using hl
    rw [hne, if_neg hl]
    dsimp only
    induction c with
    | nil => rfl
    | cons entry c ih =>
        rcases entry with ⟨l, s⟩
        by_cases hs : l = location
        · subst hs
          rw [List.filter_cons_of_neg (by simp), List.lookup_cons, hne]
          exact ih
        · rw [List.filter_cons_of_pos (by simpa using hs), List.lookup_cons, List.lookup_cons, ih]

theorem lookup_write (c : ConfigSpace) (location location' : Pci.Address) (offset : UInt8)
    (count value : Nat) : (c.write location offset count value).lookup location' =
      if location' = location then (c.lookup location').map
        (setBytes · offset.toNat (LittleEndian.toBytes count value))
      else c.lookup location' := by
  unfold ConfigSpace.write
  induction c with
  | nil => simp
  | cons entry c ih =>
      rcases entry with ⟨l, s⟩
      rw [List.map_cons, List.lookup_cons, List.lookup_cons, ih]
      by_cases hl : l = location
      · subst hl
        by_cases hl' : location' = l
        · simp [hl']
        · have hne : (location' == l) = false := by simpa using hl'
          simp [hne, hl']
      · rw [if_neg hl]
        by_cases hl' : location' = l
        · subst hl'
          simp [hl]
        · have hne : (location' == l) = false := by simpa using hl'
          simp [hne]

/-- The header of a function that answers on its I/O addresses. -/
structure Headed (space : RegisterFile 256 UInt8) (vendor device : UInt16) (revision : UInt8) :
    Prop where
  ids : (List.range 4).map space.read =
    [LittleEndian.low vendor, LittleEndian.high vendor, LittleEndian.low device,
      LittleEndian.high device]
  command : (List.range' 4 2).map space.read = [1, 0]
  revision : space.read 8 = revision

theorem toBytes_word (w : UInt16) :
    LittleEndian.toBytes 2 w.toNat = [LittleEndian.low w, LittleEndian.high w] := rfl

theorem read_header (vendor device : UInt16) (revision : UInt8) (hi : i < 256) :
    (header vendor device revision).read i =
      [LittleEndian.low vendor, LittleEndian.high vendor, LittleEndian.low device,
        LittleEndian.high device, 1, 0, 0, 0, revision].getD i 0 := by
  have hids : Pci.Header.vendorId.toNat = 0 := rfl
  have hcommand : Pci.Header.command.toNat = 4 := rfl
  have hrevision : Pci.Header.revision.toNat = 8 := rfl
  have hio : LittleEndian.toBytes 2 Pci.Header.ioSpace.toNat = [1, 0] := rfl
  simp only [header, toBytes_word, hids, hcommand, hrevision, hio]
  rw [RegisterFile.read_write, read_setBytes hi (by simp), read_setBytes hi (by simp),
    RegisterFile.read_filled]
  rcases i with _ | _ | _ | _ | _ | _ | _ | _ | _ | i
  case succ.succ.succ.succ.succ.succ.succ.succ.succ =>
    have hne : 8 % 256 ≠ (i + 1 + 1 + 1 + 1 + 1 + 1 + 1 + 1 + 1) % 256 := by omega
    rw [if_neg hne, if_neg (by simp), if_neg (by simp)]
    rfl
  all_goals rfl

theorem header_headed (vendor device : UInt16) (revision : UInt8) :
    Headed (header vendor device revision) vendor device revision where
  ids := by
    simp [List.range_succ, read_header]
  command := by
    simp [List.range'_succ, read_header]
  revision := by
    simp [read_header]

variable {vendor device : UInt16} {revision : UInt8}

theorem Headed.congr {space' : RegisterFile 256 UInt8} (hs : Headed space vendor device revision)
    (h : ∀ i < 9, space'.read i = space.read i) : Headed space' vendor device revision where
  ids := by
    rw [← hs.ids]
    exact List.map_congr_left fun i hi => h i (by rw [List.mem_range] at hi; omega)
  command := by
    rw [← hs.command]
    exact List.map_congr_left fun i hi => h i (by rw [List.mem_range'_1] at hi; omega)
  revision := by
    rw [h 8 (by omega), hs.revision]

theorem Headed.setBytes {bs : List UInt8} (hs : Headed space vendor device revision) (hj : 9 ≤ j)
    (hlen : j + bs.length ≤ 256) : Headed (setBytes space j bs) vendor device revision :=
  hs.congr fun i hi => by rw [read_setBytes (by omega) hlen, if_neg (by omega)]

theorem Headed.write {value : UInt8} (hs : Headed space vendor device revision) (hj : 9 ≤ j)
    (hlt : j < 256) : Headed (space.write j value) vendor device revision :=
  hs.congr fun i hi => by rw [RegisterFile.read_write, if_neg (by omega)]

end ConfigSpace

namespace Platform

open ConfigSpace

/-! ## Functions -/

/-- Configuration space of an Intel host. -/
def ichSpace (device : UInt16) (hostConfig : UInt8) : RegisterFile 256 UInt8 :=
  (setBytes (header Pci.Vendor.intel device 0x10) Ich.ConfigSpace.baseRegister.toNat
    (LittleEndian.toBytes 4 (ichBase.toNat + 1))).write Ich.ConfigSpace.hostConfig.toNat hostConfig

/-- Configuration space of a PIIX4-compatible host that has its base address there. -/
def legacySpace (vendor device : UInt16) (revision : UInt8) : RegisterFile 256 UInt8 :=
  (setBytes (header vendor device revision) (Piix4.baseRegister vendor device).toNat
    (LittleEndian.toBytes 2 (piix4Base.toNat + 1))).write Piix4.ConfigSpace.hostConfig.toNat
    Piix4.ConfigSpace.hostEnable

/-- Configuration space of the bridge in front of the micro-controller. -/
def bridgeSpace : RegisterFile 256 UInt8 :=
  (header Pci.Vendor.amd bridgeDevice 0x51).write Piix4.Imc.bridgeConfig.toNat Piix4.Imc.active

/-- What the host of an Intel part can do; parts that are not known have the least. -/
def featuresOf (device : UInt16) : Ich.Features :=
  ((Ich.part? device).map (·.features)).getD .none

theorem baseRegister_cases (vendor device : UInt16) :
    Piix4.baseRegister vendor device = 0x90 ∨ Piix4.baseRegister vendor device = 0xD0 := by
  unfold Piix4.baseRegister
  split
  · exact .inr rfl
  · exact .inl rfl

theorem ichSpace_headed (device : UInt16) (hostConfig : UInt8) :
    Headed (ichSpace device hostConfig) Pci.Vendor.intel device 0x10 :=
  ((header_headed _ _ _).setBytes (by decide) (by decide)).write (by decide) (by decide)

theorem legacySpace_headed (vendor device : UInt16) (revision : UInt8) :
    Headed (legacySpace vendor device revision) vendor device revision := by
  refine ((header_headed _ _ _).setBytes ?_ ?_).write (by decide) (by decide)
  · obtain h | h := baseRegister_cases vendor device <;> rw [h] <;> decide
  · obtain h | h := baseRegister_cases vendor device <;> rw [h] <;> decide

theorem bridgeSpace_headed : Headed bridgeSpace Pci.Vendor.amd bridgeDevice 0x51 :=
  (header_headed _ _ _).write (by decide) (by decide)

/-! ## Machines -/

/-- The machines that the builders make. The pages are in any position, and hubs have any registers
but the two that tell what they are. -/
inductive Assembled : Platform → Prop
  | bare : Assembled {}
  | withIch {p : Platform} (hp : Assembled p) (device : UInt16) (hostConfig : UInt8) :
      Assembled (p.withIch device hostConfig)
  | withPiix4 {p : Platform} (hp : Assembled p) (vendor device : UInt16) (revision : UInt8) :
      Assembled (p.withPiix4 vendor device revision)
  | withImc {p : Platform} (hp : Assembled p) : Assembled p.withImc
  | withModule {p : Platform} (hp : Assembled p) (g : Generation) (slot : UInt8) (thermal : Bool) :
      Assembled (p.withModule g slot thermal)
  | delegated {p : Platform} (hp : Assembled p) : Assembled p.delegated
  | latched {p : Platform} (hp : Assembled p) (page : UInt8) (hpage : page ≤ 1) :
      Assembled { p with segment := { p.segment with page } }
  | withHubRegister {p : Platform} (hp : Assembled p) (slot register value : UInt8)
      (hr : register.toNat % 128 ≠ Spd.HubRegister.deviceType.toNat ∧
        register.toNat % 128 ≠ Spd.HubRegister.deviceRevision.toNat) :
      Assembled (p.setHubRegister slot register value)

/-- What a function of an assembled machine is, given its place and its configuration space. -/
inductive Placed (p : Platform) : Pci.Address → RegisterFile 256 UInt8 → Prop
  | ich (device : UInt16) (hostConfig : UInt8) (h : Host) (hh : p.ich = some h)
      (hm : h.model = .ich (featuresOf device)) :
      Placed p Ich.usualLocation (ichSpace device hostConfig)
  | legacy (location : Pci.Address) (vendor device : UInt16) (revision : UInt8)
      (hl : location = legacyLocation ∨ location = Piix4.amdLocation)
      (hs : Piix4.isSb800 vendor device revision = false) (hh : p.piix4.isSome = true) :
      Placed p location (legacySpace vendor device revision)
  | sb800 (vendor device : UInt16) (revision : UInt8)
      (hs : Piix4.isSb800 vendor device revision = true) (hh : p.piix4.isSome = true)
      (hpm : ∃ b, p.pm = some b ∧ b.rewound = pmBlock vendor device revision) :
      Placed p Piix4.amdLocation (header vendor device revision)
  | bridge (hm : p.mailbox.isSome = true) : Placed p Piix4.Imc.bridge bridgeSpace

/-- What holds of every machine before any transaction. -/
structure Laid (p : Platform) : Prop where
  placed : ∀ location space, p.config.lookup location = some space → p.Placed location space
  ich : ∀ h, p.ich = some h → h.base = ichBase ∧ h.location = Ich.usualLocation ∧ h.AtRest ∧
    ∃ f, h.model = .ich f
  piix4 : ∀ h, p.piix4 = some h → h.model = .piix4 ∧ h.base = piix4Base ∧ h.status = 0 ∧
    h.stalled = false ∧ h.slaveControl = 0 ∧
    (h.location = legacyLocation ∨ h.location = Piix4.amdLocation)
  pm : ∀ b, p.pm = some b → ∃ vendor device revision, b.rewound = pmBlock vendor device revision
  mailbox : ∀ m, p.mailbox = some m → m.asleep = false
  faults : p.faults = []
  lock : p.lockHeld = false

variable {p : Platform}

theorem rewound_pmBlock (vendor device : UInt16) (revision : UInt8) :
    (pmBlock vendor device revision).rewound = pmBlock vendor device revision := by
  simp only [PmBlock.rewound, pmBlock]

theorem pmBlock_windowOnly (vendor device : UInt16) (revision : UInt8) :
    (pmBlock vendor device revision).windowOnly = Piix4.usesPmWindow vendor device revision := by
  simp only [pmBlock]

/-- The registers that hold the base address and the enable bit; all others are clear. -/
theorem pmBlock_registers (vendor device : UInt16) (revision : UInt8) :
    (pmBlock vendor device revision).registers =
      if Piix4.usesFchEnable vendor device revision then
        setBytes (.filled 256 0) 0 [0x10, 0x0B]
      else setBytes (.filled 256 0) 0x2C [0x01, 0x0B] := by
  have hlo : LittleEndian.low piix4Base = 0x00 := by decide
  have hhi : LittleEndian.high piix4Base = 0x0B := by decide
  have hfch : Piix4.Pm.fchEnable.toNat = 0 := by decide
  have hsb800 : Piix4.Pm.sb800Enable.toNat = 0x2C := by decide
  have henable : ((0x00 : UInt8) &&& 0xE0) ||| Piix4.Pm.sb800EnableBit = 0x01 := by decide
  simp only [pmBlock, hlo, hhi, hfch, hsb800, henable, Piix4.Pm.fchEnableBit]

theorem read_setBytes_clear {bytes : List UInt8} {start i : Nat} (hi : i < 256)
    (hlen : start + bytes.length ≤ 256) :
    (setBytes (.filled 256 0) start bytes).read i =
      if start ≤ i then bytes.getD (i - start) 0 else 0 := by
  rw [read_setBytes hi hlen, RegisterFile.read_filled]
  split
  · rename_i h
    rw [if_pos h.1]
  · rename_i h
    by_cases hle : start ≤ i
    · have hout : bytes.length ≤ i - start := by omega
      rw [if_pos hle, List.getD_eq_getElem?_getD, List.getElem?_eq_none hout]
      rfl
    · rw [if_neg hle]

/-- On parts that have the enable bit in front. -/
theorem pmBlock_read_fch {vendor device : UInt16} {revision : UInt8} {i : Nat}
    (hf : Piix4.usesFchEnable vendor device revision = true) (hi : i < 256) :
    (pmBlock vendor device revision).registers.read i = [0x10, 0x0B].getD i 0 := by
  rw [pmBlock_registers, hf, if_pos rfl, read_setBytes_clear hi (by decide), if_pos (Nat.zero_le i),
    Nat.sub_zero]

/-- On the other parts. -/
theorem pmBlock_read_sb800 {vendor device : UInt16} {revision : UInt8} {i : Nat}
    (hf : Piix4.usesFchEnable vendor device revision = false) (hi : i < 256) :
    (pmBlock vendor device revision).registers.read i =
      if 0x2C ≤ i then [0x01, 0x0B].getD (i - 0x2C) 0 else 0 := by
  rw [pmBlock_registers, hf, if_neg Bool.false_ne_true, read_setBytes_clear hi (by decide)]

theorem pmBlock_read_choice (vendor device : UInt16) (revision : UInt8) :
    (pmBlock vendor device revision).registers.read Piix4.Selector.choice.toNat = 0 := by
  have hc : Piix4.Selector.choice.toNat = 0x2F := by decide
  rw [hc]
  cases hf : Piix4.usesFchEnable vendor device revision with
  | true => exact pmBlock_read_fch hf (by decide)
  | false => exact pmBlock_read_sb800 hf (by decide)

theorem pmBlock_selector (vendor device : UInt16) (revision : UInt8) :
    (pmBlock vendor device revision).selector =
      if vendor = Pci.Vendor.ati then .primary
      else if Piix4.usesKernczSelector vendor device revision then .kerncz
      else .alternate := by
  have hc := pmBlock_read_choice vendor device revision
  rw [pmBlock_registers] at hc
  have hlo : LittleEndian.low piix4Base = 0x00 := by decide
  have hhi : LittleEndian.high piix4Base = 0x0B := by decide
  have hfch : Piix4.Pm.fchEnable.toNat = 0 := by decide
  have hsb800 : Piix4.Pm.sb800Enable.toNat = 0x2C := by decide
  have henable : ((0x00 : UInt8) &&& 0xE0) ||| Piix4.Pm.sb800EnableBit = 0x01 := by decide
  have hzero : (0 : UInt8) &&& 1 = 0 := by decide
  simp only [pmBlock, hlo, hhi, hfch, hsb800, henable, Piix4.Pm.fchEnableBit, hc, hzero, if_true]

theorem pmBlock_known (vendor device : UInt16) (revision : UInt8) :
    (pmBlock vendor device revision).selector.Known := by
  rw [pmBlock_selector]
  split
  · exact .inr (.inl rfl)
  · split
    · exact .inl rfl
    · exact .inr (.inr rfl)

theorem pmBlock_selected (vendor device : UInt16) (revision : UInt8) :
    (pmBlock vendor device revision).selected = 0 := by
  have hreg : ∀ s : Piix4.Selector, s.Known → 2 ≤ s.register.toNat ∧ s.register.toNat < 256 ∧
      ∀ i, i = s.register.toNat → s.get ([0x10, 0x0B].getD i 0) = 0 ∧
        s.get (if 0x2C ≤ i then [0x01, 0x0B].getD (i - 0x2C) 0 else 0) = 0 := by
    rintro s (rfl | rfl | rfl) <;> refine ⟨by decide, by decide, ?_⟩ <;> rintro _ rfl <;> decide
  obtain ⟨-, hlt, hget⟩ := hreg _ (pmBlock_known vendor device revision)
  obtain ⟨hget, hget'⟩ := hget _ rfl
  unfold PmBlock.selected
  cases hf : Piix4.usesFchEnable vendor device revision with
  | true => rw [pmBlock_read_fch hf hlt, hget]
  | false => rw [pmBlock_read_sb800 hf hlt, hget']

theorem Laid.connected (hl : p.Laid) : p.connected true = true := by
  unfold Platform.connected
  cases hb : p.pm with
  | none => rfl
  | some b =>
      obtain ⟨vendor, device, revision, hpm⟩ := hl.pm b hb
      have hselected : b.rewound.selected = 0 := by rw [hpm, pmBlock_selected]
      have hsame : b.selected = 0 := hselected
      simp [hsame]

theorem Laid.wired (hl : p.Laid) : p.Wired where
  ich h hh := by
    obtain ⟨hb, -, -, f, hm⟩ := hl.ich h hh
    exact ⟨f, hm, hb⟩
  piix4 h hh := by
    obtain ⟨hm, hb, -⟩ := hl.piix4 h hh
    exact ⟨hm, hb⟩
  connected := hl.connected

theorem Laid.tidy (hl : p.Laid) (held : Bool) : p.Tidy held where
  ich h hh := (hl.ich h hh).2.2.1
  piix4 h hh := by
    obtain ⟨-, -, hs, hstalled, hc, -⟩ := hl.piix4 h hh
    refine ⟨⟨?_, ?_⟩, ?_⟩
    · rw [hs]
      decide
    · rw [hstalled]
      exact fun hf => by cases hf
    · rw [hc]
      decide
  free _ := by
    refine ⟨by simp [has, hl.faults], fun h hh => ?_⟩
    obtain ⟨-, -, -, -, hc, -⟩ := hl.piix4 h hh
    rw [hc]
    decide
  awake m hm := hl.mailbox m hm

/-! ## What the builders make -/

theorem withIch_eq (p : Platform) (device : UInt16) (hostConfig : UInt8) :
    p.withIch device hostConfig =
      { p with
        config := p.config.insert Ich.usualLocation (ichSpace device hostConfig)
        ich := some ⟨.ich (featuresOf device), ichBase, Ich.usualLocation, 0, 0, 0, 0, 0, 0,
          Vector.replicate 32 0, 0, 0, 0, 0, false, false⟩ } := by
  simp only [withIch, ichSpace, featuresOf]

/-- Where a PIIX4-compatible host is put. -/
def piix4Location (vendor device : UInt16) (revision : UInt8) : Pci.Address :=
  if Piix4.isSb800 vendor device revision || vendor == Pci.Vendor.ati then Piix4.amdLocation
  else legacyLocation

theorem withPiix4_eq (p : Platform) (vendor device : UInt16) (revision : UInt8) :
    p.withPiix4 vendor device revision =
      { p with
        pm := if Piix4.isSb800 vendor device revision then some (pmBlock vendor device revision)
          else p.pm
        config := p.config.insert (piix4Location vendor device revision)
          (if Piix4.isSb800 vendor device revision then header vendor device revision
          else legacySpace vendor device revision)
        piix4 := some ⟨.piix4, piix4Base, piix4Location vendor device revision, 0, 0, 0, 0, 0, 0,
          Vector.replicate 32 0, 0, 0, 0, 0, false, false⟩ } := by
  simp only [withPiix4, legacySpace, piix4Location]

theorem withImc_eq (p : Platform) :
    p.withImc =
      { p with
        config := p.config.insert Piix4.Imc.bridge bridgeSpace
        mailbox := some .awake } := by
  simp only [withImc, bridgeSpace]

theorem change_eq (p : Platform) (address : UInt8) (f : Slave → Option Slave) :
    p.change address f = { p with segment := (p.change address f).segment } := by
  unfold change
  split <;> rfl

theorem piix4Location_cases (vendor device : UInt16) (revision : UInt8) :
    piix4Location vendor device revision = legacyLocation ∨
      piix4Location vendor device revision = Piix4.amdLocation := by
  unfold piix4Location
  split
  · exact .inr rfl
  · exact .inl rfl

theorem Laid.withIch (hl : p.Laid) (device : UInt16) (hostConfig : UInt8) :
    (p.withIch device hostConfig).Laid := by
  rw [withIch_eq]
  refine ⟨fun location space hs => ?_, ?_, hl.piix4, hl.pm, hl.mailbox, hl.faults, hl.lock⟩
  · rw [lookup_insert] at hs
    split at hs
    · rename_i hloc
      rw [hloc, ← Option.some.inj hs]
      exact .ich device hostConfig _ rfl rfl
    · rename_i hloc
      cases hl.placed location space hs with
      | ich => exact absurd rfl hloc
      | legacy _ _ _ _ hl' hs' hh => exact .legacy _ _ _ _ hl' hs' hh
      | sb800 _ _ _ hs' hh hpm => exact .sb800 _ _ _ hs' hh hpm
      | bridge hm => exact .bridge hm
  · rintro h hh
    rw [← Option.some.inj hh]
    exact ⟨rfl, rfl, ⟨rfl, rfl, rfl, rfl⟩, _, rfl⟩

theorem Laid.withPiix4 (hl : p.Laid) (vendor device : UInt16) (revision : UInt8) :
    (p.withPiix4 vendor device revision).Laid := by
  rw [withPiix4_eq]
  refine ⟨fun location space hs => ?_, hl.ich, ?_, ?_, hl.mailbox, hl.faults, hl.lock⟩
  · rw [lookup_insert] at hs
    split at hs
    · rename_i hloc
      rw [hloc, ← Option.some.inj hs]
      cases hsb : Piix4.isSb800 vendor device revision with
      | true =>
          rw [if_pos rfl, piix4Location, hsb, Bool.true_or, if_pos rfl]
          exact .sb800 vendor device revision hsb rfl ⟨_, rfl, rewound_pmBlock _ _ _⟩
      | false =>
          rw [if_neg Bool.false_ne_true]
          exact .legacy _ vendor device revision (piix4Location_cases _ _ _) hsb rfl
    · rename_i hloc
      cases hl.placed location space hs with
      | ich _ _ h hh hm => exact .ich _ _ h hh hm
      | legacy _ _ _ _ hl' hs' hh => exact .legacy _ _ _ _ hl' hs' rfl
      | sb800 _ _ _ hs' hh hpm =>
          -- The block is that of the part at this place, or of none after it.
          refine .sb800 _ _ _ hs' rfl ?_
          cases hsb : Piix4.isSb800 vendor device revision with
          | true =>
              rw [piix4Location, hsb, Bool.true_or, if_pos rfl] at hloc
              exact absurd rfl hloc
          | false => exact hpm
      | bridge hm => exact .bridge hm
  · rintro h hh
    rw [← Option.some.inj hh]
    exact ⟨rfl, rfl, rfl, rfl, rfl, piix4Location_cases _ _ _⟩
  · rintro b hb
    dsimp only at hb
    split at hb
    · cases hb
      exact ⟨_, _, _, rewound_pmBlock _ _ _⟩
    · exact hl.pm b hb

theorem Laid.withImc (hl : p.Laid) : p.withImc.Laid := by
  rw [withImc_eq]
  refine ⟨fun location space hs => ?_, hl.ich, hl.piix4, hl.pm, ?_, hl.faults, hl.lock⟩
  · rw [lookup_insert] at hs
    split at hs
    · rename_i hloc
      rw [hloc, ← Option.some.inj hs]
      exact .bridge rfl
    · rename_i hloc
      cases hl.placed location space hs with
      | ich _ _ h hh hm => exact .ich _ _ h hh hm
      | legacy _ _ _ _ hl' hs' hh => exact .legacy _ _ _ _ hl' hs' hh
      | sb800 _ _ _ hs' hh hpm => exact .sb800 _ _ _ hs' hh hpm
      | bridge hm => exact absurd rfl hloc
  · rintro m hm
    rw [← Option.some.inj hm]
    rfl

/-- The modules, the transport, the counters and the index of the block have no part in it. -/
theorem Laid.alter (hl : p.Laid) {config : ConfigSpace} {pm : Option PmBlock}
    (hconfig : ∀ location space, config.lookup location = some space → p.Placed location space)
    (hpm : pm.map PmBlock.rewound = p.pm.map PmBlock.rewound) (transport : Transport)
    (segment : Segment) (counters : Counters) :
    ({ p with config, pm, transport, segment, counters } : Platform).Laid := by
  refine ⟨fun location space hs => ?_, hl.ich, hl.piix4, fun b hb => ?_, hl.mailbox, hl.faults,
    hl.lock⟩
  · cases hconfig location space hs with
    | ich _ _ h hh hm => exact .ich _ _ h hh hm
    | legacy _ _ _ _ hl' hs' hh => exact .legacy _ _ _ _ hl' hs' hh
    | sb800 _ _ _ hs' hh hb =>
        obtain ⟨b, hb, hr⟩ := hb
        rw [hb, Option.map_some, hr] at hpm
        obtain ⟨b', hb', hr'⟩ := Option.map_eq_some_iff.mp hpm
        exact .sb800 _ _ _ hs' hh ⟨b', hb', hr'⟩
    | bridge hm => exact .bridge hm
  · have hb : pm = some b := hb
    rw [hb, Option.map_some] at hpm
    obtain ⟨b', hb', hr⟩ := Option.map_eq_some_iff.mp hpm.symm
    exact hr ▸ hl.pm b' hb'

theorem Laid.fill (hl : p.Laid) (transport : Transport) (segment : Segment) :
    ({ p with transport, segment } : Platform).Laid :=
  hl.alter hl.placed rfl transport segment p.counters

theorem Assembled.laid (ha : p.Assembled) : p.Laid := by
  induction ha with
  | bare =>
      refine ⟨?_, ?_, ?_, ?_, ?_, rfl, rfl⟩ <;> (intros; rename_i h; cases h)
  | withIch _ device hostConfig ih => exact ih.withIch device hostConfig
  | withPiix4 _ vendor device revision ih => exact ih.withPiix4 vendor device revision
  | withImc _ ih => exact ih.withImc
  | withModule _ g slot thermal ih => exact ih.fill _ _
  | delegated _ ih => exact ih.fill _ _
  | latched _ page _ ih => exact ih.fill _ _
  | withHubRegister _ slot register value _ ih =>
      rw [setHubRegister, change_eq]
      exact ih.fill _ _

end Platform

end DimmBus
