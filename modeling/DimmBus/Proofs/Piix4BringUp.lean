import DimmBus.Proofs.IchBringUp

/-!
# Taking a PIIX4-compatible host into use

Its base address is in configuration space or in the power-management block, which also tells where
the multiplexer is set.
-/

namespace DimmBus

open Access Attempt Platform

namespace Piix4

variable {vendor device : UInt16} {revision : UInt8}

theorem portCount_cases (vendor device : UInt16) (revision : UInt8) :
    portCount vendor device revision = 1 ∨ portCount vendor device revision = 4 := by
  unfold portCount
  split
  · exact .inl rfl
  · split
    · exact .inr (by decide)
    · exact .inr (by decide)

theorem portCount_legacy (hs : isSb800 vendor device revision = false) :
    portCount vendor device revision = 1 := by
  simp [portCount, hs]

/-- Every part has a first output. -/
theorem portCount_pos (vendor device : UInt16) (revision : UInt8) :
    0 < portCount vendor device revision := by
  obtain h | h := portCount_cases vendor device revision <;> rw [h] <;> decide

section

variable {port : UInt8} (hp : port < portCount vendor device revision)

include hp

theorem port_le_three : port ≤ 3 := by
  rw [UInt8.lt_iff_toNat_lt] at hp
  rw [UInt8.le_iff_toNat_le]
  obtain h | h := portCount_cases vendor device revision
  · rw [h] at hp
    exact Nat.le_trans (Nat.le_of_lt hp) (by decide)
  · rw [h] at hp
    exact Nat.le_of_lt_succ hp

theorem port_eq_zero (hs : isSb800 vendor device revision = false) : port = 0 := by
  rw [portCount_legacy hs, UInt8.lt_iff_toNat_lt] at hp
  exact UInt8.toNat_inj.mp (Nat.lt_one_iff.mp hp)

end

theorem window_features (hw : usesPmWindow vendor device revision = true) :
    usesFchEnable vendor device revision = true ∧ vendor ≠ Pci.Vendor.ati ∧
      usesKernczSelector vendor device revision = true := by
  simp only [usesPmWindow, decide_eq_true_eq] at hw
  obtain ⟨hv, hd, hr⟩ := hw
  have hr' : 0x49 ≤ revision := by
    rw [UInt8.le_iff_toNat_le] at hr ⊢
    exact Nat.le_trans (by decide) hr
  have hne : Pci.Vendor.amd ≠ Pci.Vendor.ati := by decide
  have hne' : Pci.Vendor.hygon ≠ Pci.Vendor.ati := by decide
  obtain rfl | rfl := hv
  · simp [usesFchEnable, usesKernczSelector, hd, hr', hne]
  · simp [usesFchEnable, usesKernczSelector, hd, hne']

/-! ## Reading the base address -/

/-- How the block of a part is reached. -/
def accessOf (vendor device : UInt16) (revision : UInt8) : PmAccess :=
  if usesPmWindow vendor device revision then .window else .indexData

variable {p : Platform} {h : Host} {g : Segment} {k : Counters} {model : HostModel} {base : UInt16}
  {b : PmBlock} {m? : Option Mailbox} {bad : Error → Platform → Prop}

theorem reaches_low (hb : b.rewound = pmBlock vendor device revision) {index : UInt8}
    (hi : usesPmWindow vendor device revision = true → index.toNat < Pm.windowSize) :
    (accessOf vendor device revision).Reaches b index := by
  have hwin : b.rewound.windowOnly = usesPmWindow vendor device revision := by
    rw [hb, pmBlock_windowOnly]
  unfold accessOf
  cases hw : usesPmWindow vendor device revision with
  | true => exact hi hw
  | false => exact hwin.trans hw

theorem registers_of_rewound (hb : b.rewound = pmBlock vendor device revision) :
    b.registers = (pmBlock vendor device revision).registers := by
  have hr : b.rewound.registers = (pmBlock vendor device revision).registers := by rw [hb]
  exact hr

theorem ends_pmBase {location : Pci.Address} {ok : Bool × UInt16 → Platform → Prop}
    (hboard : p.Board model base) (hh : h.Is model base)
    (hb : b.rewound = pmBlock vendor device revision)
    (hok : ∀ i k', ok (true, piix4Base) ((p.equip { b with index := i } m?).put h g k')) :
    Ends answer (pmBase ⟨location, vendor, device, revision⟩ (accessOf vendor device revision))
      ((p.equip b m?).put h g k) ok bad := by
  have hreg := registers_of_rewound hb
  unfold pmBase
  dsimp only
  cases hf : usesFchEnable vendor device revision with
  | true =>
      have hlo : b.registers.read Pm.fchEnable.toNat = 0x10 := by
        rw [hreg]
        exact pmBlock_read_fch hf (by decide)
      have hhi : b.registers.read (Pm.fchEnable + 1).toNat = 0x0B := by
        rw [hreg]
        exact pmBlock_read_fch hf (by decide)
      have hval : (hasAny 0x10 Pm.fchEnableBit, LittleEndian.word 0 0x0B) = (true, piix4Base) := by
        decide
      rw [if_pos rfl, ends_bind]
      refine PmAccess.ends_read hboard hh (reaches_low hb fun _ => by decide) fun i₁ k₁ _ => ?_
      rw [ends_bind]
      refine PmAccess.ends_read hboard hh (reaches_low hb fun _ => by decide) fun i₂ k₂ _ => ?_
      dsimp only
      rw [hlo, hhi, hval]
      exact hok i₂ k₂
  | false =>
      have hw : usesPmWindow vendor device revision = true → False := fun hw => by
        rw [(window_features hw).1] at hf
        cases hf
      have hlo : b.registers.read Pm.sb800Enable.toNat = 0x01 := by
        rw [hreg]
        exact pmBlock_read_sb800 hf (by decide)
      have hhi : b.registers.read (Pm.sb800Enable + 1).toNat = 0x0B := by
        rw [hreg]
        exact pmBlock_read_sb800 hf (by decide)
      have hval : (hasAny 0x01 Pm.sb800EnableBit,
          LittleEndian.word 0x01 0x0B &&& Pm.sb800BaseMask) = (true, piix4Base) := by
        decide
      rw [if_neg Bool.false_ne_true, ends_bind]
      refine PmAccess.ends_read hboard hh (reaches_low hb fun hc => (hw hc).elim) fun i₁ k₁ _ => ?_
      rw [ends_bind]
      refine PmAccess.ends_read hboard hh (reaches_low hb fun hc => (hw hc).elim) fun i₂ k₂ _ => ?_
      dsimp only
      rw [hlo, hhi, hval]
      exact hok i₂ k₂

theorem ends_findSelector {location : Pci.Address} {ok : Selector → Platform → Prop}
    (hboard : p.Board model base) (hh : h.Is model base)
    (hb : b.rewound = pmBlock vendor device revision)
    (hok : ∀ i k', ok (pmBlock vendor device revision).selector
      ((p.equip { b with index := i } m?).put h g k')) :
    Ends answer (findSelector ⟨location, vendor, device, revision⟩
      (accessOf vendor device revision)) ((p.equip b m?).put h g k) ok bad := by
  have hreg := registers_of_rewound hb
  rw [pmBlock_selector] at hok
  unfold findSelector
  dsimp only
  split
  · rename_i hv
    have hw : usesPmWindow vendor device revision = true → False := fun hw =>
      (window_features hw).2.1 hv
    rw [ends_bind]
    refine PmAccess.ends_read hboard hh (reaches_low hb fun hc => (hw hc).elim) fun i₁ k₁ _ => ?_
    rw [if_pos hv] at hok
    have hchoice : b.registers.read Selector.choice.toNat = 0 := by
      rw [hreg]
      exact pmBlock_read_choice _ _ _
    have hbit : hasAny 0 1 = false := by decide
    rw [hchoice, hbit]
    exact hok i₁ k₁
  · rename_i hv
    rw [if_neg hv] at hok
    split
    · rename_i hk
      rw [if_pos hk] at hok
      exact hok b.index k
    · rename_i hk
      rw [if_neg hk] at hok
      exact hok b.index k

theorem ends_findImc {identity : Pci.Identity} {ok : Bool → Platform → Prop}
    (hok : ∀ running k, (running = true → (p.config.identity? Imc.bridge).isSome = true) →
      ok running (p.spent k)) :
    Ends answer (findImc identity) p ok bad := by
  unfold findImc
  split
  · rw [ends_bind]
    refine ends_identity fun k => ?_
    cases hi : p.config.identity? Imc.bridge with
    | none => exact hok false k fun hf => by cases hf
    | some found =>
        dsimp only
        rw [ends_bind]
        refine ends_readPci8 ?_
        exact hok _ _ fun _ => by rw [hi]; rfl
  · exact hok false p.counters fun hf => by cases hf

/-! ## Detection -/

/-- The controller that detection hands on. -/
def candidate? (p : Platform) : Option Detected :=
  match p.transport with
  | .delegated => (p.identified? .piix4 amdLocation).filter fun found => isKnown found.identity
  | .direct => (Discovery.bus0.findSome? (p.config.accepted? isKnown)).map (⟨·, none⟩)

theorem ends_detect {ok : Option Detected → Platform → Prop}
    (hok : ∀ k, ok (candidate? p) (p.spent k)) :
    Ends answer (detect p.transport) p ok bad :=
  Controller.ends_detect .piix4 hok

theorem isKnown_iff {identity : Pci.Identity} (hk : isKnown identity = true) :
    ∃ part, part? identity.vendor identity.device = some part :=
  Option.isSome_iff_exists.mp hk

theorem vendor_of_known {identity : Pci.Identity} (hk : isKnown identity = true) :
    identity.vendor ≠ 0xFFFF ∧ identity.vendor ≠ 0 ∧
      (identity.vendor = Pci.Vendor.amd → identity.device ≠ bridgeDevice) := by
  have hall : ∀ part ∈ parts, part.vendor ≠ 0xFFFF ∧ part.vendor ≠ 0 ∧
      (part.vendor = Pci.Vendor.amd → part.device ≠ bridgeDevice) := by decide
  obtain ⟨part, hp⟩ := isKnown_iff hk
  have hm := List.mem_of_find?_eq_some hp
  have he := List.find?_some hp
  simp only [Bool.and_eq_true, beq_iff_eq] at he
  rw [← he.1, ← he.2]
  exact hall part hm

/-- What a candidate is: an Intel host of a device identifier that both families have, or a host of
this family with its base address in configuration space or in the power-management block. -/
inductive Candidate (p : Platform) : Detected → Prop
  | stray (device : UInt16) (hostConfig : UInt8)
      (hs : p.config.lookup Ich.usualLocation = some (ichSpace device hostConfig))
      (ht : p.transport = .direct) :
      Candidate p ⟨⟨Ich.usualLocation, Pci.Vendor.intel, device, 0x10⟩, none⟩
  | legacy (location : Pci.Address) (vendor device : UInt16) (revision : UInt8)
      (io : Option UInt16) (hsb : isSb800 vendor device revision = false)
      (hl : location = legacyLocation ∨ location = amdLocation)
      (hs : p.transport = .direct →
        p.config.lookup location = some (legacySpace vendor device revision))
      (hio : p.transport = .delegated → io = some piix4Base) :
      Candidate p ⟨⟨location, vendor, device, revision⟩, io⟩
  | sb800 (vendor device : UInt16) (revision : UInt8) (io : Option UInt16)
      (hsb : isSb800 vendor device revision = true)
      (hpm : ∃ b, p.pm = some b ∧ b.rewound = pmBlock vendor device revision)
      (hio : p.transport = .delegated → io = some piix4Base) :
      Candidate p ⟨⟨amdLocation, vendor, device, revision⟩, io⟩

theorem candidate_of_delegated {found : Detected} (hl : p.Laid) (ht : p.transport = .delegated)
    (hf : candidate? p = some found) :
    Candidate p found ∧ p.piix4.isSome = true ∧ isKnown found.identity = true := by
  simp only [candidate?, ht, Option.filter_eq_some_iff] at hf
  obtain ⟨hi, hk⟩ := hf
  have hnot : p.transport = .direct → False := fun hd => by
    rw [ht] at hd
    cases hd
  cases hh : p.host? .piix4 with
  | none =>
      rw [identified?_none hh] at hi
      cases hi
  | some h =>
      have hh' : p.piix4 = some h := hh
      obtain ⟨-, hb, -, -, -, hloc⟩ := hl.piix4 h hh'
      have hsome : p.piix4.isSome = true := by rw [hh']; rfl
      refine ⟨?_, hsome, hk⟩
      cases hs : p.config.lookup h.location with
      | none =>
          have hv := identified?_absent hh hs hi
          exact absurd hv (vendor_of_known hk).1
      | some space =>
          generalize hgen : h.location = location at hs hloc
          cases hl.placed location space hs with
          | ich => exact absurd hloc (by decide)
          | legacy _ vendor device revision hl' hsb _ =>
              rw [identified?_headed hh (by rw [hgen]; exact hs)
                (legacySpace_headed vendor device revision)] at hi
              cases hi
              exact .legacy _ _ _ _ _ hsb (.inr rfl) (fun hd => (hnot hd).elim) fun _ => by rw [hb]
          | sb800 vendor device revision hsb _ hpm =>
              rw [identified?_headed hh (by rw [hgen]; exact hs)
                (DimmBus.ConfigSpace.header_headed vendor device revision)] at hi
              cases hi
              exact .sb800 _ _ _ _ hsb hpm fun _ => by rw [hb]
          | bridge => exact absurd hloc (by decide)

theorem candidate_of_direct {found : Detected} (hl : p.Laid) (ht : p.transport = .direct)
    (hf : candidate? p = some found) :
    Candidate p found ∧ (found.identity.location ≠ Ich.usualLocation → p.piix4.isSome = true) ∧
      isKnown found.identity = true := by
  simp only [candidate?, ht, Option.map_eq_some_iff] at hf
  obtain ⟨identity, hi, rfl⟩ := hf
  obtain ⟨location, -, ha⟩ := List.exists_of_findSome?_eq_some hi
  obtain ⟨hk, space, hs, hall⟩ := DimmBus.ConfigSpace.of_accepted? ha
  have hv := vendor_of_known hk
  have hnot : p.transport = .delegated → False := fun hd => by
    rw [ht] at hd
    cases hd
  cases hl.placed location space hs with
  | ich device hostConfig _ _ _ =>
      obtain rfl := hall _ _ _ (ichSpace_headed device hostConfig)
      exact ⟨.stray device hostConfig hs ht, fun hne => absurd rfl hne, hk⟩
  | legacy location vendor device revision hl' hsb hh =>
      obtain rfl := hall _ _ _ (legacySpace_headed vendor device revision)
      exact ⟨.legacy _ _ _ _ _ hsb hl' (fun _ => hs) fun hd => (hnot hd).elim, fun _ => hh, hk⟩
  | sb800 vendor device revision hsb hh hpm =>
      obtain rfl := hall _ _ _ (DimmBus.ConfigSpace.header_headed vendor device revision)
      exact ⟨.sb800 _ _ _ _ hsb hpm fun hd => (hnot hd).elim, fun _ => hh, hk⟩
  | bridge _ =>
      obtain rfl := hall _ _ _ bridgeSpace_headed
      exact absurd rfl (hv.2.2 rfl)

/-! ## Into use -/

section

variable {c : DimmBus.ConfigSpace} {location : Pci.Address}

theorem read_base (hs : c.lookup location = some (legacySpace vendor device revision)) :
    c.read location (baseRegister vendor device) 2 = 0x0B01 := by
  have hconf : ConfigSpace.hostConfig.toNat = 0xD2 := by decide
  have hbar : LittleEndian.toBytes 2 (piix4Base.toNat + 1) = [0x01, 0x0B] := by decide
  have hlt : (baseRegister vendor device).toNat + 2 ≤ 256 := by
    obtain h | h := baseRegister_cases vendor device <;> rw [h] <;> decide
  rw [DimmBus.ConfigSpace.read_of_lookup hs hlt]
  unfold legacySpace
  rw [hconf, hbar]
  obtain h | h := baseRegister_cases vendor device <;> rw [h] <;>
    simp +decide [List.range', RegisterFile.read_write, DimmBus.ConfigSpace.read_setBytes,
      LittleEndian.ofBytes]

theorem read_hostConfig (hs : c.lookup location = some (legacySpace vendor device revision)) :
    c.read location ConfigSpace.hostConfig 1 = 1 := by
  have hconf : ConfigSpace.hostConfig.toNat = 0xD2 := by decide
  rw [DimmBus.ConfigSpace.read_of_lookup hs (by decide), hconf]
  unfold legacySpace
  rw [hconf]
  simp +decide [List.range', RegisterFile.read_write_self, LittleEndian.ofBytes]

theorem read_base_ich {hostConfig : UInt8}
    (hs : c.lookup location = some (ichSpace device hostConfig)) :
    c.read location (baseRegister Pci.Vendor.intel device) 2 = 0 := by
  have hreg : baseRegister Pci.Vendor.intel device = 0x90 := by simp +decide [baseRegister]
  have hoff : Ich.ConfigSpace.baseRegister.toNat = 0x20 := by decide
  have hconf : Ich.ConfigSpace.hostConfig.toNat = 0x40 := by decide
  have hbar : LittleEndian.toBytes 4 (ichBase.toNat + 1) = [0xA1, 0xEF, 0, 0] := by decide
  rw [hreg, DimmBus.ConfigSpace.read_of_lookup hs (by decide)]
  unfold ichSpace
  rw [hoff, hconf, hbar]
  simp +decide [List.range', RegisterFile.read_write, DimmBus.ConfigSpace.read_setBytes,
    DimmBus.ConfigSpace.read_header, LittleEndian.ofBytes]

end

theorem ends_resolveStray {hostConfig : UInt8} {ok : UInt16 → Platform → Prop}
    (hs : p.config.lookup Ich.usualLocation = some (ichSpace device hostConfig))
    (hok : ∀ k, ok 0 (p.spent k)) :
    Ends answer (resolveLegacy ⟨Ich.usualLocation, Pci.Vendor.intel, device, 0x10⟩) p ok bad := by
  have hbase : UInt16.ofNat 0 &&& ConfigSpace.baseMask = 0 := by decide
  rw [resolveLegacy]
  simp only [ends_bind]
  refine ends_readPci16 ?_
  rw [read_base_ich hs, hbase, if_pos rfl]
  exact hok _

theorem ends_resolveLegacy {location : Pci.Address} {ok : UInt16 → Platform → Prop}
    (hs : p.config.lookup location = some (legacySpace vendor device revision))
    (hok : ∀ k, ok piix4Base (p.spent k)) :
    Ends answer (resolveLegacy ⟨location, vendor, device, revision⟩) p ok bad := by
  have hbase : UInt16.ofNat 0x0B01 &&& ConfigSpace.baseMask = piix4Base := by decide
  have hzero : ¬piix4Base = 0 := by decide
  have hon : hasAny (UInt8.ofNat 1) ConfigSpace.hostEnable = true := by decide
  have hcommand := DimmBus.ConfigSpace.read_command hs (legacySpace_headed _ _ _)
  rw [resolveLegacy]
  simp only [ends_bind]
  refine ends_readPci16 ?_
  rw [read_base hs, hbase, if_neg hzero]
  simp only [ends_bind]
  refine ends_readPci8 ?_
  change Ends _ (if hasAny (UInt8.ofNat (p.config.read location ConfigSpace.hostConfig 1))
    ConfigSpace.hostEnable = true then _ else _) _ _ _
  rw [read_hostConfig hs, hon, if_pos rfl]
  simp only [ends_bind]
  exact ends_enableIoSpace hcommand hok

/-- Nothing but the bridge of the micro-controller is where that is looked for. -/
theorem mailbox_of_bridge (hl : p.Laid) (hi : (p.config.identity? Imc.bridge).isSome = true) :
    p.mailbox.isSome = true := by
  have hne : Imc.bridge ≠ Ich.usualLocation ∧ Imc.bridge ≠ legacyLocation ∧
      Imc.bridge ≠ amdLocation := by decide
  cases hs : p.config.lookup Imc.bridge with
  | none =>
      rw [DimmBus.ConfigSpace.identity?_none hs] at hi
      cases hi
  | some space =>
      generalize hloc : Imc.bridge = location at hs hne
      cases hl.placed location space hs with
      | ich => exact absurd rfl hne.1
      | legacy _ _ _ _ hl' _ _ =>
          obtain rfl | rfl := hl'
          · exact absurd rfl hne.2.1
          · exact absurd rfl hne.2.2
      | sb800 => exact absurd rfl hne.2.2
      | bridge hmail => exact hmail

/-- Reading registers of the block moves its index, and nothing else. -/
theorem untouched_index {h : Host} (hpiix4 : p.piix4 = some h) (hmodel : h.isPiix4 = true)
    (hpm : p.pm = some b) (i : UInt8) (k : Counters) :
    p.Untouched ((p.equip { b with index := i } p.mailbox).put h p.segment k) := by
  have hrew : (some { b with index := i }).map PmBlock.rewound = p.pm.map PmBlock.rewound := by
    rw [hpm]
    rfl
  rw [put_eq_piix4 hmodel]
  refine ⟨⟨rfl, rfl, by rw [hpiix4], hrew, rfl⟩, rfl, by rw [hpiix4], rfl, rfl, rfl, rfl,
    fun hl => ?_⟩
  have hl' := hl.alter hl.placed hrew p.transport p.segment k
  rw [← hpiix4]
  exact hl'

theorem ends_resolveSb800 {ok : UInt16 × Sb800 → Platform → Prop} (hl : p.Laid)
    (hh : p.piix4.isSome = true) (hpm : p.pm = some b)
    (hrew : b.rewound = pmBlock vendor device revision)
    (hok : ∀ s p', p.Untouched p' → s.selector = (pmBlock vendor device revision).selector →
      s.pm.Reaches b s.selector.register →
      (s.notifyImc = true → p.mailbox.isSome = true) → ok (piix4Base, s) p') :
    Ends answer (resolveSb800 ⟨amdLocation, vendor, device, revision⟩) p ok bad := by
  obtain ⟨h, hpiix4⟩ := Option.isSome_iff_exists.mp hh
  obtain ⟨hm, hb, -⟩ := hl.piix4 h hpiix4
  have his : h.Is .piix4 piix4Base := ⟨hm, hb⟩
  have hmodel : h.isPiix4 = true := by simp [Host.isPiix4, hm]
  have hboard := hl.wired.board
  have he : (p.equip b p.mailbox).put h p.segment p.counters = p := by
    rw [put_equip, put_piix4 hpiix4 hmodel]
    exact equip_self hpm
  suffices hs : Ends answer (resolveSb800 ⟨amdLocation, vendor, device, revision⟩)
      ((p.equip b p.mailbox).put h p.segment p.counters) ok bad by
    rw [he] at hs
    exact hs
  unfold resolveSb800
  simp only [ends_bind]
  refine ends_pmBase hboard his hrew fun i₁ k₁ => ?_
  dsimp only
  rw [if_pos rfl]
  simp only [ends_bind]
  refine ends_findSelector hboard his hrew fun i₂ k₂ => ?_
  refine ends_findImc fun running k₃ hrun => ?_
  have hreach : (accessOf vendor device revision).Reaches b
      (pmBlock vendor device revision).selector.register := reaches_low hrew fun hw => by
    rw [pmBlock_selector, if_neg (window_features hw).2.1, if_pos (window_features hw).2.2]
    decide
  refine hok _ _ (untouched_index hpiix4 hmodel hpm i₂ k₃) rfl hreach fun hn =>
    mailbox_of_bridge hl ?_
  have hi := hrun hn
  rw [put_eq_piix4 hmodel] at hi
  exact hi

/-- The base address and the layout of a candidate, or why it has none. -/
theorem ends_settle {found : Detected} {ok : UInt16 × Option Sb800 → Platform → Prop}
    (hl : p.Laid) (hc : Candidate p found)
    (hh : found.identity.location ≠ Ich.usualLocation → p.piix4.isSome = true)
    (hstray : ∀ p', found.identity.location = Ich.usualLocation → p.Untouched p' → ok (0, none) p')
    (hplain : ∀ p', found.identity.location ≠ Ich.usualLocation → p.Untouched p' →
      (isSb800 found.identity.vendor found.identity.device found.identity.revision = false ∨
        p.transport = .delegated ∧ ∃ b, p.pm = some b ∧ b.selector.Known) →
      ok (piix4Base, none) p')
    (hsb800 : ∀ s p' b, found.identity.location ≠ Ich.usualLocation → p.Untouched p' →
      p.pm = some b → b.selector.Known → s.selector = b.selector →
      s.pm.Reaches b b.selector.register → (s.notifyImc = true → p.mailbox.isSome = true) →
      ok (piix4Base, some s) p') :
    Ends answer (settle found p.transport) p ok bad := by
  have hself : p.Untouched (p.spent p.counters) := .spent p p.counters
  cases hc with
  | stray device hostConfig hs ht =>
      rw [ht]
      unfold settle
      dsimp only
      rw [Ich.isSb800_intel, if_neg Bool.false_ne_true, ends_bind]
      exact ends_resolveStray hs fun k => hstray _ rfl (.spent p k)
  | legacy location vendor device revision io hsb hl' hs hio =>
      have hne : location ≠ Ich.usualLocation := by
        obtain rfl | rfl := hl' <;> decide
      cases ht : p.transport with
      | delegated =>
          rw [settle, hio ht]
          exact hplain _ hne hself (.inl hsb)
      | direct =>
          unfold settle
          dsimp only
          rw [hsb, if_neg Bool.false_ne_true, ends_bind]
          exact ends_resolveLegacy (hs ht) fun k => hplain _ hne (.spent p k) (.inl hsb)
  | sb800 vendor device revision io hsb hpm hio =>
      have hne : amdLocation ≠ Ich.usualLocation := by decide
      obtain ⟨b, hpm, hrew⟩ := hpm
      have hselector : b.selector = (pmBlock vendor device revision).selector := by
        have h : b.rewound.selector = (pmBlock vendor device revision).selector := by rw [hrew]
        exact h
      have hknown : b.selector.Known := hselector ▸ pmBlock_known vendor device revision
      cases ht : p.transport with
      | delegated =>
          rw [settle, hio ht]
          exact hplain _ hne hself (.inr ⟨ht, _, hpm, hknown⟩)
      | direct =>
          unfold settle
          dsimp only
          rw [hsb, if_pos rfl, ends_bind]
          refine ends_resolveSb800 hl (hh hne) hpm hrew fun s p' hu hsel hreach himc => ?_
          rw [← hselector] at hsel
          rw [hsel] at hreach
          exact hsb800 s p' _ hne hu hpm hknown hsel hreach himc

theorem candidate_of_laid {found : Detected} (hl : p.Laid) (hf : candidate? p = some found) :
    Candidate p found ∧ (found.identity.location ≠ Ich.usualLocation → p.piix4.isSome = true) ∧
      isKnown found.identity = true := by
  cases ht : p.transport with
  | delegated =>
      obtain ⟨hc, hh, hk⟩ := candidate_of_delegated hl ht hf
      exact ⟨hc, fun _ => hh, hk⟩
  | direct => exact candidate_of_direct hl ht hf

theorem ends_init {config : Config} {found : Detected} {ok : Piix4 → Platform → Prop}
    (hl : p.Laid) (hf : candidate? p = some found)
    (hok : ∀ c p', c.Fits p → c.poll = config.piix4Poll → c.port = config.piix4Port →
      p.Untouched p' → ok c p')
    (hbad : ∀ e p', found.identity.location = Ich.usualLocation ∨ config.piix4Port ≠ 0 →
      p.Untouched p' → bad e p') :
    Ends answer (init p.transport found config) p ok bad := by
  obtain ⟨hc, hh, hk⟩ := candidate_of_laid hl hf
  obtain ⟨part, hpart⟩ := isKnown_iff hk
  unfold init
  dsimp only
  rw [hpart]
  dsimp only
  split
  · rename_i hle
    refine hbad _ _ (.inr fun hz => ?_) (.spent p p.counters)
    rw [hz] at hle
    exact UInt8.not_lt.mpr hle (portCount_pos _ _ _)
  · rename_i hle
    have hlt := UInt8.not_le.mp hle
    have hport := port_le_three hlt
    have hfirst := port_eq_zero hlt
    have hne : ¬piix4Base = 0 := by decide
    rw [ends_bind]
    refine ends_settle hl hc hh (fun p' hu hp' => ?_) (fun p' hu hp' hplain => ?_)
      fun s p' b hu hp' hpm hsel hs hreach himc => ?_
    · dsimp only
      rw [if_pos rfl]
      exact hbad _ _ (.inl hu) hp'
    · dsimp only
      rw [if_neg hne]
      refine hok _ _ ⟨rfl, rfl, hh hu, hport, fun ht _ => ?_, fun hz => ?_,
        fun s hs => by cases hs⟩ rfl rfl hp'
      · obtain hsb | ⟨hd, -⟩ := hplain
        · exact hfirst hsb
        · rw [hd] at ht
          cases ht
      · obtain hsb | ⟨-, b, hb, hsel⟩ := hplain
        · obtain hz | hz := hz
          · exact absurd (hfirst hsb) hz
          · cases hz
        · exact ⟨b, hb, hsel, fun s hs => by cases hs⟩
    · dsimp only
      rw [if_neg hne]
      refine hok _ _ ⟨rfl, rfl, hh hu, hport, fun _ hs => ?_, fun _ => ?_, fun s' hs' => ?_⟩
        rfl rfl hp'
      · cases hs
      · exact ⟨b, hpm, hsel, fun s' hs' => by cases hs'; exact ⟨hs, hreach⟩⟩
      · cases hs'
        exact himc

end Piix4

end DimmBus
