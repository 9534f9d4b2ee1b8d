import DimmBus.Proofs.Discovery

/-!
# Taking an Intel host into use

A controller that is brought up on an assembled machine is that of the machine's host, and the
machine stays as it was put together.
-/

namespace DimmBus

open Access Attempt Platform

namespace Platform

/-- What bring-up leaves as it was. -/
structure Untouched (p p' : Platform) : Prop where
  stands : p.Stands p'
  ich : p'.ich = p.ich
  piix4 : p'.piix4 = p.piix4
  mailbox : p'.mailbox = p.mailbox
  segment : p'.segment = p.segment
  faults : p'.faults = p.faults
  lock : p'.lockHeld = p.lockHeld
  laid : p.Laid → p'.Laid

variable {p p' p'' : Platform}

theorem Laid.spent (hl : p.Laid) (k : Counters) : (p.spent k).Laid :=
  hl.alter hl.placed rfl p.transport p.segment k

theorem Untouched.spent (p : Platform) (k : Counters) : p.Untouched (p.spent k) :=
  ⟨⟨rfl, rfl, rfl, rfl, rfl⟩, rfl, rfl, rfl, rfl, rfl, rfl, fun hl => hl.spent k⟩

theorem Untouched.trans (h : p.Untouched p') (h' : p'.Untouched p'') : p.Untouched p'' :=
  ⟨h.stands.trans h'.stands, h'.ich.trans h.ich, h'.piix4.trans h.piix4,
    h'.mailbox.trans h.mailbox, h'.segment.trans h.segment, h'.faults.trans h.faults,
    h'.lock.trans h.lock, fun hl => h'.laid (h.laid hl)⟩

theorem Tidy.untouched {held : Bool} (ht : p.Tidy held) (hu : p.Untouched p') : p'.Tidy held where
  ich h hh := ht.ich h (by rw [← hu.ich, hh])
  piix4 h hh := by
    have hj : p'.jammed = p.jammed := by rw [jammed, jammed, has, has, has, has, hu.faults]
    rw [hj]
    exact ht.piix4 h (by rw [← hu.piix4, hh])
  free hheld := by
    have hh : p'.has .semaphoreHeld = p.has .semaphoreHeld := by rw [has, has, hu.faults]
    rw [hh, hu.piix4]
    exact ht.free hheld
  awake m hm := ht.awake m (by rw [← hu.mailbox, hm])

end Platform

/-! ## The base address -/

namespace Ich

variable {device : UInt16} {part : Part}

theorem part?_mem (hp : part? device = some part) : part ∈ parts := List.mem_of_find?_eq_some hp

theorem blockBuffer_of_part (hp : part? device = some part) :
    part.features.blockProcCall = true → part.features.blockBuffer = true := by
  have hall : ∀ part ∈ parts, part.features.blockProcCall = true →
      part.features.blockBuffer = true := by decide
  exact hall part (part?_mem hp)

theorem featuresOf_part (hp : part? device = some part) : featuresOf device = part.features := by
  simp [featuresOf, hp]

theorem read_bar {c : ConfigSpace} {location : Pci.Address} {hostConfig : UInt8}
    (hs : c.lookup location = some (ichSpace device hostConfig)) :
    c.read location ConfigSpace.baseRegister 4 = 0xEFA1 := by
  have hoff : ConfigSpace.baseRegister.toNat = 0x20 := by decide
  have hconf : ConfigSpace.hostConfig.toNat = 0x40 := by decide
  have hbar : LittleEndian.toBytes 4 (ichBase.toNat + 1) = [0xA1, 0xEF, 0, 0] := by decide
  rw [DimmBus.ConfigSpace.read_of_lookup hs (by decide), hoff]
  unfold ichSpace
  rw [hoff, hconf, hbar]
  simp +decide [List.range', RegisterFile.read_write, DimmBus.ConfigSpace.read_setBytes,
    LittleEndian.ofBytes]

/-- The controller that detection hands on. -/
def candidate? (p : Platform) : Option Detected :=
  match p.transport with
  | .delegated => (p.identified? .ich usualLocation).filter fun found => isKnown found.identity
  | .direct =>
    ((usualLocation :: laterLocation :: Discovery.bus0).findSome?
      (p.config.accepted? isKnown)).map (⟨·, none⟩)

variable {p : Platform} {found : Detected} {bad : Error → Platform → Prop}

theorem ends_detect {ok : Option Detected → Platform → Prop}
    (hok : ∀ k, ok (candidate? p) (p.spent k)) :
    Ends answer (detect p.transport) p ok bad :=
  Controller.ends_detect .ich hok

/-- The candidate is the host of the machine; else it has no base address. -/
structure Candidate (p : Platform) (found : Detected) : Prop where
  known : isKnown found.identity = true
  usual : found.identity.location = usualLocation → ∃ h, p.ich = some h ∧
    h.model = .ich (featuresOf found.identity.device) ∧ h.base = ichBase ∧
    (p.transport = .delegated → found.ioBase = some ichBase) ∧
    ∃ hostConfig, p.config.lookup usualLocation =
      some (ichSpace found.identity.device hostConfig)
  unusual : found.identity.location ≠ usualLocation → p.transport = .direct ∧
    ∃ revision, p.config.lookup found.identity.location =
      some (legacySpace found.identity.vendor found.identity.device revision)

theorem vendor_of_known {identity : Pci.Identity} (hk : isKnown identity = true) :
    identity.vendor = Pci.Vendor.intel := by
  simp only [isKnown, Bool.and_eq_true, decide_eq_true_eq] at hk
  exact hk.1

theorem part_of_known {identity : Pci.Identity} (hk : isKnown identity = true) :
    ∃ part, part? identity.device = some part := by
  simp only [isKnown, Bool.and_eq_true] at hk
  exact Option.isSome_iff_exists.mp hk.2

theorem isSb800_intel (device : UInt16) (revision : UInt8) :
    Piix4.isSb800 Pci.Vendor.intel device revision = false := by
  simp +decide [Piix4.isSb800]

end Ich

namespace Platform

variable {p : Platform} {space : RegisterFile 256 UInt8}

/-- Where the Intel host is put, there is nothing else. -/
theorem Laid.at_usual (hl : p.Laid) (hs : p.config.lookup Ich.usualLocation = some space) :
    ∃ device hostConfig h, space = ichSpace device hostConfig ∧ p.ich = some h ∧
      h.model = .ich (featuresOf device) := by
  generalize hloc : Ich.usualLocation = location at hs
  cases hl.placed location space hs with
  | ich device hostConfig h hh hm => exact ⟨device, hostConfig, h, rfl, hh, hm⟩
  | legacy _ _ _ _ hl' =>
      obtain rfl | rfl := hl'
      · exact absurd hloc (by decide)
      · exact absurd hloc (by decide)
  | sb800 => exact absurd hloc (by decide)
  | bridge => exact absurd hloc (by decide)

/-- How an Intel host is configured makes no difference. -/
theorem Laid.placed_write (hl : p.Laid) {value : UInt8} {location : Pci.Address}
    (hs : (p.config.write Ich.usualLocation Ich.ConfigSpace.hostConfig 1 value.toNat).lookup
      location = some space) : p.Placed location space := by
  rw [ConfigSpace.lookup_write] at hs
  split at hs
  · rename_i hloc
    subst hloc
    obtain ⟨space₀, hs₀, rfl⟩ := Option.map_eq_some_iff.mp hs
    obtain ⟨device, hostConfig, h, rfl, hh, hm⟩ := hl.at_usual hs₀
    have hspace : ConfigSpace.setBytes (ichSpace device hostConfig)
        Ich.ConfigSpace.hostConfig.toNat (LittleEndian.toBytes 1 value.toNat) =
          ichSpace device value := by
      rw [ConfigSpace.setBytes_byte value (by decide), ichSpace, RegisterFile.write_write]
      rfl
    rw [hspace]
    exact .ich device value h hh hm
  · exact hl.placed location space hs

end Platform

namespace Ich

variable {p : Platform} {found : Detected} {bad : Error → Platform → Prop}

theorem candidate_of_delegated (hl : p.Laid) (ht : p.transport = .delegated)
    (hf : candidate? p = some found) : Candidate p found := by
  simp only [candidate?, ht, Option.filter_eq_some_iff] at hf
  obtain ⟨hi, hk⟩ := hf
  cases hh : p.host? .ich with
  | none =>
      rw [identified?_none hh] at hi
      cases hi
  | some h =>
      obtain ⟨hb, hloc, -, -⟩ := hl.ich h hh
      cases hs : p.config.lookup usualLocation with
      | none =>
          have hv := identified?_absent hh (by rw [hloc]; exact hs) hi
          rw [vendor_of_known hk] at hv
          exact absurd hv (by decide)
      | some space =>
          obtain ⟨device, hostConfig, h', rfl, hh', hm⟩ := hl.at_usual hs
          obtain rfl : h = h' := Option.some.inj (hh.symm.trans hh')
          rw [identified?_headed hh (by rw [hloc]; exact hs)
            (ichSpace_headed device hostConfig)] at hi
          cases hi
          refine ⟨hk, fun _ => ⟨h, hh, hm, hb, fun _ => by rw [hb], hostConfig, hs⟩, fun hne => ?_⟩
          exact absurd rfl hne

theorem candidate_of_direct (hl : p.Laid) (ht : p.transport = .direct)
    (hf : candidate? p = some found) : Candidate p found := by
  simp only [candidate?, ht, Option.map_eq_some_iff] at hf
  obtain ⟨identity, hi, rfl⟩ := hf
  obtain ⟨location, -, ha⟩ := List.exists_of_findSome?_eq_some hi
  obtain ⟨hk, space, hs, hall⟩ := DimmBus.ConfigSpace.of_accepted? ha
  have hv := vendor_of_known hk
  cases hl.placed location space hs with
  | ich device hostConfig h hh hm =>
      obtain rfl := hall _ _ _ (ichSpace_headed device hostConfig)
      obtain ⟨hb, -⟩ := hl.ich h hh
      refine ⟨hk, fun _ => ⟨h, hh, hm, hb, fun hd => ?_, hostConfig, hs⟩, fun hne => ?_⟩
      · rw [ht] at hd
        cases hd
      · exact absurd rfl hne
  | legacy location vendor device revision hl' _ _ =>
      obtain rfl := hall _ _ _ (legacySpace_headed vendor device revision)
      refine ⟨hk, fun he => ?_, fun _ => ⟨ht, revision, hs⟩⟩
      obtain rfl | rfl := hl'
      · exact absurd he (by decide : legacyLocation ≠ usualLocation)
      · exact absurd he (by decide : Piix4.amdLocation ≠ usualLocation)
  | sb800 vendor device revision hsb _ _ =>
      obtain rfl := hall _ _ _ (DimmBus.ConfigSpace.header_headed vendor device revision)
      dsimp only at hv
      rw [hv, isSb800_intel] at hsb
      cases hsb
  | bridge _ =>
      obtain rfl := hall _ _ _ bridgeSpace_headed
      exact absurd hv (by decide)

theorem candidate_of_laid (hl : p.Laid) (hf : candidate? p = some found) : Candidate p found := by
  cases ht : p.transport with
  | delegated => exact candidate_of_delegated hl ht hf
  | direct => exact candidate_of_direct hl ht hf

theorem read_bar_legacy {c : DimmBus.ConfigSpace} {location : Pci.Address} {vendor device : UInt16}
    {revision : UInt8} (hs : c.lookup location = some (legacySpace vendor device revision)) :
    c.read location ConfigSpace.baseRegister 4 = 0 := by
  have hoff : ConfigSpace.baseRegister.toNat = 0x20 := by decide
  have hconf : Piix4.ConfigSpace.hostConfig.toNat = 0xD2 := by decide
  have hbar : LittleEndian.toBytes 2 (piix4Base.toNat + 1) = [0x01, 0x0B] := by decide
  rw [DimmBus.ConfigSpace.read_of_lookup hs (by decide), hoff]
  unfold legacySpace
  rw [hconf, hbar]
  obtain h | h := baseRegister_cases vendor device <;> rw [h] <;>
    simp +decide [List.range', RegisterFile.read_write, DimmBus.ConfigSpace.read_setBytes,
      DimmBus.ConfigSpace.read_header, LittleEndian.ofBytes]

/-- The controller that bring-up makes of the host of a machine. -/
theorem fits_of_candidate {c : Ich} {part : Part} {h : Host}
    (hpart : part? found.identity.device = some part) (hh : p.ich = some h)
    (hm : h.model = .ich (featuresOf found.identity.device)) (hb : h.base = ichBase)
    (ht : p.transport = c.info.transport) (hbase : c.info.base = ichBase)
    (hcap : c.info.capabilities = capabilities part.features) : c.Fits p where
  transport := ht
  base := hbase
  host := ⟨h, part.features, hh, ⟨by rw [hm, featuresOf_part hpart], hb⟩, hcap,
    blockBuffer_of_part hpart⟩

/-- The base address of the host is read, and nothing but its mode may be changed. Where the
candidate is no host of the machine, there is no base address. -/
theorem ends_resolve {ok : UInt16 × Bool → Platform → Prop} (part : Part) (hc : Candidate p found)
    (hok : ∀ blocked p', found.identity.location = usualLocation → p.Untouched p' →
      ok (ichBase, blocked) p')
    (hbad : ∀ e k, found.identity.location ≠ usualLocation → bad e (p.spent k)) :
    Ends answer (resolve part found.identity.location) p ok bad := by
  rw [resolve, ends_bind]
  refine ends_readPci32 ?_
  by_cases hloc : found.identity.location = usualLocation
  · obtain ⟨h, hh, hm, hb, -, hostConfig, hs⟩ := hc.usual hloc
    have hbase :
        UInt16.ofNat (UInt32.ofNat 0xEFA1 &&& ConfigSpace.baseMask).toNat = ichBase := by decide
    have hne : ¬ichBase = 0 := by decide
    rw [hloc, read_bar hs]
    dsimp only
    rw [hbase, if_neg hne, ends_bind]
    have hcommand := DimmBus.ConfigSpace.read_command hs (ichSpace_headed _ _)
    refine ends_enableIoSpace hcommand fun k => ?_
    rw [ends_bind]
    refine ends_readPci8 ?_
    have hdone : ∀ config' k' blocked, (∀ hl : p.Laid, ∀ location space,
          config'.lookup location = some space → p.Placed location space) →
        ok (ichBase, blocked) { p with config := config', counters := k' } :=
      fun config' k' blocked hplaced =>
        hok _ _ hloc ⟨⟨rfl, rfl, rfl, rfl, rfl⟩, rfl, rfl, rfl, rfl, rfl, rfl,
          fun hl => hl.alter (hplaced hl) rfl _ _ _⟩
    split
    · exact hdone _ _ _ fun hl _ _ => hl.placed_write
    · exact hdone _ _ _ fun hl => hl.placed
  · obtain ⟨-, revision, hs⟩ := hc.unusual hloc
    have hbase : UInt16.ofNat (UInt32.ofNat 0 &&& ConfigSpace.baseMask).toNat = 0 := by decide
    rw [read_bar_legacy hs]
    dsimp only
    rw [hbase, if_pos rfl]
    exact hbad _ _ hloc

theorem ends_settle {ok : UInt16 × Bool → Platform → Prop} (part : Part) (hc : Candidate p found)
    (hok : ∀ blocked p', found.identity.location = usualLocation → p.Untouched p' →
      ok (ichBase, blocked) p')
    (hbad : ∀ e k, found.identity.location ≠ usualLocation → bad e (p.spent k)) :
    Ends answer (settle part found p.transport) p ok bad := by
  cases ht : p.transport with
  | delegated =>
      have hloc : found.identity.location = usualLocation := by
        refine Classical.byContradiction fun hne => ?_
        have hd := (hc.unusual hne).1
        rw [ht] at hd
        cases hd
      obtain ⟨h, -, -, -, hio, -⟩ := hc.usual hloc
      rw [settle, hio ht]
      exact hok _ _ hloc (.spent p p.counters)
  | direct => exact ends_resolve part hc hok hbad

theorem ends_init {config : Config} {ok : Ich → Platform → Prop} (hc : Candidate p found)
    (hok : ∀ c p', found.identity.location = usualLocation → c.Fits p → c.poll = config.ichPoll →
      p.Untouched p' → ok c p')
    (hbad : ∀ e k, found.identity.location ≠ usualLocation → bad e (p.spent k)) :
    Ends answer (init p.transport found config) p ok bad := by
  obtain ⟨part, hpart⟩ := part_of_known hc.known
  unfold init
  rw [hpart]
  dsimp only
  rw [ends_bind]
  refine ends_settle part hc (fun blocked p' hloc hu => ?_) hbad
  obtain ⟨h, hh, hm, hb, -⟩ := hc.usual hloc
  exact hok _ _ hloc (fits_of_candidate hpart hh hm hb rfl rfl rfl) rfl hu

/-- The host of the machine is found first. -/
theorem candidate_usual (hl : p.Laid) {device : UInt16} {hostConfig : UInt8} {h : Host}
    (hs : p.config.lookup usualLocation = some (ichSpace device hostConfig))
    (hh : p.ich = some h) (hk : (part? device).isSome = true) :
    ∃ found, candidate? p = some found ∧ found.identity.location = usualLocation := by
  have hv : Pci.Vendor.intel ≠ 0xFFFF ∧ Pci.Vendor.intel ≠ 0 := by decide
  have hknown : isKnown ⟨usualLocation, Pci.Vendor.intel, device, 0x10⟩ = true := by
    simp [isKnown, hk]
  have hd := ichSpace_headed device hostConfig
  unfold candidate?
  cases ht : p.transport with
  | delegated =>
      obtain ⟨-, hloc, -⟩ := hl.ich h hh
      have hi : p.identified? .ich usualLocation =
          some ⟨⟨usualLocation, Pci.Vendor.intel, device, 0x10⟩, some h.base⟩ :=
        identified?_headed hh (by rw [hloc]; exact hs) hd
      refine ⟨⟨⟨usualLocation, Pci.Vendor.intel, device, 0x10⟩, some h.base⟩, ?_, rfl⟩
      simp only [hi, Option.filter_some, hknown, if_true]
  | direct =>
      have ha := DimmBus.ConfigSpace.accepted?_headed hs hd hv hknown
      refine ⟨⟨⟨usualLocation, Pci.Vendor.intel, device, 0x10⟩, none⟩, ?_, rfl⟩
      simp only [List.findSome?_cons, ha, Option.map_some]

end Ich

end DimmBus
