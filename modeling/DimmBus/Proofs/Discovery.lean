import DimmBus.Proofs.Assembly

/-!
# Looking through configuration space

Finding a function reads configuration space and changes nothing but the counters.
-/

namespace DimmBus

open Access Attempt Platform

theorem Pci.splitId_ofBytes (vendor device : UInt16) :
    splitId (UInt32.ofNat (LittleEndian.ofBytes [LittleEndian.low vendor, LittleEndian.high vendor,
      LittleEndian.low device, LittleEndian.high device])) = (vendor, device) := by
  have hv := vendor.toNat_lt
  have hd := device.toNat_lt
  have hsum : LittleEndian.ofBytes [LittleEndian.low vendor, LittleEndian.high vendor,
      LittleEndian.low device, LittleEndian.high device] = vendor.toNat + 65536 * device.toNat := by
    simp only [LittleEndian.ofBytes, LittleEndian.low, LittleEndian.high, UInt8.toNat_ofNat']
    omega
  have hn : (UInt32.ofNat (vendor.toNat + 65536 * device.toNat)).toNat =
      vendor.toNat + 65536 * device.toNat := by
    rw [UInt32.toNat_ofNat', Nat.mod_eq_of_lt (by omega)]
  rw [hsum, splitId, hn]
  refine Prod.ext (UInt16.toNat_inj.mp ?_) (UInt16.toNat_inj.mp ?_)
  · rw [UInt16.toNat_ofNat']
    dsimp only
    omega
  · rw [UInt16.toNat_ofNat']
    dsimp only
    omega

namespace ConfigSpace

variable {c : ConfigSpace} {location : Pci.Address} {space : RegisterFile 256 UInt8}
  {vendor device : UInt16} {revision : UInt8}

theorem read_of_lookup {offset : UInt8} {count : Nat} (hs : c.lookup location = some space)
    (hlt : offset.toNat + count ≤ 256) :
    c.read location offset count =
      LittleEndian.ofBytes ((List.range' offset.toNat count).map space.read) := by
  rw [read, List.range'_eq_map_range, List.map_map]
  congr 1
  refine List.map_congr_left fun i hi => ?_
  rw [List.mem_range] at hi
  simp only [byte, hs, Function.comp_apply]
  rw [if_pos (by omega)]

theorem read_ids (hs : c.lookup location = some space) (hh : Headed space vendor device revision) :
    c.read location Pci.Header.vendorId 4 = LittleEndian.ofBytes [LittleEndian.low vendor,
      LittleEndian.high vendor, LittleEndian.low device, LittleEndian.high device] := by
  rw [read_of_lookup hs (by decide), ← hh.ids, List.range_eq_range']
  rfl

theorem read_revision (hs : c.lookup location = some space)
    (hh : Headed space vendor device revision) :
    UInt8.ofNat (c.read location Pci.Header.revision 1) = revision := by
  have hr : Pci.Header.revision.toNat = 8 := by decide
  rw [read_of_lookup hs (by decide), hr]
  simp [List.range', hh.revision, LittleEndian.ofBytes]

theorem read_command (hs : c.lookup location = some space)
    (hh : Headed space vendor device revision) :
    UInt16.ofNat (c.read location Pci.Header.command 2) &&& Pci.Header.ioSpace ≠ 0 := by
  have hc : Pci.Header.command.toNat = 4 := by decide
  rw [read_of_lookup hs (by decide), hc, hh.command]
  decide

/-- The identity in the header of a function, if it is there. -/
def identity? (c : ConfigSpace) (location : Pci.Address) : Option Pci.Identity :=
  let dword := UInt32.ofNat (c.read location Pci.Header.vendorId 4)
  let (vendor, device) := Pci.splitId dword
  if dword = Pci.Header.absent ∨ vendor = 0xFFFF ∨ vendor = 0 then none
  else some ⟨location, vendor, device, UInt8.ofNat (c.read location Pci.Header.revision 1)⟩

theorem identity?_none (hs : c.lookup location = none) : c.identity? location = none := by
  have hread : c.read location Pci.Header.vendorId 4 = 0xFFFFFFFF := by
    simp [read, byte, hs, List.range_succ, LittleEndian.ofBytes]
  have ha : UInt32.ofNat 0xFFFFFFFF = Pci.Header.absent := by decide
  simp only [identity?, hread]
  rw [if_pos (.inl ha)]

theorem identity?_headed (hs : c.lookup location = some space)
    (hh : Headed space vendor device revision) :
    c.identity? location =
      if vendor = 0xFFFF ∨ vendor = 0 then none else some ⟨location, vendor, device, revision⟩ := by
  have hsplit := Pci.splitId_ofBytes vendor device
  rw [identity?, read_ids hs hh, read_revision hs hh]
  simp only [hsplit]
  by_cases hv : vendor = 0xFFFF ∨ vendor = 0
  · rw [if_pos (.inr hv), if_pos hv]
  · rw [if_neg hv, if_neg]
    rintro (ha | hv')
    · -- The first dword of an absent function names a vendor of its own.
      rw [ha] at hsplit
      exact hv (.inl (congrArg Prod.fst hsplit.symm))
    · exact hv hv'

/-- The identity of a function that is accepted. -/
def accepted? (c : ConfigSpace) (accepts : Pci.Identity → Bool) (location : Pci.Address) :
    Option Pci.Identity :=
  (c.identity? location).filter accepts

theorem accepted?_headed {accepts : Pci.Identity → Bool} (hs : c.lookup location = some space)
    (hh : Headed space vendor device revision) (hv : vendor ≠ 0xFFFF ∧ vendor ≠ 0)
    (ha : accepts ⟨location, vendor, device, revision⟩ = true) :
    c.accepted? accepts location = some ⟨location, vendor, device, revision⟩ := by
  rw [accepted?, identity?_headed hs hh, if_neg (by simp [hv]), Option.filter_some, if_pos ha]

theorem of_accepted? {accepts : Pci.Identity → Bool} {found : Pci.Identity}
    (hf : c.accepted? accepts location = some found) :
    accepts found = true ∧ ∃ space, c.lookup location = some space ∧
      ∀ vendor device revision, Headed space vendor device revision →
        found = ⟨location, vendor, device, revision⟩ := by
  rw [accepted?, Option.filter_eq_some_iff] at hf
  refine ⟨hf.2, ?_⟩
  cases hs : c.lookup location with
  | none =>
      rw [identity?_none hs] at hf
      cases hf.1
  | some space =>
      refine ⟨space, rfl, fun vendor device revision hh => ?_⟩
      have hi := hf.1
      rw [identity?_headed hs hh] at hi
      split at hi
      · cases hi
      · exact (Option.some.inj hi).symm

end ConfigSpace

namespace Platform

/-- The machine with other counters. -/
def spent (p : Platform) (k : Counters) : Platform := { p with counters := k }

variable {p : Platform} {location : Pci.Address} {offset : UInt8} {bad : Error → Platform → Prop}

theorem ends_readPci8 {ok : UInt8 → Platform → Prop}
    (hok : ok (UInt8.ofNat (p.config.read location offset 1)) (p.spent p.counters.called)) :
    Ends answer (readPci8 location offset) p ok bad := hok

theorem ends_readPci16 {ok : UInt16 → Platform → Prop}
    (hok : ok (UInt16.ofNat (p.config.read location offset 2)) (p.spent p.counters.called)) :
    Ends answer (readPci16 location offset) p ok bad := hok

theorem ends_readPci32 {ok : UInt32 → Platform → Prop}
    (hok : ok (UInt32.ofNat (p.config.read location offset 4)) (p.spent p.counters.called)) :
    Ends answer (readPci32 location offset) p ok bad := hok

theorem ends_identity {ok : Option Pci.Identity → Platform → Prop}
    (hok : ∀ k, ok (p.config.identity? location) (p.spent k)) :
    Ends answer (Discovery.identity location) p ok bad := by
  rw [Discovery.identity, ends_bind]
  refine ends_readPci32 ?_
  have hk := hok p.counters.called
  have hk' := hok p.counters.called.called
  unfold ConfigSpace.identity? at hk hk'
  dsimp only at hk hk' ⊢
  split
  · rename_i hn
    rw [if_pos hn] at hk
    exact hk
  · rename_i hn
    rw [if_neg hn] at hk'
    rw [ends_bind]
    exact ends_readPci8 hk'

theorem ends_first {accepts : Pci.Identity → Bool} {locations : List Pci.Address}
    {ok : Option Pci.Identity → Platform → Prop}
    (hok : ∀ k, ok (locations.findSome? (p.config.accepted? accepts)) (p.spent k)) :
    Ends answer (Discovery.first accepts locations) p ok bad := by
  induction locations generalizing p with
  | nil => exact hok p.counters
  | cons location rest ih =>
      rw [Discovery.first, ends_bind]
      refine ends_identity fun k => ?_
      rw [List.findSome?_cons] at hok
      unfold ConfigSpace.accepted? at hok
      cases hi : p.config.identity? location with
      | none =>
          rw [hi] at hok
          exact ih fun k' => hok k'
      | some found =>
          rw [hi, Option.filter_some] at hok
          dsimp only
          split
          · rename_i ha
            rw [if_pos ha] at hok
            exact hok k
          · rename_i ha
            rw [if_neg ha] at hok
            exact ih fun k' => hok k'

/-- A function that answers on its I/O addresses is left as it is. -/
theorem ends_enableIoSpace {ok : Unit → Platform → Prop}
    (hc : UInt16.ofNat (p.config.read location Pci.Header.command 2) &&& Pci.Header.ioSpace ≠ 0)
    (hok : ∀ k, ok () (p.spent k)) : Ends answer (Discovery.enableIoSpace location) p ok bad := by
  rw [Discovery.enableIoSpace, ends_bind]
  refine ends_readPci16 ?_
  rw [if_neg hc]
  exact hok _

/-! ## Through a routine -/

/-- What an identity routine tells. -/
def identified? (p : Platform) (family : Family) (location : Pci.Address) : Option Detected :=
  (p.host? family).map fun h =>
    let (vendor, device) :=
      Pci.splitId (UInt32.ofNat (p.config.read h.location Pci.Header.vendorId 4))
    ⟨⟨location, vendor, device, UInt8.ofNat (p.config.read h.location Pci.Header.revision 1)⟩,
      some h.base⟩

variable {family : Family}

theorem identified?_none (hh : p.host? family = none) : p.identified? family location = none := by
  rw [identified?, hh, Option.map_none]

theorem identified?_headed {h : Host} {space : RegisterFile 256 UInt8} {vendor device : UInt16}
    {revision : UInt8} (hh : p.host? family = some h) (hs : p.config.lookup h.location = some space)
    (hd : ConfigSpace.Headed space vendor device revision) :
    p.identified? family location =
      some ⟨⟨location, vendor, device, revision⟩, some h.base⟩ := by
  rw [identified?, hh, Option.map_some, ConfigSpace.read_ids hs hd, ConfigSpace.read_revision hs hd]
  simp only [Pci.splitId_ofBytes]

/-- A function that is not there has no known vendor. -/
theorem identified?_absent {h : Host} {found : Detected} (hh : p.host? family = some h)
    (hs : p.config.lookup h.location = none) (hf : p.identified? family location = some found) :
    found.identity.vendor = 0xFFFF := by
  have hread : p.config.read h.location Pci.Header.vendorId 4 = 0xFFFFFFFF := by
    simp [ConfigSpace.read, ConfigSpace.byte, hs, List.range_succ, LittleEndian.ofBytes]
  rw [identified?, hh, Option.map_some, hread] at hf
  have hv : (Pci.splitId (UInt32.ofNat 0xFFFFFFFF)).1 = 0xFFFF := by decide
  rw [← Option.some.inj hf]
  exact hv

theorem ofNat_config_read (c : ConfigSpace) (location : Pci.Address) (offset : UInt8) :
    UInt32.ofNat (UInt64.ofNat (c.read location offset 4)).toNat =
      UInt32.ofNat (c.read location offset 4) := by
  have hlt := LittleEndian.ofBytes_lt
    ((List.range 4).map fun i => c.byte location (offset.toNat + i))
  rw [List.length_map, List.length_range] at hlt
  rw [UInt64.toNat_ofNat', Nat.mod_eq_of_lt]
  exact Nat.lt_of_lt_of_le hlt (by decide)

theorem ofNat_revision (c : ConfigSpace) (location : Pci.Address) (offset : UInt8) :
    UInt8.ofNat (UInt64.ofNat (c.read location offset 1 + 0xFFFFFF00)).toNat =
      UInt8.ofNat (c.read location offset 1) := by
  refine UInt8.toNat_inj.mp ?_
  rw [UInt64.toNat_ofNat', UInt8.toNat_ofNat', UInt8.toNat_ofNat']
  omega

theorem ends_identify (family : Family) {routine : String} {ok : Option Detected → Platform → Prop}
    (ht : p.transport = .delegated)
    (hr : ∀ p : Platform, p.runRoutine routine [] = (p.identityOf family, p))
    (hok : ∀ k, ok (p.identified? family location) (p.spent k)) :
    Ends answer (ExceptT.lift (Delegated.identify routine location)) p ok bad := by
  have hk := hok p.counters.called
  have hrun : p.counted.runRoutine routine [] = (p.counted.identityOf family, p.counted) := hr _
  have hhost : p.counted.host? family = p.host? family := by cases family <;> rfl
  rw [ends_lift, Delegated.identify, Access.run_bind]
  have ha : (delegate routine [] Delegated.identityWords).run.run answer p =
      ((p.counted.identityOf family).map (fit Delegated.identityWords), p.counted) := by
    change answer (.delegate routine [] Delegated.identityWords) p = _
    simp only [answer, ht, hrun]
  rw [ha]
  unfold identityOf
  rw [hhost]
  unfold identified? at hk
  cases hh : p.host? family with
  | none =>
      rw [hh] at hk
      exact hk
  | some h =>
      have hconfig : p.counted.config = p.config := rfl
      have hbase : UInt16.ofNat h.base.toUInt64.toNat = h.base := by simp
      rw [hh] at hk
      simp only [Except.map, fit, Delegated.identityWords, List.take, List.length,
        Nat.reduceAdd, Nat.reduceSub, List.replicate, List.append_nil, hconfig, ofNat_config_read,
        ofNat_revision, hbase]
      exact hk

end Platform

/-! ## Detection -/

namespace Controller

def accepts : Family → Pci.Identity → Bool
  | .ich => Ich.isKnown
  | .piix4 => Piix4.isKnown

/-- Where a direct detection looks. -/
def places : Family → List Pci.Address
  | .ich => Ich.usualLocation :: Ich.laterLocation :: Discovery.bus0
  | .piix4 => Discovery.bus0

/-- The routine that tells the identity, and the function that it speaks of. -/
def identityRoutine : Family → String × Pci.Address
  | .ich => (Delegated.Routine.ichIdentity, Ich.usualLocation)
  | .piix4 => (Delegated.Routine.piix4Identity, Piix4.amdLocation)

theorem detect_direct (family : Family) : detect family .direct =
    Discovery.first (accepts family) (places family) >>= fun found =>
      pure (found.map (⟨·, none⟩)) := by
  cases family <;> rfl

theorem detect_delegated (family : Family) : detect family .delegated = (do
    let found ← ExceptT.lift
      (Delegated.identify (identityRoutine family).1 (identityRoutine family).2)
    return found.filter fun found => accepts family found.identity) := by
  cases family
  all_goals
    refine congrArg (_ >>= ·) (funext fun found? => ?_)
    cases found? with
    | none => rfl
    | some found =>
        rw [Option.filter_some]
        rfl

/-- The controller that detection hands on. -/
def candidate? (family : Family) (p : Platform) : Option Detected :=
  match p.transport with
  | .delegated => (p.identified? family (identityRoutine family).2).filter fun found =>
      accepts family found.identity
  | .direct => ((places family).findSome? (p.config.accepted? (accepts family))).map (⟨·, none⟩)

theorem runRoutine_identity (family : Family) (p : Platform) :
    p.runRoutine (identityRoutine family).1 [] = (p.identityOf family, p) := by
  cases family <;> simp +decide [Platform.runRoutine]

theorem ends_detect (family : Family) {p : Platform} {ok : Option Detected → Platform → Prop}
    {bad : Error → Platform → Prop} (hok : ∀ k, ok (candidate? family p) (p.spent k)) :
    Ends answer (detect family p.transport) p ok bad := by
  unfold candidate? at hok
  cases ht : p.transport with
  | delegated =>
      rw [ht] at hok
      rw [detect_delegated, ends_bind]
      exact ends_identify family ht (runRoutine_identity family) hok
  | direct =>
      rw [ht] at hok
      rw [detect_direct, ends_bind]
      exact ends_first hok

end Controller

end DimmBus
