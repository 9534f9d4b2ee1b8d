import DimmBus.Proofs.BringUp
import DimmBus.Proofs.OwnRegisters

/-!
# Which controller is chosen

On a port whose configuration space can be read, the search finds the first known function in the
order of preference; of the families the first is used whose controller can be.
-/

namespace DimmBus

open Access Attempt

/-! ## Functions on bus 0 -/

namespace Pci.Address

def OnBus0 (a : Address) : Prop := a.bus = 0 ∧ a.device < 32 ∧ a.function < 8

/-- The least of the functions on bus 0 that are supported. -/
structure Least (supported : Address → Bool) (a : Address) : Prop where
  onBus0 : a.OnBus0
  is_supported : supported a = true
  le : ∀ b : Address, b.OnBus0 → supported b = true → a.le b = true

theorem le_refl (a : Address) : a.le a = true := by
  simp [le]

end Pci.Address

namespace Discovery

open Pci

theorem mem_bus0 {a : Address} : a ∈ bus0 ↔ a.OnBus0 := by
  obtain ⟨bus, device, function⟩ := a
  simp only [bus0, List.mem_flatMap, List.mem_map, List.mem_range, Address.mk.injEq,
    Address.OnBus0, UInt8.lt_iff_toNat_lt]
  constructor
  · rintro ⟨d, hd, f, hf, rfl, rfl, rfl⟩
    refine ⟨rfl, ?_, ?_⟩
    · rw [UInt8.toNat_ofNat', Nat.mod_eq_of_lt (by omega)]
      exact hd
    · rw [UInt8.toNat_ofNat', Nat.mod_eq_of_lt (by omega)]
      exact hf
  · rintro ⟨rfl, hd, hf⟩
    exact ⟨device.toNat, hd, function.toNat, hf, rfl, UInt8.ofNat_toNat, UInt8.ofNat_toNat⟩

theorem pairwise_bus0 : bus0.Pairwise fun a b => a.le b = true := by
  unfold bus0
  rw [List.pairwise_flatMap]
  refine ⟨fun d hd => ?_, ?_⟩
  · rw [List.pairwise_map]
    refine List.pairwise_lt_range.imp_of_mem fun {f f'} hf hf' hlt => ?_
    rw [List.mem_range] at hf hf'
    simp only [Address.le, ne_eq, not_true_eq_false, if_false, UInt8.le_iff_toNat_le,
      UInt8.toNat_ofNat', decide_eq_true_eq]
    omega
  · refine List.pairwise_lt_range.imp_of_mem fun {d d'} hd hd' hlt a ha b hb => ?_
    rw [List.mem_range] at hd hd'
    rw [List.mem_map] at ha hb
    obtain ⟨f, -, rfl⟩ := ha
    obtain ⟨f', -, rfl⟩ := hb
    have hne : UInt8.ofNat d ≠ UInt8.ofNat d' := by
      intro he
      have he := congrArg UInt8.toNat he
      rw [UInt8.toNat_ofNat', UInt8.toNat_ofNat'] at he
      omega
    simp only [Address.le, ne_eq, not_true_eq_false, if_false, hne, not_false_eq_true, if_true,
      UInt8.le_iff_toNat_le, UInt8.toNat_ofNat', decide_eq_true_eq]
    omega

theorem least_of_find {supported : Address → Bool} {a : Address}
    (h : bus0.find? supported = some a) : Address.Least supported a := by
  obtain ⟨ha, before, rest, hsplit, hbefore⟩ := List.find?_eq_some_iff_append.mp h
  refine ⟨mem_bus0.mp (List.mem_of_find?_eq_some h), ha, fun b hb hs => ?_⟩
  -- One that comes before `a` in the scan was passed over, and one that comes after is greater.
  have hpair := pairwise_bus0
  have hmem := mem_bus0.mpr hb
  rw [hsplit] at hpair hmem
  obtain hearly | hlate := List.mem_append.mp hmem
  · have hnot := hbefore b hearly
    rw [hs] at hnot
    cases hnot
  · obtain rfl | hrest := List.mem_cons.mp hlate
    · exact b.le_refl
    · exact (List.pairwise_cons.mp (List.pairwise_append.mp hpair).2.1).1 b hrest

theorem find_eq_none {supported : Address → Bool} :
    bus0.find? supported = none ↔ ∀ a : Address, a.OnBus0 → supported a = false := by
  rw [List.find?_eq_none]
  constructor
  · intro h a ha
    exact Bool.eq_false_iff.mpr (h a (mem_bus0.mpr ha))
  · intro h a ha hs
    rw [h a (mem_bus0.mp ha)] at hs
    cases hs

end Discovery

/-! ## Configuration space -/

/-- What is read of configuration space: of each function the first dword and the revision. -/
structure Headers where
  ids : Pci.Address → UInt32
  revision : Pci.Address → UInt8

def Headers.identity (h : Headers) (location : Pci.Address) : Pci.Identity :=
  ⟨location, (Pci.splitId (h.ids location)).1, (Pci.splitId (h.ids location)).2,
    h.revision location⟩

/-- Whenever it is asked, the port answers with these headers. -/
structure Port.Shows (port : Port) (h : Headers) : Prop where
  ids : ∀ past location,
    port past (.readPci32 location Pci.Header.vendorId) = .ok (h.ids location)
  revision : ∀ past location,
    port past (.readPci8 location Pci.Header.revision) = .ok (h.revision location)

namespace Discovery

variable {port : Port} {h : Headers} {past : List Call} {accepts : Pci.Identity → Bool}

theorem ends_identity_shown (hs : port.Shows h) (location : Pci.Address) :
    Ends port.answer (identity location) past
      (fun found _ => found = some (h.identity location) ∨
        found = none ∧ ((h.identity location).vendor = 0xFFFF ∨ (h.identity location).vendor = 0))
      fun _ _ => False := by
  have hids : (readPci32 location Pci.Header.vendorId).run.run port.answer past =
      (.ok (h.ids location), past ++ [⟨.readPci32 location Pci.Header.vendorId,
        port past (.readPci32 location Pci.Header.vendorId)⟩]) :=
    Prod.ext (hs.ids past location) rfl
  unfold identity
  rw [ends_bind, Ends, hids]
  dsimp only
  split
  · rename_i habsent
    refine .inr ⟨rfl, ?_⟩
    obtain habsent | hvendor := habsent
    · refine .inl ?_
      rw [Headers.identity, habsent]
      rfl
    · exact hvendor
  · rw [ends_bind, Ends]
    generalize past ++ [_] = past'
    have hrevision : (readPci8 location Pci.Header.revision).run.run port.answer past' =
        (.ok (h.revision location), past' ++ [⟨.readPci8 location Pci.Header.revision,
          port past' (.readPci8 location Pci.Header.revision)⟩]) :=
      Prod.ext (hs.revision past' location) rfl
    rw [hrevision]
    exact .inl rfl

theorem ends_first_shown (hs : port.Shows h)
    (hknown : ∀ identity, accepts identity = true → identity.vendor ≠ 0xFFFF ∧ identity.vendor ≠ 0)
    (locations : List Pci.Address) :
    Ends port.answer (first accepts locations) past
      (fun found _ => found =
        (locations.find? fun location => accepts (h.identity location)).map h.identity)
      fun _ _ => False := by
  induction locations generalizing past with
  | nil => exact rfl
  | cons location rest ih =>
      unfold first
      refine Ends.bind (ends_identity_shown hs location) fun found past' hf => ?_
      rw [List.find?_cons]
      obtain rfl | ⟨rfl, habsent⟩ := hf
      · dsimp only
        cases ha : accepts (h.identity location) with
        | true => exact rfl
        | false => exact ih
      · dsimp only
        -- No vendor that is known has the number of a function that is not there.
        have hnot : accepts (h.identity location) = false := by
          refine Bool.eq_false_iff.mpr fun ha => ?_
          obtain ⟨hv, hv'⟩ := hknown _ ha
          obtain habsent | habsent := habsent
          · exact hv habsent
          · exact hv' habsent
        rw [hnot]
        exact ih

end Discovery

/-! ## The families -/

namespace Headers

variable (h : Headers)

def detected (location : Pci.Address) : Detected := ⟨h.identity location, none⟩

/-- Whether a function is a known host of a family. -/
def supports : Family → Pci.Address → Bool
  | .ich, location => Ich.isKnown (h.identity location)
  | .piix4, location => Piix4.isKnown (h.identity location)

/-- Where Intel hosts are looked for first, and else the least of all. -/
def Preferred (location : Pci.Address) : Prop :=
  if h.supports .ich Ich.usualLocation then location = Ich.usualLocation
  else if h.supports .ich Ich.laterLocation then location = Ich.laterLocation
  else location.Least (h.supports .ich)

end Headers

variable {port : Port} {h : Headers} {past : List Call}

theorem Attempt.eq_ok_of_ends {α : Type} {x : Attempt α} {value : α}
    (hx : Ends port.answer x past (fun a _ => a = value) fun _ _ => False) :
    (x.run.run port.answer past).1 = .ok value := by
  unfold Ends at hx
  rcases hr : x.run.run port.answer past with ⟨e | a, past'⟩
  · rw [hr] at hx
    exact hx.elim
  · rw [hr] at hx
    exact congrArg Except.ok hx

namespace Controller

theorem vendor_of_accepts {family : Family} {identity : Pci.Identity}
    (h : accepts family identity = true) : identity.vendor ≠ 0xFFFF ∧ identity.vendor ≠ 0 := by
  cases family with
  | ich =>
      rw [Ich.vendor_of_known h]
      decide
  | piix4 =>
      obtain ⟨hones, hzero, -⟩ := Piix4.vendor_of_known h
      exact ⟨hones, hzero⟩

theorem ends_detect_shown (hs : port.Shows h) (family : Family) :
    Ends port.answer (detect family .direct) past (fun found _ => found =
      ((places family).find? (h.supports family)).map h.detected) fun _ _ => False := by
  have hsupports : (fun location => accepts family (h.identity location)) = h.supports family := by
    cases family <;> rfl
  rw [detect_direct]
  refine Ends.bind (Discovery.ends_first_shown hs (fun _ => vendor_of_accepts) _)
    fun found past' hf => ?_
  rw [hf, hsupports]
  exact Option.map_map ..

end Controller

theorem Headers.preferred_of_find (h : Headers) :
    let locations := Ich.usualLocation :: Ich.laterLocation :: Discovery.bus0
    (locations.find? (h.supports .ich) = none ↔
      ∀ a : Pci.Address, a.OnBus0 → h.supports .ich a = false) ∧
    ∀ a, locations.find? (h.supports .ich) = some a → h.supports .ich a = true ∧ h.Preferred a := by
  -- The two usual places are on bus 0 as well, so that the scan of it would have found them.
  have husual : Ich.usualLocation.OnBus0 := by
    unfold Pci.Address.OnBus0
    decide
  have hlater : Ich.laterLocation.OnBus0 := by
    unfold Pci.Address.OnBus0
    decide
  dsimp only
  unfold Preferred
  rw [List.find?_cons]
  cases hu : h.supports .ich Ich.usualLocation with
  | true =>
      refine ⟨⟨nofun, fun hall => ?_⟩, fun a ha => ?_⟩
      · rw [hall _ husual] at hu
        cases hu
      · obtain rfl := Option.some.inj ha
        exact ⟨hu, rfl⟩
  | false =>
      dsimp only
      rw [List.find?_cons]
      cases hl : h.supports .ich Ich.laterLocation with
      | true =>
          refine ⟨⟨nofun, fun hall => ?_⟩, fun a ha => ?_⟩
          · rw [hall _ hlater] at hl
            cases hl
          · obtain rfl := Option.some.inj ha
            exact ⟨hl, rfl⟩
      | false =>
          refine ⟨Discovery.find_eq_none, fun a ha => ?_⟩
          exact ⟨List.find?_some ha, Discovery.least_of_find ha⟩

namespace Controller

/-- From here on, a controller of the family is found and taken into use. -/
def ComesUp (port : Port) (past : List Call) (family : Family) (config : Config)
    (c : Controller) : Prop :=
  ∃ found past', (detect family .direct).run.run port.answer past = (.ok (some found), past') ∧
    ((init family .direct found config).run.run port.answer past').1 = .ok c

variable {family : Family} {config : Config} {c : Controller}

theorem comesUp_iff : ComesUp port past family config c ↔
    ((bringUp family .direct config).run.run port.answer past).1 = .ok (some c) := by
  have hrun : (bringUp family .direct config).run.run port.answer past =
      match (detect family .direct).run.run port.answer past with
      | (.ok (some found), past') =>
        ((some <$> init family .direct found config : Attempt (Option Controller)).run.run
          port.answer past')
      | (.ok none, past') => (.ok none, past')
      | (.error e, past') => (.error e, past') := by
    rw [bringUp, ExceptT.run_bind, Access.run_bind]
    rcases (detect family .direct).run.run port.answer past with ⟨_ | _ | _, past'⟩ <;> rfl
  have hmap : ∀ found past', ((some <$> init family .direct found config :
      Attempt (Option Controller)).run.run port.answer past').1 = .ok (some c) ↔
      ((init family .direct found config).run.run port.answer past').1 = .ok c := by
    intro found past'
    rw [ExceptT.run_map, Access.run_map]
    cases ((init family .direct found config).run.run port.answer past').1 with
    | ok c' => simp [Except.map]
    | error e => simp [Except.map]
  rw [hrun]
  unfold ComesUp
  rcases hd : (detect family .direct).run.run port.answer past with ⟨e | _ | found, past'⟩
  · simp
  · simp
  · dsimp only
    rw [hmap]
    constructor
    · rintro ⟨found', past'', he, hc⟩
      cases he
      exact hc
    · intro hc
      exact ⟨found, past', rfl, hc⟩

theorem family_of_comesUp (h : ComesUp port past family config c) : c.info.family = family := by
  obtain ⟨found, past', -, hc⟩ := h
  exact ((mapped_init family found config).run port.answer past' c hc).1

theorem probeFamilies_of_comesUp {rest : List Family} (h : ComesUp port past family config c) :
    ((probeFamilies .direct config (family :: rest)).run port.answer past).1 = some c := by
  rw [comesUp_iff] at h
  rw [probeFamilies_cons]
  rcases hb : (bringUp family .direct config).run.run port.answer past with ⟨r, past'⟩
  rw [hb] at h
  obtain rfl : r = .ok (some c) := h
  rfl

theorem probeFamilies_of_not {rest : List Family} (h : ∀ c, ¬ComesUp port past family config c) :
    (probeFamilies .direct config (family :: rest)).run port.answer past =
      (probeFamilies .direct config rest).run port.answer
        ((bringUp family .direct config).run.run port.answer past).2 := by
  simp only [comesUp_iff] at h
  rw [probeFamilies_cons]
  rcases hb : (bringUp family .direct config).run.run port.answer past with ⟨e | _ | c, past'⟩
  · rfl
  · rfl
  · rw [hb] at h
    exact absurd rfl (h c)

end Controller

/-- On a port with any readable configuration space, an Intel host is found unless no function on
bus 0 is one, at the usual places first and else the least; so is the least PIIX4-compatible host.
Whatever taking them into use comes to, the probe yields the Intel controller if it comes up, the
other if that one does, and else none. -/
theorem controller_selection (hs : port.Shows h) (past : List Call) (config : Config) :
    (∃ a?, ((Ich.detect .direct).run.run port.answer past).1 = .ok (a?.map h.detected) ∧
      (a? = none ↔ ∀ a : Pci.Address, a.OnBus0 → h.supports .ich a = false) ∧
      ∀ a, a? = some a → h.supports .ich a = true ∧ h.Preferred a) ∧
    (∃ a?, ((Piix4.detect .direct).run.run port.answer past).1 = .ok (a?.map h.detected) ∧
      (a? = none ↔ ∀ a : Pci.Address, a.OnBus0 → h.supports .piix4 a = false) ∧
      ∀ a, a? = some a → a.Least (h.supports .piix4)) ∧
    let outcome := ((Controller.probe .direct config).run port.answer past).1
    let second := ((Controller.bringUp .ich .direct config).run.run port.answer past).2
    (∀ c, Controller.ComesUp port past .ich config c →
      outcome = some c ∧ c.info.family = .ich) ∧
    ((∀ c, ¬Controller.ComesUp port past .ich config c) →
      (∀ c, Controller.ComesUp port second .piix4 config c →
        outcome = some c ∧ c.info.family = .piix4) ∧
      ((∀ c, ¬Controller.ComesUp port second .piix4 config c) → outcome = none)) := by
  refine ⟨?_, ?_, fun c hc => ?_, fun hnot => ⟨fun c hc => ?_, fun hnot' => ?_⟩⟩
  · exact ⟨_, eq_ok_of_ends (Controller.ends_detect_shown hs .ich), h.preferred_of_find⟩
  · exact ⟨_, eq_ok_of_ends (Controller.ends_detect_shown hs .piix4), Discovery.find_eq_none,
      fun a ha => Discovery.least_of_find ha⟩
  · exact ⟨Controller.probeFamilies_of_comesUp hc, Controller.family_of_comesUp hc⟩
  · refine ⟨?_, Controller.family_of_comesUp hc⟩
    rw [Controller.probe, Controller.probeFamilies_of_not hnot]
    exact Controller.probeFamilies_of_comesUp hc
  · rw [Controller.probe, Controller.probeFamilies_of_not hnot,
      Controller.probeFamilies_of_not hnot']
    rfl

/-- The port with other headers in configuration space. -/
def Port.listing (port : Port) (h : Headers) : Port := fun past request =>
  match request with
  | .readPci32 location offset =>
    if offset = Pci.Header.vendorId then .ok (h.ids location)
    else port past (.readPci32 location offset)
  | .readPci8 location offset =>
    if offset = Pci.Header.revision then .ok (h.revision location)
    else port past (.readPci8 location offset)
  | request => port past request

/-- An Intel function that is not known, and a host of the Zen family. -/
def Headers.unlisted : Headers where
  ids location :=
    if location = Ich.usualLocation then 0x00008086
    else if location = Piix4.amdLocation then 0x790B1022
    else Pci.Header.absent
  revision _ := 0x51

theorem controller_selection_unlisted :
    let port := Port.mapped.listing .unlisted
    ((Ich.detect .direct).run.run port.answer []).1 = .ok none ∧
    ((Piix4.detect .direct).run.run port.answer []).1 =
      .ok (some ⟨⟨Piix4.amdLocation, Pci.Vendor.amd, 0x790B, 0x51⟩, none⟩) ∧
    ∃ c, ((Controller.probe .direct {}).run port.answer []).1 = some c ∧
      c.info.family = .piix4 := by
  intro port
  have hs : port.Shows .unlisted := ⟨fun _ _ => rfl, fun _ _ => rfl⟩
  have hich : ∀ a, Headers.unlisted.supports .ich a = false := by
    intro a
    simp only [Headers.supports, Headers.identity, Headers.unlisted, Ich.isKnown]
    split
    · decide
    · split <;> decide
  have hpiix4 : ∀ a, Headers.unlisted.supports .piix4 a = true ↔ a = Piix4.amdLocation := by
    intro a
    simp only [Headers.supports, Headers.identity, Headers.unlisted, Piix4.isKnown]
    split
    · rename_i ha
      subst ha
      decide
    · split
      · rename_i ha
        exact ⟨fun _ => ha, fun _ => by decide⟩
      · rename_i ha
        exact ⟨fun h => absurd h (by decide), fun h => absurd h ha⟩
  have hnobody : ((Ich.detect .direct).run.run port.answer []).1 = .ok none := by
    obtain ⟨⟨a?, hdetect, hnone, -⟩, -⟩ := controller_selection hs [] {}
    rw [hdetect, hnone.mpr fun a _ => hich a]
    rfl
  have hfound : ∀ past, ((Piix4.detect .direct).run.run port.answer past).1 =
      .ok (some ⟨⟨Piix4.amdLocation, Pci.Vendor.amd, 0x790B, 0x51⟩, none⟩) := by
    intro past
    obtain ⟨-, ⟨a?, hdetect, hnone, hleast⟩, -⟩ := controller_selection hs past {}
    rw [hdetect]
    cases a? with
    | none =>
        have hbus : Piix4.amdLocation.OnBus0 := by
          unfold Pci.Address.OnBus0
          decide
        have hnot := hnone.mp rfl _ hbus
        rw [(hpiix4 _).mpr rfl] at hnot
        cases hnot
    | some a =>
        obtain rfl := (hpiix4 a).mp (hleast a rfl).is_supported
        rfl
  obtain ⟨-, -, -, hother⟩ := controller_selection hs [] {}
  refine ⟨hnobody, hfound [], ?_⟩
  have hnot : ∀ c, ¬Controller.ComesUp port [] .ich {} c := by
    rintro c ⟨found, past', hrun, -⟩
    have hrun := hnobody.symm.trans (congrArg Prod.fst hrun)
    cases hrun
  obtain ⟨c, hc⟩ : ∃ c, Controller.ComesUp port
      ((Controller.bringUp .ich .direct {}).run.run port.answer []).2 .piix4 {} c :=
    ⟨_, _, _, Prod.ext (hfound _) rfl, rfl⟩
  exact ⟨c, (hother hnot).1 c hc⟩

end DimmBus
