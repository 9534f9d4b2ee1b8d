import DimmBus.Proofs.History
import DimmBus.Proofs.SampleModules

/-!
# Machines with one host

Bring-up takes the host of every part that is known into use.
-/

namespace DimmBus

open Access Platform

namespace Platform

/-- Machines with a single host, of a known part. -/
inductive Hosted : Family → Platform → Prop
  | ich {device : UInt16} (hk : (Ich.part? device).isSome = true) (hostConfig : UInt8) :
      Hosted .ich (({} : Platform).withIch device hostConfig)
  | piix4 {vendor device : UInt16} (hk : (Piix4.part? vendor device).isSome = true)
      (revision : UInt8) : Hosted .piix4 (({} : Platform).withPiix4 vendor device revision)
  | withImc {family : Family} {p : Platform} (hp : Hosted family p) : Hosted family p.withImc
  | withModule {family : Family} {p : Platform} (hp : Hosted family p) (g : Generation)
      (slot : UInt8) (thermal : Bool) : Hosted family (p.withModule g slot thermal)
  | delegated {family : Family} {p : Platform} (hp : Hosted family p) : Hosted family p.delegated

variable {p : Platform} {family : Family} {config : Config}

theorem Hosted.assembled (hp : p.Hosted family) : p.Assembled := by
  induction hp with
  | ich _ hostConfig => exact .withIch .bare _ hostConfig
  | piix4 _ revision => exact .withPiix4 .bare _ _ revision
  | withImc _ ih => exact .withImc ih
  | withModule _ g slot thermal ih => exact .withModule ih g slot thermal
  | delegated _ ih => exact .delegated ih

/-- An Intel machine with a two-page module in its first slot. -/
def intelSample : Platform := (({} : Platform).withIch 0x7AA3 0).withModule .ddr4 0 true

/-- An AMD machine with a micro-controller and a module with a hub. -/
def amdSample : Platform :=
  ((({} : Platform).withPiix4 Pci.Vendor.amd 0x790B 0x51).withImc).withModule .ddr5 0 true

theorem hosted_intelSample : intelSample.Hosted .ich :=
  .withModule (.ich (by decide) 0) .ddr4 0 true

theorem hosted_amdSample : amdSample.Hosted .piix4 :=
  .withModule (.withImc (.piix4 (by decide) 0x51)) .ddr5 0 true

/-- A form of the sample that is quick to evaluate. -/
theorem intelSample_eq : intelSample =
    { ({} : Platform).withIch 0x7AA3 0 with
      segment := (Segment.empty.attach 0x50 (.paged (Modules.patched
        ((List.range 512).map fun i => UInt8.ofNat ((i * 31 + 4) % 65536 % 251)).toArray
        [(0, 0x23), (1, 0x11), (2, 0x0C), (14, 0x80)]) 0)).attach 0x18
        (.sensor Modules.sensor) } := by
  have hplug : intelSample = { ({} : Platform).withIch 0x7AA3 0 with
      segment := (Segment.empty.attach 0x50 (.paged (Modules.patched (Modules.pattern 512 4)
        [(0, 0x23), (1, 0x11), (2, 0x0C), (14, 0x80)]) 0)).attach 0x18
        (.sensor Modules.sensor) } := rfl
  rw [hplug, Modules.pattern_eq_toArray]

/-- Where a machine with a single host has it. -/
def Shows (p : Platform) : Family → Prop
  | .ich => p.piix4 = none ∧ p.ich.isSome = true ∧ ∃ device hostConfig,
      (Ich.part? device).isSome = true ∧
      p.config.lookup Ich.usualLocation = some (ichSpace device hostConfig)
  | .piix4 => p.ich = none ∧ p.config.lookup Ich.usualLocation = none ∧
      ∃ vendor device revision space, (Piix4.part? vendor device).isSome = true ∧
        (∃ h, p.piix4 = some h ∧ h.location = piix4Location vendor device revision) ∧
        p.config.lookup (piix4Location vendor device revision) = some space ∧
        ConfigSpace.Headed space vendor device revision

theorem piix4Location_ne (vendor device : UInt16) (revision : UInt8) :
    piix4Location vendor device revision ≠ Ich.usualLocation ∧
      piix4Location vendor device revision ≠ Piix4.Imc.bridge ∧
      piix4Location vendor device revision ∈ Discovery.bus0 := by
  obtain h | h := piix4Location_cases vendor device revision <;> rw [h] <;> decide

theorem Shows.withImc (hs : p.Shows family) : p.withImc.Shows family := by
  have hne : Ich.usualLocation ≠ Piix4.Imc.bridge := by decide
  rw [withImc_eq]
  cases family with
  | ich =>
      obtain ⟨hnone, hich, device, hostConfig, hk, hlookup⟩ := hs
      refine ⟨hnone, hich, device, hostConfig, hk, ?_⟩
      rw [ConfigSpace.lookup_insert, if_neg hne, hlookup]
  | piix4 =>
      obtain ⟨hnone, hfree, vendor, device, revision, space, hk, hhost, hlookup, hd⟩ := hs
      refine ⟨hnone, ?_, vendor, device, revision, space, hk, hhost, ?_, hd⟩
      · rw [ConfigSpace.lookup_insert, if_neg hne, hfree]
      · rw [ConfigSpace.lookup_insert, if_neg (piix4Location_ne _ _ _).2.1, hlookup]

theorem Hosted.shows (hp : p.Hosted family) : p.Shows family := by
  induction hp with
  | @ich device hk hostConfig =>
      rw [withIch_eq]
      refine ⟨rfl, rfl, device, hostConfig, hk, ?_⟩
      rw [ConfigSpace.lookup_insert, if_pos rfl]
  | @piix4 vendor device hk revision =>
      rw [withPiix4_eq]
      refine ⟨rfl, ?_, vendor, device, revision, if Piix4.isSb800 vendor device revision then
        ConfigSpace.header vendor device revision else legacySpace vendor device revision, hk,
        ⟨_, rfl, rfl⟩, ?_, ?_⟩
      · rw [ConfigSpace.lookup_insert, if_neg (piix4Location_ne _ _ _).1.symm]
        rfl
      · rw [ConfigSpace.lookup_insert, if_pos rfl]
      · split
        · exact ConfigSpace.header_headed _ _ _
        · exact legacySpace_headed _ _ _
  | withImc _ ih => exact ih.withImc
  | withModule _ _ _ _ ih => cases ‹Family› <;> exact ih
  | delegated _ ih => cases ‹Family› <;> exact ih

end Platform

/-- The host of the machine is found, and not where Intel hosts are. -/
theorem Piix4.candidate_shown {p : Platform} (hl : p.Laid) (hs : p.Shows .piix4) :
    ∃ found, candidate? p = some found ∧ found.identity.location ≠ Ich.usualLocation := by
  obtain ⟨-, hfree, vendor, device, revision, space, hk, ⟨h, hh, hloc⟩, hlookup, hd⟩ := hs
  have hknown : ∀ location, isKnown ⟨location, vendor, device, revision⟩ = true := fun _ => hk
  obtain ⟨hvabs, hvzero, -⟩ := vendor_of_known (hknown amdLocation)
  have hsome : ∃ found, candidate? p = some found := by
    unfold candidate?
    cases ht : p.transport with
    | delegated =>
        have hi : p.identified? .piix4 amdLocation =
            some ⟨⟨amdLocation, vendor, device, revision⟩, some h.base⟩ := identified?_headed hh
          (by rw [hloc]; exact hlookup) hd
        exact ⟨_, by rw [hi]; exact if_pos (hknown _)⟩
    | direct =>
        have ha := ConfigSpace.accepted?_headed hlookup hd ⟨hvabs, hvzero⟩ (hknown _)
        cases hf : Discovery.bus0.findSome? (p.config.accepted? isKnown) with
        | none =>
            rw [List.findSome?_eq_none_iff.mp hf _ (piix4Location_ne _ _ _).2.2] at ha
            cases ha
        | some identity => exact ⟨_, rfl⟩
  obtain ⟨found, hf⟩ := hsome
  have hamd : amdLocation ≠ Ich.usualLocation := by decide
  have hlegacy : legacyLocation ≠ Ich.usualLocation := by decide
  refine ⟨found, hf, ?_⟩
  cases (candidate_of_laid hl hf).1 with
  | stray device hostConfig hs _ =>
      rw [hfree] at hs
      cases hs
  | legacy location _ _ _ _ _ hl' _ _ =>
      obtain rfl | rfl := hl'
      · exact hlegacy
      · exact hamd
  | sb800 => exact hamd

namespace Controller

variable {p : Platform} {family : Family} {config : Config}

theorem Fits.transport {c : Controller} (hf : c.Fits p) : c.info.transport = p.transport := by
  cases c with
  | ich c => exact (Ich.Fits.transport hf).symm
  | piix4 c => exact (Piix4.Fits.transport hf).symm

theorem family_of_shows {c : Controller} (hf : c.Fits p) (hs : p.Shows family) :
    c.family = family := by
  cases c with
  | ich c =>
      obtain ⟨h, _, hh, -⟩ := hf.host
      cases family with
      | ich => rfl
      | piix4 =>
          rw [hs.1] at hh
          cases hh
  | piix4 c =>
      have hh := hf.host
      cases family with
      | piix4 => rfl
      | ich =>
          rw [hs.1] at hh
          cases hh

theorem probe_of_shows (hl : p.Laid) (hs : p.Shows family)
    (hport : family = .piix4 → config.piix4Port = 0) :
    ∃ c, ((probe p.transport config).run answer p).1 = some c ∧ c.Fits p ∧ c.family = family := by
  refine probe_ends config (Q := fun c? _ => ∃ c, c? = some c ∧ c.Fits p ∧ c.family = family) hl
    (fun c _ hfits _ _ => ⟨c, rfl, hfits, family_of_shows hfits hs⟩) fun _ _ hich hpiix4 => ?_
  cases family with
  | ich =>
      obtain ⟨-, hsome, device, hostConfig, hk, hlookup⟩ := hs
      obtain ⟨h, hh⟩ := Option.isSome_iff_exists.mp hsome
      obtain ⟨found, hf, hloc⟩ := Ich.candidate_usual hl hlookup hh hk
      exact absurd hloc (hich found hf)
  | piix4 =>
      obtain ⟨found, hf, hloc⟩ := Piix4.candidate_shown hl hs
      exact absurd (hpiix4 (hport rfl) found hf) hloc

theorem probe_of_hosted (hp : p.Hosted family) (hport : family = .piix4 → config.piix4Port = 0) :
    ∃ c, ((probe p.transport config).run answer p).1 = some c ∧ c.Fits p ∧ c.family = family :=
  probe_of_shows hp.assembled.laid hp.shows hport

end Controller

namespace Bench

theorem exists_startedOn_of_shows {p : Platform} {family : Family} (config : Config)
    (hl : p.Laid) (hs : p.Shows family) (hport : family = .piix4 → config.piix4Port = 0) :
    ∃ w : Bench, w.StartedOn p config ∧ w.session.link.controller.family = family := by
  obtain ⟨c, hc, -, hfamily⟩ := Controller.probe_of_shows hl hs hport
  refine ⟨⟨⟨⟨c, config⟩, .empty⟩, ((Controller.probe p.transport config).run answer p).2⟩, ?_,
    hfamily⟩
  unfold Bench.StartedOn
  rw [Session.bringUp, Access.run_bind, hc]
  rfl

/-- A session can be brought up on such a machine. -/
theorem exists_startedOn {p : Platform} {family : Family} (config : Config)
    (hp : p.Hosted family) (hport : family = .piix4 → config.piix4Port = 0) :
    ∃ w : Bench, w.StartedOn p config ∧ w.session.link.controller.family = family :=
  exists_startedOn_of_shows config hp.assembled.laid hp.shows hport

/-- Whatever slaves are on its bus. -/
theorem exists_startedOn_fill {p : Platform} {family : Family} (config : Config)
    (hp : p.Hosted family) (segment : Segment) (hport : family = .piix4 → config.piix4Port = 0) :
    ∃ w : Bench, w.StartedOn { p with segment } config ∧
      w.session.link.controller.family = family := by
  have hs : ({ p with segment } : Platform).Shows family := by
    have hs := hp.shows
    cases family <;> exact hs
  exact exists_startedOn_of_shows config (hp.assembled.laid.fill p.transport segment) hs hport

/-- The session that comes up on a machine with the usual settings. -/
def started? (p : Platform) : Option Bench :=
  match (Session.bringUp p.transport {}).run answer p with
  | (some session, machine) => some ⟨session, machine⟩
  | (none, _) => none

theorem startedOn_of_started {p : Platform} {w : Bench} (h : started? p = some w) :
    w.StartedOn p {} := by
  unfold started? at h
  split at h
  · rename_i session machine hrun
    cases h
    exact hrun
  · cases h

theorem eq_ok_of_toOption {r : Except Error α} {a : α} (h : r.toOption = some a) : r = .ok a := by
  cases r with
  | ok a => exact congrArg Except.ok (Option.some.inj h)
  | error e => cases h

end Bench

end DimmBus
