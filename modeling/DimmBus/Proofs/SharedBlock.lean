import DimmBus.Proofs.Hosted
import DimmBus.Proofs.Pacts
import DimmBus.Proofs.SparingWrites

/-!
# Sharing the power-management block

What becomes of bring-up and of transactions when somebody else uses the block as well. Anybody may
move the index. The field of the bus multiplexer is one user's to set, and all else in the block is
only read. So much is enough for bring-up to find what it finds on a machine of its own.
-/

namespace DimmBus

open Access Attempt Platform

/-- A request that neither moves the index of the block nor writes what others rely on. -/
def Request.spares : Request → Bool
  | .writeIo8 address _ => address ≠ Piix4.Pm.index ∧ address ≠ Piix4.Pm.data
  | .writePci8 .. | .writePci16 .. | .writePci32 .. | .writeMmio8 .. => false
  | _ => true

/-- What a user of the block keeps track of: where it has moved the index, and what it has left in
the register of the multiplexer, if that is its to set. -/
structure Stake where
  index : Option UInt8
  field : Option UInt8

namespace PmBlock

/-- A register may show a value: that of the block, but for the field of the multiplexer. -/
def Shows (b : PmBlock) (index value : UInt8) : Prop :=
  if index = b.selector.register then
    value &&& ~~~b.selector.mask = b.registers.read index.toNat &&& ~~~b.selector.mask
  else value = b.registers.read index.toNat

inductive Allows (b : PmBlock) (v : Stake) : Request → Prop
  | aside {request : Request} (h : request.spares = true) : Allows b v request
  | point (index : UInt8) : Allows b v (.writeIo8 Piix4.Pm.index index)
  | set {value : UInt8} (hi : v.index = some b.selector.register) (hf : v.field.isSome = true)
      (hs : b.Shows b.selector.register value) : Allows b v (.writeIo8 Piix4.Pm.data value)

/-- The answers that can be relied on. -/
def Certain (b : PmBlock) (config : ConfigSpace) (v : Stake) :
    (request : Request) → request.Answer → Prop
  | .readPci8 location offset, answer =>
    answer = .ok (UInt8.ofNat (config.read location offset 1))
  | .readPci16 location offset, answer =>
    answer = .ok (UInt16.ofNat (config.read location offset 2))
  | .readPci32 location offset, answer =>
    answer = .ok (UInt32.ofNat (config.read location offset 4))
  | .writeIo8 _ _, answer => answer = .ok ()
  | .readIo8 address, answer => address = Piix4.Pm.data → ∀ index, v.index = some index →
    ∃ value, answer = .ok value ∧ b.Shows index value ∧
      ∀ own, v.field = some own → index = b.selector.register → value = own
  | _, _ => True

end PmBlock

/-- What is kept track of after a request. -/
def Stake.next (v : Stake) : Request → Stake
  | .writeIo8 address value =>
    if address = Piix4.Pm.index then { v with index := some value }
    else if address = Piix4.Pm.data then { v with field := v.field.map fun _ => value }
    else v
  | _ => v

/-- How the block is shared. -/
def PmBlock.pact (b : PmBlock) (config : ConfigSpace) : Pact Stake where
  may v := b.Allows v
  shown v := b.Certain config v
  after v request _ := v.next request

theorem Stake.next_spares {v : Stake} {request : Request} (h : request.spares = true) :
    v.next request = v := by
  cases request with
  | writeIo8 address value =>
      simp only [Request.spares, decide_eq_true_eq] at h
      simp only [next, if_neg h.1, if_neg h.2]
  | _ => rfl

theorem Stake.next_set (v : Stake) (value : UInt8) :
    v.next (.writeIo8 Piix4.Pm.data value) = { v with field := v.field.map fun _ => value } := by
  have hne : Piix4.Pm.data ≠ Piix4.Pm.index := by decide
  rw [next, if_neg hne, if_pos rfl]

/-- Nobody comes by the field on the way. -/
theorem Stake.next_field {v : Stake} (h : v.field = none) (request : Request) :
    (v.next request).field = none := by
  cases request with
  | writeIo8 address value =>
      simp only [next]
      split
      · exact h
      · split
        · simp only [h, Option.map_none]
        · exact h
  | _ => exact h

variable {α : Type} {b : PmBlock} {config : ConfigSpace} {v : Stake} {location : Pci.Address}
  {offset : UInt8} {bad : Error → Stake → Prop}

/-! ## Requests -/

theorem heeds_readPci8 {ok : UInt8 → Stake → Prop}
    (hok : ok (UInt8.ofNat (config.read location offset 1)) v) :
    (readPci8 location offset).Heeds (b.pact config) ok bad v :=
  ⟨.aside rfl, by rintro _ rfl; exact hok⟩

theorem heeds_readPci32 {ok : UInt32 → Stake → Prop}
    (hok : ok (UInt32.ofNat (config.read location offset 4)) v) :
    (readPci32 location offset).Heeds (b.pact config) ok bad v :=
  ⟨.aside rfl, by rintro _ rfl; exact hok⟩

theorem heeds_identity {ok : Option Pci.Identity → Stake → Prop}
    (hok : ok (config.identity? location) v) :
    (Discovery.identity location).Heeds (b.pact config) ok bad v := by
  rw [Discovery.identity]
  refine .seq (heeds_readPci32 ?_)
  unfold ConfigSpace.identity? at hok
  dsimp only at hok ⊢
  split
  · rename_i hn
    rw [if_pos hn] at hok
    exact hok
  · rename_i hn
    rw [if_neg hn] at hok
    exact .seq (heeds_readPci8 hok)

theorem heeds_first {accepts : Pci.Identity → Bool} {locations : List Pci.Address}
    {ok : Option Pci.Identity → Stake → Prop}
    (hok : ok (locations.findSome? (config.accepted? accepts)) v) :
    (Discovery.first accepts locations).Heeds (b.pact config) ok bad v := by
  induction locations with
  | nil => exact hok
  | cons location rest ih =>
      rw [Discovery.first]
      refine .seq (heeds_identity ?_)
      rw [List.findSome?_cons] at hok
      unfold ConfigSpace.accepted? at hok
      cases hi : config.identity? location with
      | none =>
          rw [hi] at hok
          exact ih hok
      | some found =>
          rw [hi, Option.filter_some] at hok
          dsimp only
          split
          · rename_i ha
            rw [if_pos ha] at hok
            exact hok
          · rename_i ha
            rw [if_neg ha] at hok
            exact ih hok

namespace Piix4

/-- Between the two halves of an access the index stays where it was moved. -/
theorem PmAccess.heeds_read {index : UInt8} {ok : UInt8 → Stake → Prop}
    (hok : ∀ value, b.Shows index value →
      (∀ own, v.field = some own → index = b.selector.register → value = own) →
      ok value { v with index := some index }) :
    (PmAccess.indexData.read index).Heeds (b.pact config) ok bad v := by
  refine .seq ⟨.point index, ?_⟩
  rintro _ rfl
  refine ⟨.aside rfl, fun answer hanswer => ?_⟩
  obtain ⟨value, rfl, hshows, hown⟩ := hanswer rfl index rfl
  exact hok value hshows hown

theorem PmAccess.heeds_write {value : UInt8} {ok : Unit → Stake → Prop}
    (hv : b.Shows b.selector.register value) (hf : v.field.isSome = true)
    (hok : ok () ⟨some b.selector.register, some value⟩) :
    (PmAccess.indexData.write b.selector.register value).Heeds (b.pact config) ok bad v := by
  refine .seq ⟨.point _, ?_⟩
  rintro _ rfl
  refine ⟨.set rfl hf hv, ?_⟩
  rintro _ rfl
  obtain ⟨own, hown⟩ := Option.isSome_iff_exists.mp hf
  simp only [PmBlock.pact, Stake.next, if_true, hown]
  exact hok

/-! ## What bring-up finds -/

/-- A machine whose only host is of an SB800-class part, with its block as it is at the
beginning. -/
structure Solo (vendor device : UInt16) (revision : UInt8) (p : Platform) : Prop where
  known : (part? vendor device).isSome = true
  sb800 : isSb800 vendor device revision = true
  ich : p.ich = none
  piix4 : ∃ h, p.piix4 = some h ∧ h.Is .piix4 piix4Base
  pm : p.pm = some (pmBlock vendor device revision)
  present : p.config.lookup amdLocation = some (DimmBus.ConfigSpace.header vendor device revision)
  placed : ∀ location space, p.config.lookup location = some space →
    (location = amdLocation ∧ space = DimmBus.ConfigSpace.header vendor device revision) ∨
      (location = Imc.bridge ∧ space = bridgeSpace)

variable {vendor device : UInt16} {revision : UInt8} {p : Platform}

theorem Solo.withPiix4 (hk : (part? vendor device).isSome = true)
    (hsb : isSb800 vendor device revision = true) :
    Solo vendor device revision (({} : Platform).withPiix4 vendor device revision) := by
  have hloc : piix4Location vendor device revision = amdLocation := by
    rw [piix4Location, hsb, Bool.true_or, if_pos rfl]
  rw [withPiix4_eq, hsb, hloc]
  refine ⟨hk, hsb, rfl, ⟨_, rfl, rfl, rfl⟩, rfl, ?_, fun location space hs => .inl ?_⟩
  · rw [DimmBus.ConfigSpace.lookup_insert, if_pos rfl, if_pos rfl]
  · rw [DimmBus.ConfigSpace.lookup_insert] at hs
    split at hs
    · rename_i hl
      exact ⟨hl, (Option.some.inj hs).symm⟩
    · cases hs

theorem Solo.withImc (hp : Solo vendor device revision p) :
    Solo vendor device revision p.withImc := by
  have hne : amdLocation ≠ Imc.bridge := by decide
  rw [withImc_eq]
  refine ⟨hp.known, hp.sb800, hp.ich, hp.piix4, hp.pm, ?_, fun location space hs => ?_⟩
  · rw [DimmBus.ConfigSpace.lookup_insert, if_neg hne, hp.present]
  · rw [DimmBus.ConfigSpace.lookup_insert] at hs
    split at hs
    · rename_i hl
      exact .inr ⟨hl, (Option.some.inj hs).symm⟩
    · exact hp.placed location space hs

/-- A machine with a single host and a power-management block. -/
theorem exists_solo {family : Family} (hp : p.Hosted family) (hpm : p.pm.isSome = true) :
    ∃ vendor device revision, Solo vendor device revision p := by
  induction hp with
  | ich => cases hpm
  | @piix4 vendor device hk revision =>
      refine ⟨vendor, device, revision, ?_⟩
      cases hsb : isSb800 vendor device revision with
      | true => exact .withPiix4 hk hsb
      | false =>
          rw [withPiix4_eq, hsb] at hpm
          cases hpm
  | withImc _ ih =>
      obtain ⟨vendor, device, revision, hs⟩ := ih hpm
      exact ⟨vendor, device, revision, hs.withImc⟩
  | withModule _ _ _ _ ih | delegated _ ih =>
      obtain ⟨vendor, device, revision, hs⟩ := ih hpm
      exact ⟨vendor, device, revision, ⟨hs.known, hs.sb800, hs.ich, hs.piix4, hs.pm, hs.present,
        hs.placed⟩⟩

theorem vendor_of_sb800 (hsb : isSb800 vendor device revision = true) :
    vendor ≠ Pci.Vendor.intel := by
  rintro rfl
  revert hsb
  simp +decide [isSb800]

/-- No function passes for an Intel host. -/
theorem Solo.noIch (hp : Solo vendor device revision p) (location : Pci.Address) :
    p.config.accepted? Ich.isKnown location = none := by
  have hamd : Pci.Vendor.amd ≠ Pci.Vendor.intel := by decide
  cases ha : p.config.accepted? Ich.isKnown location with
  | none => rfl
  | some found =>
      obtain ⟨hk, space, hs, hall⟩ := DimmBus.ConfigSpace.of_accepted? ha
      simp only [Ich.isKnown, Bool.and_eq_true, decide_eq_true_eq] at hk
      obtain ⟨-, rfl⟩ | ⟨-, rfl⟩ := hp.placed location space hs
      · rw [hall _ _ _ (DimmBus.ConfigSpace.header_headed vendor device revision)] at hk
        exact absurd hk.1 (vendor_of_sb800 hp.sb800)
      · rw [hall _ _ _ bridgeSpace_headed] at hk
        exact absurd hk.1 hamd

/-- The host is the first function that passes for one. -/
theorem Solo.found (hp : Solo vendor device revision p) :
    Discovery.bus0.findSome? (p.config.accepted? isKnown) =
      some ⟨amdLocation, vendor, device, revision⟩ := by
  have hknown : isKnown ⟨amdLocation, vendor, device, revision⟩ = true := hp.known
  obtain ⟨hvabs, hvzero, -⟩ := vendor_of_known hknown
  have ha := DimmBus.ConfigSpace.accepted?_headed hp.present
    (DimmBus.ConfigSpace.header_headed vendor device revision) ⟨hvabs, hvzero⟩ hknown
  have hmem : amdLocation ∈ Discovery.bus0 := by decide
  cases hf : Discovery.bus0.findSome? (p.config.accepted? isKnown) with
  | none =>
      rw [List.findSome?_eq_none_iff.mp hf _ hmem] at ha
      cases ha
  | some found =>
      obtain ⟨location, -, hl⟩ := List.exists_of_findSome?_eq_some hf
      obtain ⟨hk, space, hs, hall⟩ := DimmBus.ConfigSpace.of_accepted? hl
      obtain ⟨rfl, rfl⟩ | ⟨-, rfl⟩ := hp.placed location space hs
      · rw [hall _ _ _ (DimmBus.ConfigSpace.header_headed vendor device revision)]
      · rw [hall _ _ _ bridgeSpace_headed] at hk
        exact absurd rfl ((vendor_of_known hk).2.2 rfl)

/-! ## Taking the host into use -/

theorem portCount_sb800 (hsb : isSb800 vendor device revision = true) :
    portCount vendor device revision = 4 := by
  rw [portCount, hsb, Bool.not_true, if_neg Bool.false_ne_true]
  split <;> decide

/-- Where the multiplexer is set, and what else is there. -/
theorem Selector.Known.apart {s : Selector} (hs : s.Known) :
    Pm.fchEnable ≠ s.register ∧ Pm.fchEnable + 1 ≠ s.register ∧ Pm.sb800Enable + 1 ≠ s.register ∧
      Selector.choice ≠ s.register ∧ (Pm.sb800Enable = s.register → s.mask = 0x06) := by
  obtain rfl | rfl | rfl := hs <;> decide

/-- The enable bit and the base address are outside the field of the multiplexer. -/
theorem heeds_pmBase {ok : Bool × UInt16 → Stake → Prop}
    (hok : ∀ v' : Stake, v'.field = v.field → ok (true, piix4Base) v') :
    (pmBase ⟨location, vendor, device, revision⟩ .indexData).Heeds
      ((pmBlock vendor device revision).pact config) ok bad v := by
  obtain ⟨hlow, hhigh, hword, -, hmask⟩ := (pmBlock_known vendor device revision).apart
  unfold pmBase
  dsimp only
  cases hf : usesFchEnable vendor device revision with
  | true =>
      have hval : (hasAny 0x10 Pm.fchEnableBit, LittleEndian.word 0 0x0B) = (true, piix4Base) := by
        decide
      rw [if_pos rfl]
      refine .seq (PmAccess.heeds_read fun lo hlo _ => ?_)
      refine .seq (PmAccess.heeds_read fun hi hhi _ => ?_)
      rw [PmBlock.Shows, if_neg hlow, pmBlock_read_fch hf (by decide)] at hlo
      rw [PmBlock.Shows, if_neg hhigh, pmBlock_read_fch hf (by decide)] at hhi
      rw [hlo, hhi]
      exact hval ▸ hok _ rfl
  | false =>
      have hvalue : ∀ lo : UInt8, lo &&& ~~~0x06 = 0x01 &&& ~~~0x06 →
          (hasAny lo Pm.sb800EnableBit, LittleEndian.word lo 0x0B &&& Pm.sb800BaseMask) =
            (true, piix4Base) := forall_byte (by decide +kernel)
      rw [if_neg Bool.false_ne_true]
      refine .seq (PmAccess.heeds_read fun lo hlo _ => ?_)
      refine .seq (PmAccess.heeds_read fun hi hhi _ => ?_)
      have hlo' : lo &&& ~~~0x06 = 0x01 &&& ~~~0x06 := by
        have hread : (pmBlock vendor device revision).registers.read Pm.sb800Enable.toNat = 0x01 :=
          pmBlock_read_sb800 hf (by decide)
        rw [PmBlock.Shows, hread] at hlo
        split at hlo
        · rename_i heq
          rwa [hmask heq] at hlo
        · rw [hlo]
      rw [PmBlock.Shows, if_neg hword, pmBlock_read_sb800 hf (by decide)] at hhi
      rw [hhi]
      exact hvalue lo hlo' ▸ hok _ rfl

theorem heeds_findSelector {ok : Selector → Stake → Prop}
    (hok : ∀ v' : Stake, v'.field = v.field → ok (pmBlock vendor device revision).selector v') :
    (findSelector ⟨location, vendor, device, revision⟩ .indexData).Heeds
      ((pmBlock vendor device revision).pact config) ok bad v := by
  obtain ⟨-, -, -, hchoice, -⟩ := (pmBlock_known vendor device revision).apart
  rw [pmBlock_selector] at hok
  unfold findSelector
  dsimp only
  split
  · rename_i hv
    have hbit : hasAny 0 1 = false := by decide
    rw [if_pos hv] at hok
    refine .seq (PmAccess.heeds_read fun choice hc _ => ?_)
    rw [PmBlock.Shows, if_neg hchoice, pmBlock_read_choice] at hc
    rw [hc, hbit]
    exact hok _ rfl
  · rename_i hv
    rw [if_neg hv] at hok
    split
    · rename_i hk
      rw [if_pos hk] at hok
      exact hok v rfl
    · rename_i hk
      rw [if_neg hk] at hok
      exact hok v rfl

theorem heeds_findImc {identity : Pci.Identity} {ok : Bool → Stake → Prop}
    (hok : ∀ running, ok running v) :
    (findImc identity).Heeds (b.pact config) ok bad v := by
  unfold findImc
  split
  · refine .seq (heeds_identity ?_)
    cases config.identity? Imc.bridge with
    | none => exact hok false
    | some _ => exact .seq (heeds_readPci8 (hok _))
  · exact hok false

/-- A controller drives the host of the machine through the index and data addresses. -/
structure Drives (c : Piix4) (b : PmBlock) : Prop where
  transport : c.info.transport = .direct
  base : c.info.base = piix4Base
  sb800 : ∃ imc, c.sb800 = some ⟨.indexData, b.selector, imc⟩

theorem heeds_init {session : Config} {ok : Piix4 → Stake → Prop}
    (hp : Solo vendor device revision p) (hw : usesPmWindow vendor device revision = false)
    (hok : ∀ c (v' : Stake), c.Drives (pmBlock vendor device revision) → v'.field = v.field →
      ok c v')
    (hbad : 4 ≤ session.piix4Port → ∀ e, bad e v) :
    (init .direct ⟨⟨amdLocation, vendor, device, revision⟩, none⟩ session).Heeds
      ((pmBlock vendor device revision).pact config) ok bad v := by
  obtain ⟨part, hpart⟩ := Option.isSome_iff_exists.mp hp.known
  have hne : ¬piix4Base = 0 := by decide
  unfold init
  dsimp only
  rw [hpart, portCount_sb800 hp.sb800]
  dsimp only
  split
  · rename_i hle
    exact hbad hle _
  · unfold settle
    dsimp only
    rw [hp.sb800, if_pos rfl]
    refine .seq (.seq ?_)
    unfold resolveSb800
    dsimp only
    rw [hw, if_neg Bool.false_ne_true]
    refine .seq (heeds_pmBase fun v₁ h₁ => ?_)
    dsimp only
    rw [if_pos rfl]
    refine .seq (heeds_findSelector fun v₂ h₂ => .seq (heeds_findImc fun imc => ?_))
    refine Attempt.Heeds.pure (Attempt.Heeds.pure ?_)
    dsimp only
    rw [if_neg hne]
    exact hok _ v₂ ⟨rfl, rfl, imc, rfl⟩ (h₂.trans h₁)

end Piix4

/-! ## Bring-up -/

namespace Controller

variable {vendor device : UInt16} {revision : UInt8} {p : Platform} {session : Config}
  {Q : Option Controller → Stake → Prop}

theorem heeds_bringUp_ich {ok : Option Controller → Stake → Prop}
    (hp : Piix4.Solo vendor device revision p) (hok : ok none v) :
    (bringUp .ich .direct session).Heeds (b.pact p.config) ok bad v := by
  rw [bringUp, detect, Ich.detect]
  refine .seq (.seq (heeds_first ?_))
  rw [List.findSome?_eq_none_iff.mpr fun location _ => hp.noIch location]
  exact hok

theorem heeds_bringUp_piix4 {ok : Option Controller → Stake → Prop}
    (hp : Piix4.Solo vendor device revision p)
    (hw : Piix4.usesPmWindow vendor device revision = false)
    (hok : ∀ c (v' : Stake), c.Drives (pmBlock vendor device revision) → v'.field = v.field →
      ok (some (.piix4 c)) v')
    (hbad : 4 ≤ session.piix4Port → ∀ e, bad e v) :
    (bringUp .piix4 .direct session).Heeds ((pmBlock vendor device revision).pact p.config) ok bad
      v := by
  rw [bringUp, detect, Piix4.detect]
  refine .seq (.seq (heeds_first ?_))
  rw [hp.found]
  simp only [init, Option.map_some, map_eq_pure_bind]
  exact .seq (.seq (Piix4.heeds_init hp hw (fun c v' hc hv' => hok c v' hc hv') hbad))

theorem heeds_probeFamilies {P : Pact Stake} {family : Family} {rest : List Family}
    (h : (bringUp family .direct session).Heeds P
      (fun c? v => match c? with
        | some c => Q (some c) v
        | none => (probeFamilies .direct session rest).Heeds P Q v)
      (fun _ v => (probeFamilies .direct session rest).Heeds P Q v) v) :
    (probeFamilies .direct session (family :: rest)).Heeds P Q v := by
  rw [probeFamilies]
  refine Access.Heeds.bind h fun r v' hr => ?_
  rcases r with e | _ | c <;> exact hr

theorem heeds_probe (hp : Piix4.Solo vendor device revision p)
    (hw : Piix4.usesPmWindow vendor device revision = false)
    (hok : ∀ c (v' : Stake), c.Drives (pmBlock vendor device revision) → v'.field = v.field →
      Q (some (.piix4 c)) v')
    (hnone : 4 ≤ session.piix4Port → Q none v) :
    (probe .direct session).Heeds ((pmBlock vendor device revision).pact p.config) Q v := by
  refine heeds_probeFamilies (heeds_bringUp_ich hp ?_)
  refine heeds_probeFamilies (heeds_bringUp_piix4 hp hw hok fun hport _ => ?_)
  exact hnone hport

end Controller

namespace Session

variable {vendor device : UInt16} {revision : UInt8} {p : Platform} {config : Config}

/-- Bring-up leaves the block alone and finds the host, unless an output is asked for that the part
does not have. -/
theorem heeds_bringUp {Q : Option Session → Stake → Prop}
    (hp : Piix4.Solo vendor device revision p)
    (hw : Piix4.usesPmWindow vendor device revision = false)
    (hb : pmBlock vendor device revision = b)
    (hok : ∀ c (v' : Stake), c.Drives b → v'.field = v.field →
      Q (some ⟨⟨.piix4 c, config⟩, .empty⟩) v')
    (hnone : 4 ≤ config.piix4Port → Q none v) :
    (bringUp .direct config).Heeds (b.pact p.config) Q v := by
  subst hb
  unfold bringUp
  refine Access.Heeds.bind (Q := fun c? v' => Q (c?.map fun c => ⟨⟨c, config⟩, .empty⟩) v')
    (Controller.heeds_probe hp hw hok hnone) fun c? v' h => ?_
  cases c? <;> exact h

end Session

/-! ## Transactions -/

theorem Request.allowed (request : Request) (h : request.spares = true) :
    (b.pact config).may v request ∧ ∀ answer, (b.pact config).after v request answer = v :=
  ⟨.aside h, fun _ => Stake.next_spares h⟩

namespace Attempt

/-- Begun with this in the register of the multiplexer, the program leaves it there, whatever comes
of it. -/
def Restores (b : PmBlock) (config : ConfigSpace) (own : UInt8) (x : Attempt α) : Prop :=
  ∀ v : Stake, v.field = some own →
    x.Heeds (b.pact config) (fun _ v' => v'.field = some own) (fun _ v' => v'.field = some own) v

variable {β : Type} {own : UInt8}

theorem Only.restores {x : Attempt α} (hx : x.Only fun request => request.spares = true) :
    x.Restores b config own := fun _ hv =>
  (Only.heeds hx Request.allowed).mono (fun _ _ h => h ▸ hv) fun _ _ h => h ▸ hv

theorem Restores.bind {x : Attempt β} {f : β → Attempt α} (hx : x.Restores b config own)
    (hf : ∀ a, (f a).Restores b config own) : (x >>= f).Restores b config own := fun v hv =>
  (hx v hv).bind fun a => hf a

theorem Restores.outcome {x : Attempt α} (hx : x.Restores b config own) :
    x.outcome.Restores b config own := fun v hv => (hx v hv).outcome

theorem Restores.ofExcept (r : Except Error α) : (Attempt.ofExcept r).Restores b config own :=
  fun _ hv => .ofExcept hv

end Attempt

namespace Piix4

variable {c : Piix4} {own : UInt8}

/-- Setting the field leaves all else in its register. -/
theorem Selector.set_and (s : Selector) (value output : UInt8) :
    s.set value output &&& ~~~s.mask = value &&& ~~~s.mask := by
  unfold Selector.set
  generalize output <<< s.shift = shifted
  apply UInt8.toBitVec_inj.mp
  ext i hi
  simp only [UInt8.toBitVec_and, UInt8.toBitVec_or, UInt8.toBitVec_not, BitVec.getElem_and,
    BitVec.getElem_or, BitVec.getElem_not]
  cases value.toBitVec[i] <;> cases s.mask.toBitVec[i] <;> simp

theorem spares_touches {request : Request}
    (h : request.Touches piix4Base ownReads ownWrites true) : request.spares = true := by
  have hwrites : ownWrites.all (fun offset =>
      piix4Base + offset ≠ Pm.index ∧ piix4Base + offset ≠ Pm.data) = true := by decide
  cases h with
  | read => rfl
  | @write offset h value => exact List.all_eq_true.mp hwrites offset h
  | sleep => rfl

theorem spares_mail {request : Request} (h : request.Mail true) : request.spares = true := by
  have hwrites : [Imc.index, Imc.data].all (fun address =>
      address ≠ Pm.index ∧ address ≠ Pm.data) = true := by decide
  cases h with
  | read => rfl
  | @write address h value => exact List.all_eq_true.mp hwrites address h
  | sleep => rfl

/-- The field is put back, whatever comes of the program inside. -/
theorem restores_withPort {body : Attempt α} {imc : Bool}
    (hown : own = b.registers.read b.selector.register.toNat)
    (hbody : body.Only fun request => request.spares = true) :
    (c.withPort ⟨.indexData, b.selector, imc⟩ body).Restores b config own := by
  intro v hv
  have hset : ∀ output, b.Shows b.selector.register (b.selector.set own output) := fun output => by
    rw [PmBlock.Shows, if_pos rfl, Selector.set_and, hown]
  have hback : b.Shows b.selector.register own := by
    rw [PmBlock.Shows, if_pos rfl, hown]
  rw [withPort]
  refine .seq (PmAccess.heeds_read fun saved _ hsaved => ?_)
  obtain rfl := hsaved own hv rfl
  dsimp only
  split
  · exact hbody.restores _ hv
  · have hsome : v.field.isSome = true := by rw [hv]; rfl
    refine .seq (PmAccess.heeds_write (hset _) hsome ?_)
    refine .bind (hbody.restores _ rfl).outcome fun r v₂ hv₂ => ?_
    have hsome₂ : v₂.field.isSome = true := by rw [hv₂]; rfl
    have hrestore : (PmAccess.indexData.write b.selector.register saved).Heeds (b.pact config)
        (fun _ v₃ => v₃.field = some saved) (fun _ v₃ => v₃.field = some saved) v₂ :=
      PmAccess.heeds_write hback hsome₂ rfl
    exact .bind hrestore.quietly fun _ v₃ hv₃ => .ofExcept hv₃

theorem restores_transfer (hc : c.Drives b)
    (hown : own = b.registers.read b.selector.register.toNat) (tx : Transaction) :
    (c.transfer tx).Restores b config own := by
  obtain ⟨imc, hs⟩ := hc.sb800
  have hhost : ∀ request : Request, request.Touches c.info.base ownReads ownWrites true →
      request.spares = true := fun request h => spares_touches (hc.base ▸ h)
  have himc : ∀ command, Attempt.Restores b config own (ExceptT.lift (imcCommand command)) :=
    fun command =>
      (Attempt.Only.lift ((only_imcCommand command).mono fun _ => spares_mail)).restores
  have hback : ∀ r, (c.giveBack r).Restores b config own := fun r =>
    .bind (((Attempt.Only.lift c.only_release).touches rfl rfl rfl).mono hhost).restores fun _ =>
      .ofExcept r
  have hrest : ∀ asleep : Bool, (c.underSemaphore ⟨.indexData, b.selector, imc⟩ tx asleep).Restores
      b config own := fun asleep => by
    refine .bind (restores_withPort hown ((c.only_transact tx).mono hhost)).outcome fun r => ?_
    cases asleep with
    | true => exact .bind (himc _) fun _ => hback r
    | false => exact hback r
  unfold transfer
  rw [hc.transport, hs]
  dsimp only
  rw [transferSb800_eq]
  refine .bind ((c.only_acquire.touches rfl rfl rfl).mono hhost).restores fun _ => ?_
  cases imc with
  | true => exact .bind (himc _) hrest
  | false => exact hrest false

end Piix4

end DimmBus
