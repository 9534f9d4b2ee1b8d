import DimmBus.Proofs.CleanCompletion
import DimmBus.Proofs.Footprint
import DimmBus.Proofs.Requests

/-!
# Staying within the own registers

Where the registers of a controller lie, and that it accesses nothing else, whatever it is answered.
-/

namespace DimmBus

open Access Attempt
open Request (Touches Mail)

/-! ## Registers -/

namespace Request

/-- An access to one of the sixteen registers of the host at a base address, or a pause. -/
def Host (base : UInt16) : Request → Prop
  | .readIo8 address | .writeIo8 address _ =>
    base.toNat ≤ address.toNat ∧ address.toNat < base.toNat + 16
  | .sleep _ => True
  | _ => False

def InWindow (physical : UInt64) : Prop :=
  0xFED80300 ≤ physical.toNat ∧ physical.toNat < 0xFED80308

instance (physical : UInt64) : Decidable (InWindow physical) := by
  unfold InWindow
  infer_instance

/-- An access to the power-management block, in the way that it is reached. -/
def Power (pm : Piix4.PmAccess) : Request → Prop
  | .readIo8 address | .writeIo8 address _ =>
    pm = .indexData ∧ (address = Piix4.Pm.index ∨ address = Piix4.Pm.data)
  | .readMmio32 physical => pm = .window ∧ InWindow physical ∧ physical.toNat % 4 = 0
  | .writeMmio8 physical _ => pm = .window ∧ InWindow physical
  | _ => False

def Configures : Request → Prop
  | .readPci8 .. | .readPci16 .. | .readPci32 .. | .writePci8 .. | .writePci16 ..
  | .writePci32 .. => True
  | _ => False

end Request

open Request (Power Configures InWindow)

namespace ControllerInfo

/-- Whether it is a part that is set up by a power-management block. -/
def isSb800 (i : ControllerInfo) : Bool :=
  i.family = .piix4 && Piix4.isSb800 i.identity.vendor i.identity.device i.identity.revision

def pm (i : ControllerInfo) : Piix4.PmAccess :=
  if i.traits.memoryMappedBase then .window else .indexData

/-- What a controller may access while it runs transactions. -/
inductive Owns (i : ControllerInfo) (request : Request) : Prop
  | host (h : request.Host i.base)
  | power (hclass : i.isSb800 = true) (h : request.Power i.pm)
  | mailbox (hclass : i.isSb800 = true) (himc : i.traits.notifiesImc = true) (h : request.Mail true)

end ControllerInfo

theorem Request.Touches.host {base : UInt16} {reads writes : List UInt16} {request : Request}
    (h : request.Touches base reads writes true) (hbase : base.toNat % 16 = 0)
    (hr : reads.all (·.toNat < 16) = true) (hw : writes.all (·.toNat < 16) = true) :
    request.Host base := by
  simp only [List.all_eq_true, decide_eq_true_eq] at hr hw
  have hlt := base.toNat_lt
  -- A base address that is a multiple of sixteen leaves room for all sixteen registers.
  have hin : ∀ offset : UInt16, offset.toNat < 16 → base.toNat ≤ (base + offset).toNat ∧
      (base + offset).toNat < base.toNat + 16 := by
    intro offset ho
    rw [UInt16.toNat_add]
    omega
  cases h with
  | read h => exact hin _ (hr _ h)
  | write h value => exact hin _ (hw _ h)
  | sleep => trivial

namespace Piix4

/-- How the block is reached that a part is set up by. -/
def pmOf (identity : Pci.Identity) : PmAccess :=
  if usesPmWindow identity.vendor identity.device identity.revision then .window else .indexData

namespace PmAccess

variable {pm : PmAccess} {index : UInt8}

theorem power_read (h : pm = .window → index < 8) : (pm.read index).Only (Power pm) := by
  cases pm with
  | indexData =>
      exact .bind (only_writeIo8 ⟨rfl, .inl rfl⟩) fun _ => only_readIo8 ⟨rfl, .inr rfl⟩
  | window =>
      have hword : ∀ index : UInt8, index < 8 →
          InWindow (Pm.window + (index &&& ~~~3).toUInt64) ∧
            (Pm.window + (index &&& ~~~3).toUInt64).toNat % 4 = 0 :=
        forall_byte (by decide +kernel)
      exact .bind (only_readMmio32 ⟨rfl, hword index (h rfl)⟩) fun _ => .pure _

theorem power_write (h : pm = .window → index < 8) (value : UInt8) :
    (pm.write index value).Only (Power pm) := by
  cases pm with
  | indexData =>
      exact .bind (only_writeIo8 ⟨rfl, .inl rfl⟩) fun _ => only_writeIo8 ⟨rfl, .inr rfl⟩
  | window =>
      have hbyte : ∀ index : UInt8, index < 8 → InWindow (Pm.window + index.toUInt64) :=
        forall_byte (by decide +kernel)
      exact only_writeMmio8 ⟨rfl, hbyte index (h rfl)⟩

end PmAccess

/-! ## Bring-up -/

/-- Parts behind the window have all the registers that are used in front. -/
theorem window_parts {vendor device : UInt16} {revision : UInt8}
    (h : usesPmWindow vendor device revision = true) :
    isSb800 vendor device revision = true ∧ usesFchEnable vendor device revision = true ∧
      vendor ≠ Pci.Vendor.ati ∧ usesKernczSelector vendor device revision = true := by
  have hati : Pci.Vendor.amd ≠ Pci.Vendor.ati ∧ Pci.Vendor.hygon ≠ Pci.Vendor.ati := by decide
  have hrevision : (0x51 : UInt8) ≤ revision → (0x49 : UInt8) ≤ revision :=
    UInt8.le_trans (by decide)
  simp only [usesPmWindow, decide_eq_true_eq] at h
  obtain ⟨hv, rfl, hr⟩ := h
  obtain rfl | rfl := hv
  · simp [isSb800, usesFchEnable, usesKernczSelector, hati, hrevision hr]
  · simp [isSb800, usesFchEnable, usesKernczSelector, hati]

end Piix4

/-- What bring-up of a part may access: configuration space, and the power-management block if the
part is set up by it. -/
def Request.Surveys (identity : Pci.Identity) (request : Request) : Prop :=
  request.Configures ∨ Piix4.isSb800 identity.vendor identity.device identity.revision = true ∧
    request.Power (Piix4.pmOf identity)

open Request (Surveys)

namespace Discovery

theorem configures_identity (location : Pci.Address) : (identity location).Only Configures := by
  unfold identity
  refine .bind (only_readPci32 trivial) fun dword => ?_
  exact .ite (.pure _) (.bind (only_readPci8 trivial) fun _ => .pure _)

theorem configures_enableIoSpace (location : Pci.Address) :
    (enableIoSpace location).Only Configures := by
  unfold enableIoSpace
  refine .bind (only_readPci16 trivial) fun command => ?_
  exact .ite (only_writePci16 trivial) (.pure _)

end Discovery

namespace Ich

theorem configures_init (found : Detected) (config : Config) :
    (init .direct found config).Only Configures := by
  have hresolve : ∀ part location, (resolve part location).Only Configures := by
    intro part location
    unfold resolve
    refine .bind (only_readPci32 trivial) fun bar => .ite (.throw _) ?_
    refine (Discovery.configures_enableIoSpace location).bind fun _ => ?_
    refine .bind (only_readPci8 trivial) fun before => ?_
    exact .ite (.bind (only_writePci8 trivial) fun _ => .pure _) (.pure _)
  unfold init
  split
  · exact .throw _
  · exact (hresolve _ _).bind fun _ => .pure _

theorem based_init (found : Detected) (config : Config) :
    (init .direct found config).Yields fun c => c.info.family = .ich ∧ c.info.base ≠ 0 ∧
      c.info.traits.memoryMappedBase = false := by
  have hresolve : ∀ part location, (resolve part location).Yields fun r => r.1 ≠ 0 := by
    intro part location
    unfold resolve
    refine .after fun bar => ?_
    dsimp only
    split
    · exact .throw _
    · rename_i hbase
      refine .after fun _ => .after fun before => ?_
      exact .ite (.after fun _ => .pure hbase) (.pure hbase)
  unfold init
  split
  · exact .throw _
  · exact (hresolve _ _).bind fun r hr => .pure ⟨rfl, hr, rfl⟩

end Ich

namespace Piix4

section

variable (identity : Pci.Identity) {pm : PmAccess}

theorem configures_resolveLegacy : (resolveLegacy identity).Only Configures := by
  unfold resolveLegacy
  refine .bind (only_readPci16 trivial) fun register => .ite (.pure _) ?_
  refine .bind (only_readPci8 trivial) fun hostConfig => ?_
  exact .ite ((Discovery.configures_enableIoSpace _).bind fun _ => .pure _) (.throw _)

theorem configures_findImc : (findImc identity).Only Configures := by
  unfold findImc
  refine .ite ((Discovery.configures_identity _).bind fun found => ?_) (.pure _)
  cases found with
  | some found => exact .bind (only_readPci8 trivial) fun _ => .pure _
  | none => exact .pure _

theorem power_pmBase (h : pm = .window → usesFchEnable identity.vendor identity.device
    identity.revision = true) : (pmBase identity pm).Only (Power pm) := by
  unfold pmBase
  split
  · exact (PmAccess.power_read fun _ => by decide).bind fun lo =>
      (PmAccess.power_read fun _ => by decide).bind fun hi => .pure _
  · rename_i hfch
    have hpm : pm ≠ .window := fun hw => hfch (h hw)
    exact (PmAccess.power_read fun hw => absurd hw hpm).bind fun lo =>
      (PmAccess.power_read fun hw => absurd hw hpm).bind fun hi => .pure _

theorem power_findSelector (h : pm = .window → identity.vendor ≠ Pci.Vendor.ati) :
    (findSelector identity pm).Only (Power pm) := by
  unfold findSelector
  split
  · rename_i hati
    exact (PmAccess.power_read fun hw => absurd hati (h hw)).bind fun choice => .pure _
  · exact .ite (.pure _) (.pure _)

theorem pmOf_window (h : pmOf identity = .window) :
    usesPmWindow identity.vendor identity.device identity.revision = true := by
  unfold pmOf at h
  split at h
  · assumption
  · cases h

theorem surveys_resolveSb800
    (hclass : isSb800 identity.vendor identity.device identity.revision = true) :
    (resolveSb800 identity).Only (Surveys identity) := by
  have hpower : ∀ {α : Type} {x : Attempt α}, x.Only (Power (pmOf identity)) →
      x.Only (Surveys identity) := fun hx => hx.mono fun _ h => .inr ⟨hclass, h⟩
  have hparts := fun h => window_parts (pmOf_window identity h)
  unfold resolveSb800
  refine (hpower (power_pmBase identity fun h => (hparts h).2.1)).bind fun ⟨enabled, base⟩ => ?_
  cases enabled with
  | true =>
      refine (hpower (power_findSelector identity fun h => (hparts h).2.2.1)).bind fun _ => ?_
      exact ((configures_findImc identity).mono fun _ h => .inl h).bind fun _ => .pure _
  | false => exact .throw _

theorem surveys_init (found : Detected) (config : Config) :
    (init .direct found config).Only (Surveys found.identity) := by
  have hsettle : (settle found .direct).Only (Surveys found.identity) := by
    unfold settle
    dsimp only
    split
    · rename_i hclass
      exact (surveys_resolveSb800 _ hclass).bind fun _ => .pure _
    · exact ((configures_resolveLegacy _).mono fun _ h => .inl h).bind fun _ => .pure _
  unfold init
  dsimp only
  split
  · exact .throw _
  · refine .ite (.throw _) (hsettle.bind fun r => ?_)
    exact .ite (.throw _) (.pure _)

end

/-- What is found out about a part fits it, and the register of the multiplexer is in reach. -/
structure Sb800.Suits (identity : Pci.Identity) (s : Sb800) : Prop where
  sb800 : isSb800 identity.vendor identity.device identity.revision = true
  pm : s.pm = pmOf identity
  selector : s.pm = .window → s.selector.register < 8

theorem suits_resolveSb800 (identity : Pci.Identity)
    (hclass : isSb800 identity.vendor identity.device identity.revision = true) :
    (resolveSb800 identity).Yields fun r => r.2.Suits identity := by
  have hselector : (findSelector identity (pmOf identity)).Yields fun selector =>
      pmOf identity = .window → selector.register < 8 := by
    unfold findSelector
    split
    · rename_i hati
      exact .after fun choice => .pure fun h =>
        absurd hati (window_parts (pmOf_window identity h)).2.2.1
    · split
      · exact .pure fun _ => by decide
      · rename_i hkerncz
        exact .pure fun h => absurd (window_parts (pmOf_window identity h)).2.2.2 hkerncz
  unfold resolveSb800
  refine .after fun ⟨enabled, base⟩ => ?_
  cases enabled with
  | true => exact hselector.bind fun selector hs => .after fun _ => .pure ⟨hclass, rfl, hs⟩
  | false => exact .throw _

/-- A host that was taken into use, and how it is told where its registers are. -/
structure Mapped (identity : Pci.Identity) (c : Piix4) : Prop where
  family : c.info.family = .piix4
  same : c.info.identity = identity
  base : c.info.base ≠ 0
  window : c.info.traits.memoryMappedBase = c.sb800.any fun s => s.pm = .window
  imc : c.info.traits.notifiesImc = c.sb800.any fun s => s.notifyImc
  suits : ∀ s, c.sb800 = some s → s.Suits identity
  other : c.sb800 = none → isSb800 identity.vendor identity.device identity.revision = false

theorem mapped_init (found : Detected) (config : Config) :
    (init .direct found config).Yields (Mapped found.identity) := by
  have hsettle : (settle found .direct).Yields fun r =>
      (∀ s, r.2 = some s → s.Suits found.identity) ∧
      (r.2 = none → isSb800 found.identity.vendor found.identity.device
        found.identity.revision = false) := by
    unfold settle
    dsimp only
    split
    · rename_i hclass
      refine (suits_resolveSb800 _ hclass).bind fun r hr => .pure ⟨fun s hs => ?_, nofun⟩
      exact Option.some.inj hs ▸ hr
    · rename_i hclass
      exact .after fun _ => .pure ⟨nofun, fun _ => Bool.eq_false_iff.mpr hclass⟩
  unfold init
  dsimp only
  split
  · exact .throw _
  · refine .ite (.throw _) (hsettle.bind fun r hr => ?_)
    split
    · exact .throw _
    · rename_i hbase
      exact .pure ⟨rfl, rfl, hbase, rfl, rfl, hr.1, hr.2⟩

namespace Mapped

variable {identity : Pci.Identity} {c : Piix4} (h : c.Mapped identity)

include h

theorem sb800 : c.info.isSb800 = c.sb800.isSome := by
  rw [ControllerInfo.isSb800, h.family, h.same]
  cases hs : c.sb800 with
  | none => exact h.other hs
  | some s => exact (h.suits s hs).sb800

theorem pm {s : Sb800} (hs : c.sb800 = some s) : c.info.pm = s.pm := by
  rw [ControllerInfo.pm, h.window, hs]
  cases hpm : s.pm with
  | window => simp [hpm]
  | indexData => simp [hpm]

theorem memoryMapped : c.info.traits.memoryMappedBase =
    usesPmWindow identity.vendor identity.device identity.revision := by
  rw [h.window]
  cases hs : c.sb800 with
  | none =>
      have hclass := h.other hs
      cases hw : usesPmWindow identity.vendor identity.device identity.revision with
      | false => rfl
      | true =>
          rw [(window_parts hw).1] at hclass
          cases hclass
  | some s =>
      rw [Option.any_some, (h.suits s hs).pm, pmOf]
      split
      · rename_i hw
        rw [hw]
        rfl
      · rename_i hw
        rw [Bool.eq_false_iff.mpr hw]
        rfl

theorem owns_transfer (hseated : (Controller.piix4 c).Seated) (tx : Transaction) :
    (c.transfer tx).Only c.info.Owns := by
  obtain ⟨htransport, hbase, -⟩ := hseated
  have hhost : ∀ request, Touches c.info.base ownReads ownWrites true request →
      c.info.Owns request := fun _ ht => .host (ht.host hbase (by decide) (by decide))
  unfold transfer
  rw [htransport]
  cases hs : c.sb800 with
  | none => exact (c.only_transact tx).mono hhost
  | some s =>
      -- The selector of the multiplexer is a register of the block, which bring-up has found out.
      have hclass : c.info.isSb800 = true := by rw [h.sb800, hs, Option.isSome_some]
      have hpower : ∀ {α : Type} {x : Attempt α}, x.Only (Power s.pm) → x.Only c.info.Owns :=
        fun hx => hx.mono fun _ hr => .power hclass (by rwa [h.pm hs])
      have hregister := (h.suits s hs).selector
      refine c.only_bracketed s tx hhost (hpower (PmAccess.power_read hregister))
        (fun value => hpower (PmAccess.power_write hregister value)) fun himc _ hr => ?_
      exact .mailbox hclass (by rw [h.imc, hs, Option.any_some, himc]) hr

end Mapped

end Piix4

/-! ## All controllers -/

namespace Controller

variable {family : Family} {found : Detected} {config : Config} {c : Controller}

theorem surveys_init (family : Family) (found : Detected) (config : Config) :
    (init family .direct found config).Only fun request =>
      request.Configures ∨ family = .piix4 ∧ request.Surveys found.identity := by
  cases family with
  | ich =>
      change (Controller.ich <$> Ich.init .direct found config).Only _
      rw [map_eq_pure_bind]
      exact ((Ich.configures_init found config).mono fun _ h => .inl h).bind fun _ => .pure _
  | piix4 =>
      change (Controller.piix4 <$> Piix4.init .direct found config).Only _
      rw [map_eq_pure_bind]
      exact ((Piix4.surveys_init found config).mono fun _ h => .inr ⟨rfl, h⟩).bind fun _ => .pure _

def Mapped (identity : Pci.Identity) : Controller → Prop
  | .ich c => c.info.family = .ich ∧ c.info.base ≠ 0 ∧ c.info.traits.memoryMappedBase = false
  | .piix4 c => c.Mapped identity

theorem mapped_init (family : Family) (found : Detected) (config : Config) :
    (init family .direct found config).Yields fun c =>
      c.info.family = family ∧ c.Mapped found.identity := by
  cases family with
  | ich =>
      change (Controller.ich <$> Ich.init .direct found config).Yields _
      rw [map_eq_pure_bind]
      exact (Ich.based_init found config).bind fun c hc => .pure ⟨hc.1, hc⟩
  | piix4 =>
      change (Controller.piix4 <$> Piix4.init .direct found config).Yields _
      rw [map_eq_pure_bind]
      exact (Piix4.mapped_init found config).bind fun c hc => .pure ⟨hc.family, hc⟩

theorem owns_transfer {identity : Pci.Identity} (hm : c.Mapped identity) (hs : c.Seated)
    (tx : Transaction) : (c.transfer tx).Only c.info.Owns := by
  cases c with
  | ich c =>
      obtain ⟨htransport, hbase⟩ := hs
      have hbase : c.info.base.toNat % 16 = 0 := by omega
      change (c.transfer tx).Only c.info.Owns
      rw [Ich.transfer, htransport]
      exact (c.only_transferDirect tx).mono fun _ ht =>
        .host (ht.host hbase (by decide) (by decide))
  | piix4 c => exact hm.owns_transfer hs tx

theorem Mapped.base {identity : Pci.Identity} (hm : c.Mapped identity) : c.info.base ≠ 0 := by
  cases c with
  | ich c => exact hm.2.1
  | piix4 c => exact Piix4.Mapped.base hm

theorem Mapped.window {identity : Pci.Identity} (hm : c.Mapped identity) :
    c.info.traits.memoryMappedBase = true ↔ c.info.family = .piix4 ∧
      Piix4.usesPmWindow identity.vendor identity.device identity.revision = true := by
  cases c with
  | ich c =>
      obtain ⟨hfamily, -, hwindow⟩ := hm
      have hfamily : (Controller.ich c).info.family ≠ .piix4 := by
        rw [show (Controller.ich c).info.family = .ich from hfamily]
        decide
      constructor
      · intro h
        exact absurd (hwindow.symm.trans h) (by decide)
      · intro h
        exact absurd h.1 hfamily
  | piix4 c =>
      have hwindow := Piix4.Mapped.memoryMapped hm
      constructor
      · intro h
        exact ⟨Piix4.Mapped.family hm, hwindow.symm.trans h⟩
      · intro h
        exact hwindow.trans h.2

/-- What bring-up of the part accesses besides configuration space belongs to the controller. -/
theorem Mapped.surveys {identity : Pci.Identity} {request : Request} (hm : c.Mapped identity)
    (hf : c.info.family = .piix4) (h : request.Surveys identity) :
    request.Configures ∨ c.info.isSb800 = true ∧ request.Power c.info.pm := by
  refine h.imp id fun ⟨hclass, hpower⟩ => ?_
  cases c with
  | ich c => exact absurd (hm.1.symm.trans hf) (by decide)
  | piix4 c =>
      have hsame : c.info.identity = identity := Piix4.Mapped.same hm
      have hpm : c.info.pm = Piix4.pmOf identity := by
        rw [ControllerInfo.pm, Piix4.Mapped.memoryMapped hm]
        rfl
      refine ⟨?_, by rwa [show (Controller.piix4 c).info.pm = _ from hpm]⟩
      change c.info.isSb800 = true
      rw [ControllerInfo.isSb800, Piix4.Mapped.family hm, hsame, hclass]
      rfl

theorem seated_base {identity : Pci.Identity} (hm : c.Mapped identity) (hs : c.Seated) :
    c.info.base.toNat % 16 = 0 ∧
      (c.info.family = .ich ∨ c.info.isSb800 = true → c.info.base.toNat % 32 = 0) := by
  cases c with
  | ich c =>
      have hbase : c.info.base.toNat % 32 = 0 := hs.2
      exact ⟨show c.info.base.toNat % 16 = 0 by omega, fun _ => hbase⟩
  | piix4 c =>
      obtain ⟨-, hbase, hwide⟩ := hs
      refine ⟨hbase, fun h => hwide ?_⟩
      obtain hf | hclass := h
      · exact absurd ((Piix4.Mapped.family hm).symm.trans hf) (by decide)
      · rwa [← Piix4.Mapped.sb800 hm]

end Controller

/-- Whatever a port answers, a controller that was taken into use on it has sixteen registers within
the address space; transactions access these, on parts that are set up by a power-management block
also that block, and the mailbox of a micro-controller that shares the bus. Neither they nor the
bring-up reach the block of a memory-mapped part but in its window. -/
theorem stays_within_own_registers {family : Family} {found : Detected} {config : Config}
    {c : Controller} {port₀ : Port} {past₀ : List Call}
    (hc : ((Controller.init family .direct found config).run.run port₀.answer past₀).1 = .ok c) :
    c.info.base ≠ 0 ∧ c.info.base.toNat % 16 = 0 ∧ c.info.base.toNat + 16 ≤ 65536 ∧
    (c.info.family = .ich ∨ c.info.isSb800 = true → c.info.base.toNat % 32 = 0) ∧
    (c.info.traits.memoryMappedBase = true ↔ c.info.family = .piix4 ∧ Piix4.usesPmWindow
      found.identity.vendor found.identity.device found.identity.revision = true) ∧
    (∃ calls,
      ((Controller.init family .direct found config).run.run port₀.answer past₀).2 =
        past₀ ++ calls ∧ ∀ call ∈ calls, call.request.Configures ∨
          c.info.isSb800 = true ∧ call.request.Power c.info.pm) ∧
    ∀ (port : Port) (past : List Call) (tx : Transaction), ∃ calls,
      ((c.transfer tx).run.run port.answer past).2 = past ++ calls ∧
        ∀ call ∈ calls, c.info.Owns call.request := by
  have hseated := (Controller.yields_init family found config).run port₀.answer past₀ c hc
  obtain ⟨hfamily, hmapped⟩ :=
    (Controller.mapped_init family found config).run port₀.answer past₀ c hc
  obtain ⟨hbase, hwide⟩ := Controller.seated_base hmapped hseated
  have hlt := c.info.base.toNat_lt
  refine ⟨hmapped.base, hbase, by omega, hwide, hmapped.window, ?_, fun port past tx => ?_⟩
  · obtain ⟨calls, hrun, hok⟩ :=
      Access.Only.calls (Controller.surveys_init family found config) port₀ past₀
    refine ⟨calls, hrun, fun call hcall => ?_⟩
    obtain h | ⟨rfl, h⟩ := hok call hcall
    · exact .inl h
    · exact hmapped.surveys hfamily h
  · exact Access.Only.calls (Controller.owns_transfer hmapped hseated tx) port past

/-- A memory-mapped part whose bus is shared by a micro-controller. -/
def Port.mapped : Port := fun _ request =>
  match request with
  | .readMmio32 _ => .ok 0x0B10
  | .readPci32 .. => .ok 0x790E1022
  | .readPci8 .. => .ok 0x80
  | .readIo8 _ | .readPci16 .. => .ok 0
  | .sleep _ => ()
  | .delegate .. => .ok []
  | .writeIo8 .. | .writePci8 .. | .writePci16 .. | .writePci32 .. | .writeMmio8 .. | .lock _
  | .unlock => .ok ()

theorem stays_within_own_registers_mapped : ∃ c,
    ((Controller.init .piix4 .direct ⟨⟨Piix4.amdLocation, Pci.Vendor.amd, 0x790B, 0x51⟩, none⟩
      {}).run.run Port.mapped.answer []).1 = .ok c ∧
    c.info.base = 0x0B00 ∧ c.info.traits.memoryMappedBase = true ∧
    c.info.traits.notifiesImc = true ∧
    ∃ calls, ((c.transfer (.readByteData 0x50 2)).run.run Port.mapped.answer []).2 = [] ++ calls ∧
      ∀ call ∈ calls, c.info.Owns call.request := by
  obtain ⟨c, hc, hbase, hwindow, himc⟩ : ∃ c,
      ((Controller.init .piix4 .direct ⟨⟨Piix4.amdLocation, Pci.Vendor.amd, 0x790B, 0x51⟩, none⟩
        {}).run.run Port.mapped.answer []).1 = .ok c ∧
      c.info.base = 0x0B00 ∧ c.info.traits.memoryMappedBase = true ∧
      c.info.traits.notifiesImc = true := ⟨_, rfl, rfl, rfl, rfl⟩
  obtain ⟨-, -, -, -, -, -, hcalls⟩ := stays_within_own_registers hc
  exact ⟨c, hc, hbase, hwindow, himc, hcalls Port.mapped [] (.readByteData 0x50 2)⟩

end DimmBus
