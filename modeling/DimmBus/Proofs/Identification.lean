import DimmBus.Proofs.Awareness
import DimmBus.Proofs.SlotTable

/-!
# Finding the modules

A probe tells what is in a slot, whatever else is on the bus, whatever pages are shown, and whatever
was done before.
-/

namespace DimmBus

open Session

namespace Segment

/-- What there is to remember of a slot as long as nothing is known of a sensor. -/
def module? (g : Segment) (slot : UInt8) : Option Module := do
  let generation ← g.generation? (Spd.eepromAddress slot)
  let memoryType ← g.code? slot
  return ⟨generation, memoryType, none⟩

variable {g : Segment} {slot code : UInt8} {kind : Generation}

theorem module?_of_absent (h : g.generation? (Spd.eepromAddress slot) = none) :
    g.module? slot = none := by
  rw [module?, h]
  rfl

theorem module?_of_found (h : g.generation? (Spd.eepromAddress slot) = some kind)
    (hc : g.code? slot = some code) : g.module? slot = some ⟨kind, code, none⟩ := by
  rw [module?, h, hc]
  rfl

end Segment

/-- A look at a slot. -/
def Bench.probe (w : Bench) (slot : UInt8) : Option Generation × Bench :=
  w.perform (Session.probe · slot)

/-- Whatever is answered, a probe changes nothing that is remembered of other slots. -/
theorem Session.lands_probe_others (link : Link) (slot : UInt8) (m : Memory) (p : Platform) :
    Lands (probe link slot) m p fun _ m' _ =>
      ∀ other, other ≠ slot → m'.module? other = m.module? other := by
  have hstable : Memory.Stable slot fun m' =>
      ∀ other, other ≠ slot → m'.module? other = m.module? other := by
    refine ⟨fun h => h, fun _ h => h, fun _ _ _ h other hne => ?_⟩
    rw [Memory.module?_setModule, if_neg fun hs => hne hs.1.symm]
    exact h other hne
  have hyields := (@scripted_probe link slot _ hstable).yields fun _ _ => rfl
  exact (hyields.run Platform.answer p).1

namespace Binding

variable {b : Binding} {g₀ : Segment} {faults : List Fault} {m : Memory} {p : Platform}
  {slot : UInt8}

/-- What an unhindered probe of an unknown slot comes to. -/
theorem lands_probe_unhindered (hg : g₀.Recognisable) (hi : b.Informed g₀ faults false m p)
    (hcalm : b.Calm faults) (hslot : slot.toNat < Spd.slotCount) (hn : m.module? slot = none) :
    Lands (probe b.link slot) m p fun found? m' p' =>
      found? = g₀.generation? (Spd.eepromAddress slot) ∧ m'.module? slot = g₀.module? slot ∧
        m'.Trusts p'.segment := by
  refine lands_probe_unknown hg hi hslot hn (fun _ _ _ hn => absurd ⟨hcalm, rfl⟩ hn)
    fun found? m' p' hi' htells => ?_
  cases found? with
  | none =>
      have habsent := htells.none hcalm.reaches rfl
      refine ⟨habsent.symm, ?_, hi'.trusts⟩
      rw [Segment.module?_of_absent habsent]
      refine Option.eq_none_iff_forall_ne_some.mpr fun found hf => ?_
      have hkind := hi'.knows.modules slot found hf
      rw [habsent] at hkind
      cases hkind
  | some found =>
      obtain ⟨kind, code⟩ := found
      obtain ⟨hkind, hcode⟩ := htells.found kind code rfl
      refine ⟨hkind.symm, ?_, hi'.trusts⟩
      rw [Segment.module?_of_found hkind hcode]
      exact Memory.module?_setModule_self hslot _

end Binding

/-- Slots hold any mix of modules that can be recognised by their first page, on a machine that is
assembled otherwise. After any history, as soon as no fault is left, a probe of a slot where nothing
is known yet names what is there, remembers it with its memory type, leaves the other slots as they
are, and relies on no page that is not shown. -/
theorem probe_identifies {p : Platform} (ha : p.Assembled) {segment : Segment}
    (hs : segment.Recognisable) (hpage : segment.page ≤ 1) {config : Config} {w : Bench}
    (hw : w.StartedOn { p with segment } config) (hport : config.piix4Port = 0)
    (hpoll : (config.poll w.session.link.controller.family).retries ≠ 0) (moves : List Move)
    (hclear : (w.after moves).machine.faults = []) {slot : UInt8}
    (hslot : slot.toNat < Spd.slotCount) (hnew : (w.after moves).session.module? slot = none) :
    let v := w.after moves
    (v.probe slot).1 = segment.generation? (Spd.eepromAddress slot) ∧
    (v.probe slot).2.session.module? slot = segment.module? slot ∧
    (∀ other, other ≠ slot →
      (v.probe slot).2.session.module? other = v.session.module? other) ∧
    (v.probe slot).2.session.memory.Trusts (v.probe slot).2.machine.segment := by
  obtain ⟨b, haware, hheld, hattends⟩ := Binding.exists_attending ha hpage hw hport hpoll
  obtain ⟨hlink, hi⟩ := haware.knowing.after hs hheld moves
  have hprobe := Binding.lands_probe_unhindered hs hi ⟨hclear, hattends⟩ hslot hnew
  rw [← hlink] at hprobe
  obtain ⟨⟨hfound, hmodule, htrusts⟩, -⟩ := @Bench.lands_perform _ _ (Session.probe · slot) _ hprobe
  have hothers := (@Bench.lands_perform _ (w.after moves) (Session.probe · slot) _
    (lands_probe_others _ slot _ _)).1
  exact ⟨hfound, hmodule, hothers, htrusts⟩

/-- Modules of three generations. The first one has the bytes of a hub and of a flat EEPROM on its
second page, which is shown; the hub has a memory type of flat EEPROMs among its registers and shows
a page in the middle. -/
def misleadingSegment : Segment :=
  let paged := Modules.patched (Array.replicate 512 0)
    [(0, 0x51), (2, 0x0C), (256, 0x51), (258, 0x0B)]
  let hub : Hub :=
    { registers := (RegisterFile.filled 128 0).writeAll [(0, 0x51), (2, 0x0B), (11, 5)]
      stored := Modules.patched (Array.replicate 1024 0) [(2, 0x12), (642, 0x0C)] }
  let flat := Modules.patched (Array.replicate 256 0) [(0, 0x92), (2, 0x0B)]
  { ((Segment.empty.attach 0x50 (.paged paged 0)).attach 0x51 (.hub hub)).attach 0x52 (.flat flat 0)
    with page := 1 }

theorem recognisable_misleadingSegment : misleadingSegment.Recognisable := by
  have hall : ∀ slot : UInt8, (misleadingSegment.lasting? (Spd.eepromAddress slot)).all
      (fun l => decide l.Recognisable) = true := forall_byte (by decide +kernel)
  intro slot l hl
  have h := hall slot
  rw [hl, Option.all_some] at h
  exact of_decide_eq_true h

theorem Bench.blank_after_forget (w : Bench) (moves : List Move) :
    (w.after (moves ++ [.clearFaults, .job .forget])).machine.faults = [] ∧
      ∀ slot, (w.after (moves ++ [.clearFaults, .job .forget])).session.module? slot = none := by
  rw [after, List.foldl_append]
  exact ⟨rfl, Memory.module?_empty⟩

/-- Every slot of that bus, after a read has moved the pages and a fault was in the way of a
probe. -/
theorem probe_identifies_misleading : ∃ w : Bench,
    w.StartedOn { Platform.amdSample with segment := misleadingSegment } {} ∧
    let v := w.after ([.job (.read 1 0x155), .inject .lockContended, .job (.probe 0)] ++
      [.clearFaults, .job .forget])
    (v.probe 0).1 = some .ddr4 ∧ (v.probe 1).1 = some .ddr5 ∧ (v.probe 2).1 = some .ddr3 ∧
    (v.probe 3).1 = none ∧ (v.probe 1).2.session.module? 1 = some ⟨.ddr5, 0x12, none⟩ ∧
    (v.probe 3).2.session.module? 3 = none := by
  have hp := Platform.hosted_amdSample
  obtain ⟨w, hw, -⟩ := Bench.exists_startedOn_fill {} hp misleadingSegment fun _ => rfl
  refine ⟨w, hw, ?_⟩
  have hpage : misleadingSegment.page ≤ 1 := (by decide : (1 : UInt8) ≤ 1)
  obtain ⟨hclear, hnew⟩ := w.blank_after_forget
    [.job (.read 1 0x155), .inject .lockContended, .job (.probe 0)]
  have hfinds := fun (slot : UInt8) (hslot : slot.toNat < Spd.slotCount) =>
    probe_identifies hp.assembled recognisable_misleadingSegment hpage hw rfl
      (Config.retries_default _) _ hclear hslot (hnew slot)
  have hkinds : [0, 1, 2, 3].map (fun slot =>
        misleadingSegment.generation? (Spd.eepromAddress slot)) =
      [some .ddr4, some .ddr5, some .ddr3, none] := by
    decide +kernel
  have hmodules : [1, 3].map misleadingSegment.module? = [some ⟨.ddr5, 0x12, none⟩, none] := by
    decide +kernel
  simp only [List.map_cons, List.map_nil, List.cons.injEq, and_true] at hkinds hmodules
  obtain ⟨h₀, h₁, h₂, h₃⟩ := hkinds
  refine ⟨(hfinds 0 (by decide)).1.trans h₀, (hfinds 1 (by decide)).1.trans h₁,
    (hfinds 2 (by decide)).1.trans h₂, (hfinds 3 (by decide)).1.trans h₃,
    (hfinds 1 (by decide)).2.1.trans hmodules.1, (hfinds 3 (by decide)).2.1.trans hmodules.2⟩

end DimmBus
