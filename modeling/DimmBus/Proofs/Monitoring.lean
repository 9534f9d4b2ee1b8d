import Mathlib.Data.List.Forall2
import DimmBus.Monitor
import DimmBus.Proofs.SlotTable
import DimmBus.Proofs.SoundReads
import DimmBus.Proofs.Temperatures

/-!
# Monitoring

A monitor keeps a list of modules apart from what its session remembers. Whatever goes wrong while
the list is made and while it is polled, what the list says stays true, and a poll hands out nothing
but the readings of the sensors.
-/

namespace DimmBus

open Session Memory Monitor Invariant

/-! ## Entries -/

/-- The entry of a slot, as far as the slot is known. -/
def Memory.entry? (m : Memory) (slot : UInt8) : Option MonitoredSlot :=
  (m.module? slot).map fun found => ⟨slot, found.generation, found.memoryType, found.thermal⟩

/-- What an entry says is true of the module in its slot. -/
structure Segment.Lists (g : Segment) (s : MonitoredSlot) : Prop where
  slot : s.slot.toNat < Spd.slotCount
  generation : g.generation? (Spd.eepromAddress s.slot) = some s.generation
  code : g.code? s.slot = some s.memoryType
  thermal : ∀ available, s.thermal = some available → g.HasSensor s.slot available

namespace Monitor

theorem mem_allSlots {slot : UInt8} (hslot : slot.toNat < Spd.slotCount) : slot ∈ allSlots :=
  List.mem_map.mpr ⟨slot.toNat, List.mem_range.mpr hslot, UInt8.ofNat_toNat⟩

theorem pairwise_allSlots : allSlots.Pairwise (· < ·) := by decide

end Monitor

namespace Session

/-- Whatever is answered, an entry is what the session knows of the slot. -/
theorem scripted_entry (link : Link) (slot : UInt8) :
    Scripted link.controller anything false false (.of fun _ => True) (inspect link slot)
      fun s? => .of fun m => ∀ s, s? = some s → m.entry? slot = some s := by
  unfold inspect
  refine (scripted_probe (enduring_true slot).toStable).bind fun g? => ?_
  cases g? with
  | none => exact .pure fun _ _ _ => nofun
  | some g =>
      -- The module was found by the probe, and finding out about its sensor does not lose it.
      have hkept : Scripted link.controller anything false false
          (.of fun m => True ∧ m.Has slot g) (thermalAvailable link slot) fun _ => _ :=
        keeps_thermalAvailable (enduring_true slot).has
      refine (hkept.mono (fun _ _ h => ⟨h.1, h.2 g rfl⟩) fun _ _ _ h => h).bind fun _ => ?_
      refine Scripted.get.bind fun m => .pure fun m' past h => ?_
      obtain ⟨rfl, -, hhas⟩ := h
      intro s hs
      obtain ⟨found, hf, rfl⟩ := Option.map_eq_some_iff.mp hhas
      rw [Option.some.inj hs.symm, entry?, hf]
      rfl

theorem lands_of_scripted {α : Type} {link : Link} {x : Step α} {P : Memory → Prop}
    {Q : α → Memory → Prop} {m : Memory} {p : Platform}
    (hx : Scripted link.controller anything false false (.of P) x fun a => .of (Q a)) (hm : P m) :
    Lands x m p fun a m _ => Q a m := (hx.yields hm).run Platform.answer p

end Session

namespace Binding

variable {b : Binding} {g₀ : Segment} {faults : List Fault} {locked : Bool} {m : Memory}
  {p : Platform} {slot : UInt8} {s : MonitoredSlot}

theorem Feels.lists (hi : b.Feels g₀ g₀.HasSensor faults locked m p)
    (h : m.entry? slot = some s) : s.slot = slot ∧ g₀.Lists s := by
  obtain ⟨found, hf, rfl⟩ := Option.map_eq_some_iff.mp h
  refine ⟨rfl, slot_lt_of_module? hf, hi.knows.modules slot found hf, hi.knows.codes slot found hf,
    fun available ha => hi.thermal slot available ?_⟩
  rw [thermal?, hf]
  exact ha

/-! ## The list -/

theorem feeling_inspect (hg : g₀.Telling) (slot : UInt8) :
    (b.feeling g₀ faults).KeptBy (inspect b.link slot) := by
  unfold inspect
  refine (feeling_probe hg slot).bind fun g? => ?_
  cases g? with
  | none => exact .pure _
  | some g =>
      exact (kept_thermalAvailable (feeling_thermalCapability hg slot)).bind fun _ =>
        KeptBy.get.bind fun _ => .pure _

/-- Where nothing is in the way, a module is not missed. -/
theorem finds_inspect (hg : g₀.Telling) (hi : b.Informed g₀ faults locked m p) :
    Lands (inspect b.link slot) m p fun s? _ _ => b.Free faults locked →
      slot.toNat < Spd.slotCount → s? = none → g₀.generation? (Spd.eepromAddress slot) = none := by
  unfold inspect
  rw [lands_bind]
  refine lands_probe hg.recognisable hi fun g? m₁ p₁ _ _ _ hnone => ?_
  cases g? with
  | none => exact fun hf hslot _ => hnone hf hslot rfl
  | some g =>
      rw [lands_bind]
      exact lands_of_forall fun _ _ _ _ _ => nofun

theorem lands_inspect (hg : g₀.Telling) (hi : b.Feels g₀ g₀.HasSensor faults locked m p) :
    Lands (inspect b.link slot) m p fun s? m p => b.Feels g₀ g₀.HasSensor faults locked m p ∧
      (∀ s, s? = some s → s.slot = slot ∧ g₀.Lists s) ∧
      (b.Free faults locked → slot.toNat < Spd.slotCount → s? = none →
        g₀.generation? (Spd.eepromAddress slot) = none) := by
  have hkept := feeling_inspect hg slot locked m p hi
  have hentry := lands_of_scripted (p := p) (scripted_entry b.link slot) (m := m) trivial
  have hfinds := @finds_inspect _ _ _ _ _ _ slot hg hi.toInformed
  exact ⟨hkept, fun s hs => Feels.lists hkept (hentry s hs), hfinds⟩

/-- The entries tell of all modules in the slots, as far as nothing is in the way. -/
structure Listed (b : Binding) (g₀ : Segment) (faults : List Fault) (locked : Bool)
    (slots : List UInt8) (found : List MonitoredSlot) : Prop where
  lists : ∀ s ∈ found, g₀.Lists s
  sublist : (found.map (·.slot)).Sublist slots
  complete : b.Free faults locked → ∀ slot ∈ slots, slot.toNat < Spd.slotCount →
    (g₀.generation? (Spd.eepromAddress slot)).isSome = true → slot ∈ found.map (·.slot)

theorem lands_inspectAll (hg : g₀.Telling) (slots : List UInt8)
    (hi : b.Feels g₀ g₀.HasSensor faults locked m p) :
    Lands (inspectAll b.link slots) m p fun found m p =>
      b.Feels g₀ g₀.HasSensor faults locked m p ∧ b.Listed g₀ faults locked slots found := by
  induction slots generalizing m p with
  | nil => exact ⟨hi, nofun, .slnil, fun _ => nofun⟩
  | cons slot rest ih =>
      rw [inspectAll, lands_bind]
      refine (lands_inspect hg hi).mono fun s? m₁ p₁ h => ?_
      obtain ⟨hi₁, hs, hmissed⟩ := h
      rw [lands_bind]
      refine (ih hi₁).mono fun others m₂ p₂ h => ?_
      obtain ⟨hi₂, hothers⟩ := h
      -- A slot where nothing is found is left out, and the order stays.
      cases s? with
      | none =>
          refine ⟨hi₂, hothers.lists, hothers.sublist.cons slot, fun hf slot' hs' hlt hsome => ?_⟩
          rcases List.mem_cons.mp hs' with rfl | hs'
          · rw [hmissed hf hlt rfl] at hsome
            cases hsome
          · exact hothers.complete hf slot' hs' hlt hsome
      | some s =>
          obtain ⟨rfl, hlists⟩ := hs s rfl
          refine ⟨hi₂, List.forall_mem_cons.mpr ⟨hlists, hothers.lists⟩,
            hothers.sublist.cons_cons s.slot, fun hf slot' hs' hlt hsome => ?_⟩
          rcases List.mem_cons.mp hs' with rfl | hs'
          · exact List.mem_cons_self
          · exact List.mem_cons_of_mem _ (hothers.complete hf slot' hs' hlt hsome)

/-! ## Polls -/

/-- What a poll makes of an entry. -/
structure Polled (b : Binding) (g₀ : Segment) (faults : List Fault) (locked : Bool)
    (s : MonitoredSlot) (out : MonitoredSlot × Reading) : Prop where
  same : out.1 = { s with thermal := out.1.thermal }
  lists : g₀.Lists out.1
  slot : out.2.slot = s.slot
  exact : ∀ t, out.2.temperature = some t → g₀.hasSensor s.slot = true ∧
    ∃ raw, g₀.raw? s.slot = some raw ∧ t = .ofReading raw
  missing : b.Free faults locked → out.2.temperature = none → g₀.hasSensor s.slot = false

section

variable {slots : List MonitoredSlot} {results : List (MonitoredSlot × Reading)}

theorem lists_of_polled (h : List.Forall₂ (b.Polled g₀ faults locked) slots results) :
    ∀ s ∈ results.map Prod.fst, g₀.Lists s := by
  induction h with
  | nil => nofun
  | cons hpolled _ ih => exact List.forall_mem_cons.mpr ⟨hpolled.lists, ih⟩

theorem slots_of_polled (h : List.Forall₂ (b.Polled g₀ faults locked) slots results) :
    (results.map Prod.fst).map (·.slot) = slots.map (·.slot) := by
  induction h with
  | nil => rfl
  | cons hpolled _ ih =>
      simp only [List.map_cons]
      rw [ih, hpolled.same]

end

theorem lands_pollSlot (hg : g₀.Telling) (hc : g₀.ChipsOnly)
    (hi : b.Feels g₀ g₀.HasSensor faults locked m p) (hs : g₀.Lists s) :
    Lands (pollSlot b.link s) m p fun out m p =>
      b.Feels g₀ g₀.HasSensor faults locked m p ∧ b.Polled g₀ faults locked s out := by
  unfold pollSlot
  split
  · rename_i hnone
    exact ⟨hi, rfl, hs, rfl, nofun, fun _ _ => hs.thermal false hnone⟩
  -- What the session knows of the sensor afterwards is true, whether the reading failed or not.
  · have hlists : ∀ {m p}, b.Feels g₀ g₀.HasSensor faults locked m p →
        g₀.Lists { s with thermal := m.thermal? s.slot } := fun hi =>
      ⟨hs.slot, hs.generation, hs.code, hi.thermal s.slot⟩
    rw [lands_bind, completes_run]
    refine (completes_readTemperature hg hc hi).mono (fun t m₁ p₁ h => ?_) fun e m₁ p₁ h => ?_
    · obtain ⟨hi₁, hhas, hraw⟩ := h
      refine ⟨hi₁, rfl, hlists hi₁, rfl, fun t' ht => ?_, fun _ => nofun⟩
      rw [← Option.some.inj ht]
      exact ⟨hhas, hraw⟩
    · obtain ⟨hi₁, -, hmissing⟩ := h
      exact ⟨hi₁, rfl, hlists hi₁, rfl, nofun, fun hf _ => hmissing hf hs.slot⟩

theorem lands_pollAll (hg : g₀.Telling) (hc : g₀.ChipsOnly) {slots : List MonitoredSlot}
    (hi : b.Feels g₀ g₀.HasSensor faults locked m p) (hs : ∀ s ∈ slots, g₀.Lists s) :
    Lands (pollAll b.link slots) m p fun results m p =>
      b.Feels g₀ g₀.HasSensor faults locked m p ∧
        List.Forall₂ (b.Polled g₀ faults locked) slots results := by
  induction slots generalizing m p with
  | nil => exact ⟨hi, .nil⟩
  | cons s rest ih =>
      rw [pollAll, lands_bind]
      refine (lands_pollSlot hg hc hi (hs s List.mem_cons_self)).mono fun here m₁ p₁ h => ?_
      obtain ⟨hi₁, hpolled⟩ := h
      rw [lands_bind]
      refine (ih hi₁ fun s' hs' => hs s' (List.mem_cons_of_mem _ hs')).mono fun others m₂ p₂ h => ?_
      exact ⟨h.1, .cons hpolled h.2⟩

end Binding

/-! ## Slots that are left alone -/

namespace Monitor

/-- The entries that a poll cares about. -/
def heeded (slots : List MonitoredSlot) : List MonitoredSlot :=
  slots.filter fun s => s.thermal ≠ some false

theorem heeded_cons (s : MonitoredSlot) (rest : List MonitoredSlot) : heeded (s :: rest) =
    if s.thermal = some false then heeded rest else s :: heeded rest := by
  rw [heeded, heeded, List.filter_cons]
  by_cases hs : s.thermal = some false <;> simp [hs]

/-- Their results, with those of the others in between. -/
def weave : List MonitoredSlot → List (MonitoredSlot × Reading) → List (MonitoredSlot × Reading)
  | [], _ => []
  | s :: rest, results =>
    if s.thermal = some false then (s, ⟨s.slot, none⟩) :: weave rest results
    else results.take 1 ++ weave rest (results.drop 1)

theorem pollAll_eq (link : Link) (slots : List MonitoredSlot) :
    pollAll link slots = weave slots <$> pollAll link (heeded slots) := by
  induction slots with
  | nil => rfl
  | cons s rest ih =>
      rw [pollAll, ih, heeded_cons]
      by_cases hs : s.thermal = some false
      · rw [pollSlot, if_pos hs, if_pos hs, pure_bind]
        simp only [weave, hs, if_true, map_eq_pure_bind, bind_assoc, pure_bind]
      · rw [if_neg hs, pollAll]
        simp only [weave, hs, if_false, map_eq_pure_bind, bind_assoc, pure_bind,
          List.take_succ_cons, List.take_zero, List.drop_succ_cons, List.drop_zero,
          List.singleton_append]

theorem perform_map {α β : Type} (s : Session) (f : α → β) (work : Link → Step α) :
    (s.perform fun link => f <$> work link) = (fun r => (f r.1, r.2)) <$> s.perform work := by
  unfold Session.perform
  simp only [map_eq_pure_bind, bind_assoc, pure_bind, StateT.run_bind, StateT.run_pure]

theorem poll_eq (m : Monitor) : m.poll = (fun r => let results := weave m.slots r.1
      (results.map Prod.snd, (⟨r.2, results.map Prod.fst⟩ : Monitor))) <$>
      m.session.perform (pollAll · (heeded m.slots)) := by
  have hwork : (fun link => pollAll link m.slots) =
      fun link => weave m.slots <$> pollAll link (heeded m.slots) :=
    funext fun link => pollAll_eq link m.slots
  rw [poll, hwork, perform_map]
  simp only [map_eq_pure_bind, bind_assoc, pure_bind]

end Monitor

/-! ## Histories -/

/-- A monitor and the machine under it. -/
structure Rig where
  monitor : Monitor
  machine : Platform

namespace Rig

/-- What happens next. Before a monitor is renewed, its session may be used in any way. -/
inductive Event where
  | renew (moves : List Move)
  | rescan
  | poll
  | inject (fault : Fault)
  | clearFaults
  | setTemperature (slot : UInt8) (raw : UInt16)

def bench (v : Rig) : Bench := ⟨v.monitor.session, v.machine⟩

def setUp (w : Bench) : Rig :=
  let (monitor, machine) := (ofSession w.session).run Platform.answer w.machine
  ⟨monitor, machine⟩

def rescan (v : Rig) : Rig :=
  let (monitor, machine) := v.monitor.rescan.run Platform.answer v.machine
  ⟨monitor, machine⟩

def poll (v : Rig) : List Reading × Rig :=
  let ((readings, monitor), machine) := v.monitor.poll.run Platform.answer v.machine
  (readings, ⟨monitor, machine⟩)

def step (v : Rig) : Event → Rig
  | .renew moves => setUp (v.bench.after moves)
  | .rescan => v.rescan
  | .poll => v.poll.2
  | .inject fault => { v with machine := v.machine.inject fault }
  | .clearFaults => { v with machine := v.machine.clearFaults }
  | .setTemperature slot raw => { v with machine := v.machine.setTemperature slot raw }

def after (v : Rig) (events : List Event) : Rig := events.foldl step v

theorem setUp_eq (w : Bench) : setUp w =
    let (found, w') := w.perform fun link => inspectAll link allSlots
    ⟨⟨w'.session, found⟩, w'.machine⟩ := by
  unfold setUp ofSession Bench.perform
  rw [Access.run_bind]
  rfl

/-- To rescan is to forget all modules and to set up the monitor again. -/
theorem rescan_eq (v : Rig) : v.rescan = setUp (v.bench.after [.job .forget]) := rfl

theorem poll_eq (v : Rig) : v.poll =
    let (results, w) := v.bench.perform fun link => pollAll link v.monitor.slots
    (results.map Prod.snd, ⟨⟨w.session, results.map Prod.fst⟩, w.machine⟩) := by
  unfold poll Monitor.poll Bench.perform
  rw [Access.run_bind]
  rfl

end Rig

namespace Binding

variable {b : Binding} {g₀ : Segment} {w : Bench} {v : Rig} {s : MonitoredSlot}

theorem Feeling.lists (hw : b.Feeling g₀ w) : w.machine.segment.Lists s ↔ g₀.Lists s := by
  have hgeneration := hw.aware.2.knows.generation (Spd.eepromAddress s.slot)
  have hcode := hw.aware.2.knows.code s.slot
  refine ⟨fun h => ⟨h.slot, hgeneration ▸ h.generation, hcode ▸ h.code, fun available ha => ?_⟩,
    fun h => ⟨h.slot, hgeneration ▸ h.generation, hcode ▸ h.code, fun available ha => ?_⟩⟩
  · exact (hw.hasSensor s.slot).symm.trans (h.thermal available ha)
  · exact (hw.hasSensor s.slot).trans (h.thermal available ha)

/-- What the monitor lists is true, and so is what its session remembers. -/
structure Watching (b : Binding) (g₀ : Segment) (v : Rig) : Prop where
  feeling : b.Feeling g₀ v.bench
  lists : ∀ s ∈ v.monitor.slots, g₀.Lists s
  ascending : (v.monitor.slots.map (·.slot)).Pairwise (· < ·)

namespace Watching

theorem setUp_listed (hg : g₀.Telling) (hw : b.Feeling g₀ w) : b.Watching g₀ (.setUp w) ∧
    b.Listed w.machine.segment w.machine.faults false allSlots (Rig.setUp w).monitor.slots := by
  obtain ⟨hfeeling, hlisted, -⟩ := hw.perform (inspectAll · allSlots)
    (lands_inspectAll (hw.telling hg) allSlots hw.feels)
  rw [Rig.setUp_eq]
  exact ⟨⟨hfeeling, fun s hs => hw.lists.mp (hlisted.lists s hs),
    pairwise_allSlots.sublist hlisted.sublist⟩, hlisted⟩

theorem setUp (hg : g₀.Telling) (hw : b.Feeling g₀ w) : b.Watching g₀ (.setUp w) :=
  (setUp_listed hg hw).1

theorem poll (hg : g₀.Telling) (hc : g₀.ChipsOnly) (hv : b.Watching g₀ v) :
    ∃ results, List.Forall₂ (b.Polled v.machine.segment v.machine.faults false) v.monitor.slots
        results ∧
      v.poll.1 = results.map Prod.snd ∧ v.poll.2.monitor.slots = results.map Prod.fst ∧
      (∀ slot, v.poll.2.machine.segment.raw? slot = v.machine.segment.raw? slot) ∧
      b.Watching g₀ v.poll.2 := by
  have hf := hv.feeling
  obtain ⟨hfeeling, hpolled, hraw⟩ := hf.perform (pollAll · v.monitor.slots)
    (lands_pollAll (hf.telling hg) (hf.chipsOnly hc) hf.feels fun s hs =>
      hf.lists.mpr (hv.lists s hs))
  rw [Rig.poll_eq]
  refine ⟨_, hpolled, rfl, rfl, hraw, hfeeling, fun s hs => ?_, ?_⟩
  · exact hf.lists.mp (lists_of_polled hpolled s hs)
  · have hascending := hv.ascending
    rw [← slots_of_polled hpolled] at hascending
    exact hascending

theorem step (hg : g₀.Telling) (hc : g₀.ChipsOnly) (hh : b.held = true) (hv : b.Watching g₀ v)
    (event : Rig.Event) : b.Watching g₀ (v.step event) := by
  cases event with
  | renew moves => exact setUp hg (hv.feeling.after hg hc hh moves)
  | rescan =>
      change b.Watching g₀ v.rescan
      rw [Rig.rescan_eq]
      exact setUp hg (hv.feeling.after hg hc hh _)
  | poll =>
      obtain ⟨-, -, -, -, -, hpoll⟩ := hv.poll hg hc
      exact hpoll
  | inject fault =>
      have hf : b.Feeling g₀ (v.bench.step (.inject fault)) := hv.feeling.step hg hc (.inl hh)
      exact ⟨hf, hv.lists, hv.ascending⟩
  | clearFaults =>
      have hf : b.Feeling g₀ (v.bench.step .clearFaults) := hv.feeling.step hg hc (.inl hh)
      exact ⟨hf, hv.lists, hv.ascending⟩
  | setTemperature slot raw =>
      have hf : b.Feeling g₀ (v.bench.step (.setTemperature slot raw)) :=
        hv.feeling.step hg hc (.inl hh)
      exact ⟨hf, hv.lists, hv.ascending⟩

theorem after (hg : g₀.Telling) (hc : g₀.ChipsOnly) (hh : b.held = true) (hv : b.Watching g₀ v)
    (events : List Rig.Event) : b.Watching g₀ (v.after events) := by
  induction events generalizing v with
  | nil => exact hv
  | cons event events ih => exact ih (hv.step hg hc hh event)

end Watching

end Binding

/-! ## What an entry stands for -/

/-- The entry is about the module that is in the slot now. -/
structure Platform.Houses (p : Platform) (s : MonitoredSlot) : Prop where
  slot : s.slot.toNat < 8
  generation : ∃ s', p.moduleAt? s.slot = some s' ∧ s'.lasting.generation = some s.generation
  memoryType : p.storedByte? s.slot 2 = some s.memoryType
  thermal : ∀ available, s.thermal = some available → p.segment.hasSensor s.slot = available

theorem Segment.Telling.stored_code {g : Segment} {slot : UInt8} {kind : Generation}
    (hg : g.Telling) (hkind : g.generation? (Spd.eepromAddress slot) = some kind) :
    g.stored? slot 2 = g.code? slot := by
  obtain ⟨l, hl, hgen⟩ := Option.bind_eq_some_iff.mp hkind
  have hsize : Spd.memoryTypeByte.toNat < l.stored.size := by
    rw [(hg slot l hl).size hgen]
    cases kind <;> decide
  rw [stored?, code?, hl, Option.bind_some, Option.map_some, Array.getD_eq_getD_getElem?,
    Array.getElem?_eq_getElem hsize]
  exact Array.getElem?_eq_getElem hsize

theorem Segment.Telling.generation_of_module {p : Platform} {slot : UInt8}
    (hg : p.segment.Telling) (h : (p.moduleAt? slot).isSome = true) :
    (p.segment.generation? (Spd.eepromAddress slot)).isSome = true := by
  cases hkind : p.segment.generation? (Spd.eepromAddress slot) with
  | some kind => rfl
  | none =>
      rw [Platform.moduleAt?, hg.absent hkind] at h
      cases h

theorem Segment.Lists.houses {p : Platform} {s : MonitoredSlot} (hg : p.segment.Telling)
    (hs : p.segment.Lists s) : p.Houses s where
  slot := hs.slot
  generation := Segment.slave_of_generation hs.generation
  memoryType := by
    rw [Platform.storedByte?_stored, hg.stored_code hs.generation]
    exact hs.code
  thermal := hs.thermal

/-- The reading is of the slot, and of nothing but its sensor. -/
structure Platform.Gives (p : Platform) (s : MonitoredSlot) (r : Reading) : Prop where
  slot : r.slot = s.slot
  exact : ∀ t, r.temperature = some t → p.segment.hasSensor s.slot = true ∧
    ∃ raw, p.segment.raw? s.slot = some raw ∧ t.sixteenths = (raw.toBitVec.setWidth 13).toInt

namespace Binding.Polled

variable {b : Binding} {p : Platform} {faults : List Fault} {locked : Bool} {s : MonitoredSlot}
  {out : MonitoredSlot × Reading}

theorem gives (h : b.Polled p.segment faults locked s out) : p.Gives s out.2 where
  slot := h.slot
  exact t ht := by
    obtain ⟨hhas, raw, hraw, rfl⟩ := h.exact t ht
    exact ⟨hhas, raw, hraw, Temperature.ofReading_eq raw⟩

theorem complete (h : b.Polled p.segment faults locked s out) (hf : b.Free faults locked) :
    out.2.temperature.isSome = p.segment.hasSensor s.slot := by
  cases ht : out.2.temperature with
  | none => exact (h.missing hf ht).symm
  | some t => exact (h.exact t ht).1.symm

end Binding.Polled

/-- On an assembled machine, a monitor is set up over a session, polled, rescanned and set up again
in any order, while faults come and go and modules grow warm. The list goes up the slots, and each
entry is about the module that is in its slot. A poll keeps the entries and comes to one reading
for each, in their order. A temperature is the reading that the sensor holds, and where nothing is
in the way, every sensor is read, whatever became of earlier polls, and a rescan lists every module.
Entries that are known to have no sensor cause no calls. -/
theorem monitor_follows_modules {p : Platform} (ha : p.Assembled) {config : Config} {w : Bench}
    (hw : w.StartedOn p config) (moves : List Move) (events : List Rig.Event) :
    let v := (Rig.setUp (w.after moves)).after events
    let slots := v.monitor.slots
    (slots.map (·.slot)).Pairwise (· < ·) ∧
    (∀ s ∈ slots, v.machine.Houses s) ∧
    slots.Forall₂ (fun s later => later = { s with thermal := later.thermal })
      v.poll.2.monitor.slots ∧
    slots.Forall₂ v.machine.Gives v.poll.1 ∧
    (config.piix4Port = 0 → (config.poll w.session.link.controller.family).retries ≠ 0 →
      v.machine.faults = [] →
      slots.Forall₂ (fun s r => r.temperature.isSome = v.machine.segment.hasSensor s.slot)
        v.poll.1 ∧
      ∀ slot, slot.toNat < 8 → (v.machine.moduleAt? slot).isSome = true →
        slot ∈ v.rescan.monitor.slots.map (·.slot)) ∧
    (∀ slot, v.poll.2.machine.segment.raw? slot = v.machine.segment.raw? slot) ∧
    ∀ (port : Port) (past : List Call), (v.monitor.poll.run port.answer past).2 =
      ((v.monitor.session.perform (pollAll · (heeded slots))).run port.answer past).2 := by
  obtain ⟨b, hfeeling, hheld, hfollows⟩ := Binding.exists_feeling ha hw
  have hg := ha.telling.1
  have hstart : b.Watching p.segment (.setUp (w.after moves)) :=
    .setUp hg (hfeeling.after hg ha.chipsOnly hheld moves)
  intro v slots
  have hv : b.Watching p.segment v := hstart.after hg ha.chipsOnly hheld events
  obtain ⟨results, hpolled, hreadings, hlater, hraw, -⟩ := hv.poll hg ha.chipsOnly
  rw [hreadings, hlater]
  simp only [List.forall₂_map_right_iff]
  refine ⟨hv.ascending, fun s hs => ?_, hpolled.imp fun _ _ h => h.same,
    hpolled.imp fun _ _ h => h.gives, fun hport hpoll hfaults => ?_, hraw, fun port past => ?_⟩
  · exact (hv.feeling.lists.mpr (hv.lists s hs)).houses (hv.feeling.telling hg)
  · rw [hfeeling.aware.1] at hpoll
    have hfree : b.Free v.machine.faults false :=
      ⟨⟨hfaults, hfollows.attends hpoll fun _ => hport⟩, rfl⟩
    refine ⟨hpolled.imp fun _ _ h => h.complete hfree, fun slot hslot hmodule => ?_⟩
    have htelling := hv.feeling.telling hg
    have hforgotten := hv.feeling.after hg ha.chipsOnly hheld [.job .forget]
    have hlisted := (Binding.Watching.setUp_listed hg hforgotten).2
    rw [Rig.rescan_eq]
    exact hlisted.complete hfree slot (mem_allSlots hslot) hslot
      (htelling.generation_of_module hmodule)
  · rw [Monitor.poll_eq, Access.run_map]

/-- The lock is refused while the monitor is set up over a session that knows of the module, and
while it is polled. Then the sensor is read just below zero. -/
theorem monitor_follows_modules_intelSample :
    ∃ w : Bench, w.StartedOn Platform.intelSample {} ∧
      let v := (Rig.setUp (w.after [.job (.probe 0), .inject .lockContended])).after
        [.poll, .clearFaults, .setTemperature 0 0xFFFF]
      v.poll.1 = [⟨0, some ⟨-1⟩⟩] ∧ 0 ∈ v.rescan.monitor.slots.map (·.slot) := by
  have hrun : (Bench.started? Platform.intelSample).any (fun w =>
      let v := (Rig.setUp (w.after [.job (.probe 0), .inject .lockContended])).after
        [.poll, .clearFaults, .setTemperature 0 0xFFFF]
      w.session.link.controller.family == .ich && v.machine.faults == [] &&
        v.monitor.slots == [⟨0, .ddr4, 0x0C, none⟩] && v.machine.segment.hasSensor 0 &&
        v.machine.segment.raw? 0 == some 0xFFFF && (v.machine.moduleAt? 0).isSome) = true := by
    rw [Platform.intelSample_eq]
    decide +kernel
  obtain ⟨w, hw, hrun⟩ := (Option.any_eq_true _ _).mp hrun
  simp only [Bool.and_eq_true, beq_iff_eq] at hrun
  obtain ⟨⟨⟨⟨⟨hfamily, hfaults⟩, hslots⟩, hhas⟩, hraw⟩, hmodule⟩ := hrun
  have hw := Bench.startedOn_of_started hw
  have hpoll : ((({} : Config).poll w.session.link.controller.family).retries) ≠ 0 := by
    rw [hfamily]
    decide
  obtain ⟨-, -, -, hgives, hcomplete, -⟩ := monitor_follows_modules
    Platform.hosted_intelSample.assembled hw [.job (.probe 0), .inject .lockContended]
    [.poll, .clearFaults, .setTemperature 0 0xFFFF]
  obtain ⟨hcomplete, hlisted⟩ := hcomplete rfl hpoll hfaults
  rw [hslots] at hgives hcomplete
  refine ⟨w, hw, ?_, hlisted 0 (by decide) hmodule⟩
  obtain ⟨r, rest, hr, hrest, hreadings⟩ := List.forall₂_cons_left_iff.mp hgives
  obtain rfl := List.forall₂_nil_left_iff.mp hrest
  rw [hreadings] at hcomplete ⊢
  obtain ⟨hsome, -⟩ := List.forall₂_cons.mp hcomplete
  obtain ⟨t, ht⟩ := Option.isSome_iff_exists.mp (hsome.trans hhas)
  obtain ⟨-, raw, hr', hsixteenths⟩ := hr.exact t ht
  obtain rfl := Option.some.inj (hr'.symm.trans hraw)
  obtain ⟨slot, temperature⟩ := r
  obtain rfl : slot = 0 := hr.slot
  obtain rfl : temperature = some t := ht
  exact congrArg (fun t => [(⟨0, some t⟩ : Reading)]) (congrArg Temperature.mk hsixteenths)

end DimmBus
