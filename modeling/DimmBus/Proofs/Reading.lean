import DimmBus.Proofs.Invariants
import DimmBus.Proofs.Probing

/-!
# Reading modules

A byte that a session hands out is the one that the module stores, and where nothing is in the way
it does hand it out. All other work keeps true what the session remembers.
-/

namespace DimmBus

open Session

/-- The byte that the module in a slot stores at an address. -/
def Segment.stored? (g : Segment) (slot : UInt8) (address : UInt16) : Option UInt8 :=
  (g.lasting? (Spd.eepromAddress slot)).bind (·.stored[address.toNat]?)

namespace Segment.Telling

variable {g₀ : Segment} {slot : UInt8} {address : UInt16}

/-- Nothing is stored past the end of a module. -/
theorem stored_beyond {g : Generation} (hg : g₀.Telling)
    (hkind : g₀.generation? (Spd.eepromAddress slot) = some g) (hl : g.locate? address = none) :
    g₀.stored? slot address = none := by
  have hge : ¬address.toNat < g.size.toNat := fun hlt => by
    have hsome := Generation.locate?_isSome.mpr hlt
    rw [hl] at hsome
    cases hsome
  obtain ⟨l, hl, hgen⟩ := Option.bind_eq_some_iff.mp hkind
  rw [stored?, hl, Option.bind_some, Array.getElem?_eq_none]
  rw [(hg slot l hl).size hgen]
  omega

/-- Nobody answers where there is no module. -/
theorem absent (hg : g₀.Telling) (hkind : g₀.generation? (Spd.eepromAddress slot) = none) :
    g₀.slave? (Spd.eepromAddress slot) = none := by
  cases hs : g₀.slave? (Spd.eepromAddress slot) with
  | none => rfl
  | some s =>
      have ht := hg slot s.lasting (by rw [lasting?, hs, Option.map_some])
      rw [generation?_of_slave hs] at hkind
      unfold Lasting.Telling at ht
      rw [hkind] at ht
      exact ht.elim

/-- Nothing is stored there either. -/
theorem stored_absent (hg : g₀.Telling)
    (hkind : g₀.generation? (Spd.eepromAddress slot) = none) : g₀.stored? slot address = none := by
  rw [stored?, lasting?, hg.absent hkind]
  rfl

end Segment.Telling

namespace Binding

variable {b : Binding} {g₀ : Segment} {faults : List Fault} {locked : Bool} {m : Memory}
  {p : Platform} {slot : UInt8} {α : Type}

/-- Nothing is in the way of an operation that takes the lock. -/
def Free (b : Binding) (faults : List Fault) (locked : Bool) : Prop :=
  b.Calm faults ∧ locked = false

/-! ## Under the lock -/

theorem Informed.holding (hi : b.Informed g₀ faults locked m p) (locked' : Bool) (k : Counters) :
    b.Informed g₀ faults locked' m (p.holding locked' k) := ⟨hi.holds.holding locked' k, hi.knows⟩

theorem Sound.holding (hi : b.Sound g₀ faults locked m p) (locked' : Bool) (k : Counters) :
    b.Sound g₀ faults locked' m (p.holding locked' k) :=
  ⟨hi.toInformed.holding locked' k, hi.trusts⟩

/-- Work under the lock is run on a machine that it may rely on, unless the lock is refused. -/
theorem completes_underLock {body : Operation α} {ok : α → Memory → Platform → Prop}
    {bad : Error → Memory → Platform → Prop} (hi : b.Informed g₀ faults locked m p)
    (hbusy : ∀ p', b.Informed g₀ faults locked m p' → p'.segment = p.segment →
      ¬b.Free faults locked → bad (.busy 0) m p')
    (hbody : ∀ p', b.Informed g₀ faults true m p' → p'.segment = p.segment → locked = false →
      Completes body m p' (fun a m q => ∀ k, ok a m (q.holding false k))
        (fun e m q => ∀ k, bad e m (q.holding false k))) :
    Completes (Session.locked b.link body) m p ok bad := by
  refine completes_locked (fun hwhy k => ?_) fun hfree _ k => ?_
  · have hp := hi.holding p.lockHeld k
    rw [hi.holds.lock] at hp ⊢
    refine hbusy _ hp rfl fun hf => ?_
    obtain hl | hc := hwhy
    · rw [hi.holds.lock, hf.2] at hl
      cases hl
    · rw [Platform.has, hi.holds.faults, hf.1.1] at hc
      cases hc
  · exact hbody _ (hi.holding true k) rfl (hi.holds.lock.symm.trans hfree)

/-! ## The module in a slot -/

/-- A module that is found where none was known is remembered from then on. -/
theorem lands_probe_unknown {Q : Option Generation → Memory → Platform → Prop}
    (hg : g₀.Recognisable) (hi : b.Informed g₀ faults locked m p)
    (hslot : slot.toNat < Spd.slotCount) (hn : m.module? slot = none)
    (hbusy : ∀ p', b.Informed g₀ faults locked m p' → p'.segment = p.segment →
      ¬b.Free faults locked → Q none m p')
    (hQ : ∀ found? m' p', b.Sound g₀ faults locked m' p' → b.Tells g₀ faults slot found? →
      Q (found?.map Prod.fst)
        (found?.elim m' fun found => m'.setModule slot ⟨found.1, found.2, none⟩) p') :
    Lands (probe b.link slot) m p Q := by
  unfold probe
  rw [if_pos hslot, lands_bind, lands_get, hn]
  dsimp only
  rw [lands_bind, completes_run]
  refine completes_underLock hi hbusy fun p' hi' _ hfree => ?_
  rw [completes_step]
  refine lands_probeSlot hg hi' fun found? m₁ p₁ hi₁ htells k => ?_
  have hi₂ := hi₁.holding false k
  rw [← hfree] at hi₂ ⊢
  have h := hQ found? m₁ _ hi₂ htells
  cases found? <;> exact h

/-- The page that is relied on is shown after a probe if it was before. -/
theorem lands_probe {Q : Option Generation → Memory → Platform → Prop} (hg : g₀.Recognisable)
    (hi : b.Informed g₀ faults locked m p)
    (hQ : ∀ r m' p', b.Informed g₀ faults locked m' p' →
      (m.Trusts p.segment → m'.Trusts p'.segment) →
      (∀ g, r = some g → g₀.generation? (Spd.eepromAddress slot) = some g) →
      (b.Free faults locked → slot.toNat < Spd.slotCount → r = none →
        g₀.generation? (Spd.eepromAddress slot) = none) → Q r m' p') :
    Lands (probe b.link slot) m p Q := by
  by_cases hslot : slot.toNat < Spd.slotCount
  · cases hn : m.module? slot with
    | some found =>
        unfold Lands
        rw [probe_known hn]
        refine hQ _ m p hi id (fun g hr => ?_) fun _ _ hr => by cases hr
        rw [hi.knows.modules slot found hn, Option.some.inj hr]
    | none =>
        refine lands_probe_unknown hg hi hslot hn (fun p' hi' hsame hn => ?_)
          fun found? m' p' hi' htells => ?_
        · refine hQ none m p' hi' (fun ht => ?_) (fun _ hr => by cases hr) fun hf _ _ =>
            absurd hf hn
          rw [hsame]
          exact ht
        · cases found? with
          | none =>
              exact hQ none m' p' hi'.toInformed (fun _ => hi'.trusts) (fun _ hr => by cases hr)
                fun hf _ _ => htells.none hf.1.reaches rfl
          | some found =>
              obtain ⟨hkind, hcode⟩ := htells.found found.1 found.2 rfl
              refine hQ (some found.1) _ p' ⟨hi'.holds, hi'.knows.setModule _ hkind hcode⟩
                (fun _ => hi'.trusts) (fun g' hr => ?_) fun _ _ hr => by cases hr
              rw [hkind, Option.some.inj hr]
  · unfold probe
    rw [if_neg hslot]
    exact hQ none m p hi id (fun _ hr => by cases hr) fun _ hlt _ => absurd hlt hslot

theorem completes_confirmed {ok : Generation → Memory → Platform → Prop}
    {bad : Error → Memory → Platform → Prop} (hg : g₀.Telling)
    (hi : b.Sound g₀ faults locked m p)
    (hok : ∀ g m' p', b.Sound g₀ faults locked m' p' → slot.toNat < Spd.slotCount →
      g₀.generation? (Spd.eepromAddress slot) = some g → ok g m' p')
    (hbad : ∀ e m' p', b.Sound g₀ faults locked m' p' →
      (b.Free faults locked → slot.toNat < Spd.slotCount →
        g₀.generation? (Spd.eepromAddress slot) = none) → bad e m' p') :
    Completes (confirmed b.link slot) m p ok bad := by
  unfold confirmed
  split
  · rename_i hslot
    rw [completes_bind, completes_step]
    refine lands_probe hg.recognisable hi.toInformed fun r m' p' hi' htrusts hsome hnone => ?_
    have hs := hi'.sound (htrusts hi.trusts)
    cases r with
    | none => exact hbad _ m' p' hs fun hf hlt => hnone hf hlt rfl
    | some g => exact hok g m' p' hs hslot (hsome g rfl)
  · rename_i hn
    exact hbad _ m p hi fun _ hlt => absurd hlt hn

/-! ## Bytes -/

theorem pageOf_location {g : Generation} {address : UInt16} {location : SpdLocation}
    (hl : g.locate? address = some location) : PageOf g location.page := by
  have hmask : ∀ page : UInt8, page.toNat < 8 → page &&& Spd.HubRegister.pageMask = page :=
    forall_byte (by decide +kernel)
  have hlt := Generation.locate?_isSome.mp (by rw [hl]; rfl)
  unfold Generation.locate? at hl
  split at hl
  · obtain rfl := Option.some.inj hl
    cases g with
    | ddr3 => trivial
    | ddr4 =>
        have hlt : address.toNat < 512 := hlt
        change UInt8.ofNat (address.toNat / 256) ≤ 1
        have hone : (1 : UInt8).toNat = 1 := rfl
        rw [UInt8.le_iff_toNat_le, UInt8.toNat_ofNat', hone]
        omega
    | ddr5 =>
        have hlt : address.toNat < 1024 := hlt
        refine hmask _ ?_
        change (UInt8.ofNat (address.toNat / 128)).toNat < 8
        rw [UInt8.toNat_ofNat']
        omega
  · cases hl

/-- The byte behind a location, once its page is shown. -/
theorem stored_of_read {g : Generation} {s : Slave} {address : UInt16} {location : SpdLocation}
    (hg : g₀.Telling) (hi : b.Informed g₀ faults locked m p)
    (hkind : g₀.generation? (Spd.eepromAddress slot) = some g)
    (hl : g.locate? address = some location)
    (hs : p.segment.slave? (Spd.eepromAddress slot) = some s)
    (hshows : g = .ddr3 ∨ p.segment.shown? (Spd.eepromAddress slot) = some location.page) :
    g₀.stored? slot address = some (s.read p.segment.page location.offset).1 := by
  have htell := hg slot _ (hi.lasting hs)
  have hgen' := (hi.generation hs).symm.trans hkind
  rw [Segment.shown?, hs, Option.bind_some] at hshows
  have hlt : address.toNat < s.lasting.stored.size := by
    rw [htell.size hgen']
    exact Generation.locate?_isSome.mp (by rw [hl]; rfl)
  rw [Slave.read_location hgen' hl hshows, Segment.stored?, ← hi.knows.lasting,
    Segment.lasting?, hs, Option.map_some, Option.bind_some, Array.getD_eq_getD_getElem?,
    Array.getElem?_eq_getElem hlt, Option.getD_some]

/-- A page that is relied on is shown by the module in the slot. -/
theorem shows_of_trusts {g : Generation} {page : UInt8} {tx : Transaction}
    (hi : b.Sound g₀ faults locked m p)
    (ht : pageSelect? g (Spd.eepromAddress slot) page = some tx)
    (hl : m.latch = some ⟨Spd.eepromAddress slot, page⟩) : Shows g₀ g slot page p := by
  intro hkind
  rw [← hi.knows.generation] at hkind
  obtain ⟨s, hs, hgen⟩ := Segment.slave_of_generation hkind
  have hsome : ∃ shown, p.segment.shown? (Spd.eepromAddress slot) = some shown := by
    rw [Segment.shown?, hs, Option.bind_some]
    cases s with
    | paged => exact ⟨_, rfl⟩
    | hub => exact ⟨_, rfl⟩
    | flat =>
        obtain rfl : Generation.ddr3 = g := Option.some.inj hgen
        cases ht
    | sensor => cases hgen
  obtain ⟨shown, hshown⟩ := hsome
  have he : shown = page := hi.trusts _ shown hl hshown
  rw [hshown, he]

theorem completes_readAttempt {g : Generation} {address : UInt16} {location : SpdLocation}
    {ok : UInt8 → Memory → Platform → Prop} {bad : Error → Memory → Platform → Prop}
    (hg : g₀.Telling) (hi : b.Sound g₀ faults locked m p)
    (hkind : g₀.generation? (Spd.eepromAddress slot) = some g)
    (hl : g.locate? address = some location)
    (hok : ∀ value m' p', b.Sound g₀ faults locked m' p' → b.Reaches faults →
      g₀.stored? slot address = some value → ok value m' p')
    (hbad : ∀ e m' p', b.Sound g₀ faults locked m' p' → ¬b.Free faults locked → bad e m' p') :
    Completes (readAttempt b.link g (Spd.eepromAddress slot) location) m p ok bad := by
  unfold readAttempt
  have htrusts : ∀ {p' : Platform}, p'.segment = p.segment → m.Trusts p'.segment := fun hsame =>
    hsame ▸ hi.trusts
  refine completes_underLock hi.toInformed (fun p' hi' hsame hn =>
    hbad _ m p' (hi'.sound (htrusts hsame)) hn) fun p' hi' hsame hfree => ?_
  have hi' := hi'.sound (htrusts hsame)
  have hstop : ∀ {e m q}, b.Sound g₀ faults true m q → ¬b.Calm faults → ∀ k,
      bad e m (q.holding false k) := fun {e m q} hi hn k => by
    have hi₂ := hi.holding false k
    rw [← hfree] at hi₂ ⊢
    exact hbad e m _ hi₂ fun hf => hn hf.1
  have hread : ∀ {m₁ p₁}, b.Sound g₀ faults true m₁ p₁ →
      (g = .ddr3 ∨ p₁.segment.shown? (Spd.eepromAddress slot) = some location.page) →
      Completes (readByte b.link (Spd.eepromAddress slot) location.offset) m₁ p₁
        (fun a m q => ∀ k, ok a m (q.holding false k))
        (fun e m q => ∀ k, bad e m (q.holding false k)) := fun {m₁ p₁} hi₁ hshows => by
    refine completes_readByte hi₁.toInformed (fun s p₂ hi₂ hshown hreaches hs k => ?_)
      fun e p₂ hi₂ hshown hnone => ?_
    · have hi₃ := (hi₂.sound (hi₁.trusts.still hshown)).holding false k
      rw [← hfree] at hi₃ ⊢
      exact hok _ m₁ _ hi₃ hreaches (stored_of_read hg hi₁.toInformed hkind hl hs hshows)
    · exact hstop (hi₂.sound (hi₁.trusts.still hshown)) fun hc =>
        absurd hkind (generation_of_absent hi₁.toInformed (hnone hc.reaches))
  rw [completes_bind]
  cases ht : pageSelect? g (Spd.eepromAddress slot) location.page with
  | none =>
      unfold selectPage
      rw [ht]
      dsimp only
      rw [completes_pure]
      refine hread hi' (.inl ?_)
      cases g with
      | ddr3 => rfl
      | ddr4 => cases ht
      | ddr5 => cases ht
  | some tx =>
      refine completes_selectPage (pageOf_location hl) ht hi'.toInformed
        (fun hlatch => shows_of_trusts hi' ht hlatch) (fun m₁ p₁ hi₁ hl₁ hs₁ => ?_)
        fun e m₁ p₁ hi₁ hl₁ hn => ?_
      · have hshown := hs₁ hkind
        exact hread (hi₁.sound (trusts_of_shown hl₁ hshown)) (.inr hshown)
      · exact hstop (hi₁.sound (trusts_of_none hl₁)) fun hc => hn hc.reaches hkind

/-- A byte that is handed out is the one that the module stores, and was fetched from the bus. Where
nothing is in the way, every byte of a module is handed out. -/
theorem completes_readSpd {address : UInt16} {ok : UInt8 → Memory → Platform → Prop}
    {bad : Error → Memory → Platform → Prop} (hg : g₀.Telling)
    (hi : b.Sound g₀ faults locked m p)
    (hok : ∀ value m' p', b.Sound g₀ faults locked m' p' → b.Reaches faults →
      g₀.stored? slot address = some value → ok value m' p')
    (hbad : ∀ e m' p', b.Sound g₀ faults locked m' p' →
      (b.Free faults locked → slot.toNat < Spd.slotCount → g₀.stored? slot address = none) →
      bad e m' p') :
    Completes (readSpd b.link slot address) m p ok bad := by
  unfold readSpd
  rw [completes_bind]
  refine completes_confirmed hg hi (fun g m₁ p₁ hi₁ _ hkind => ?_) fun e m₁ p₁ hi₁ hnone =>
    hbad e m₁ p₁ hi₁ fun hf hlt => ?_
  · rw [completes_bind]
    unfold locate
    cases hl : g.locate? address with
    | none =>
        exact hbad _ m₁ p₁ hi₁ fun _ _ => hg.stored_beyond hkind hl
    | some location =>
        dsimp only
        rw [completes_ofExcept_ok, completes_adapt]
        refine completes_retryingWithin (I := b.Sound g₀ faults locked) _ (fun m p hi => ?_) hi₁
        refine completes_readAttempt hg hi hkind hl hok fun e m' p' hi' hn => ?_
        have hd := hi'.toInformed.dropped
        exact ⟨hd, hbad _ _ p' hd fun hf => absurd hf hn⟩
  · exact hg.stored_absent (hnone hf hlt)

end Binding

end DimmBus
