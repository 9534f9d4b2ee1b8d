import DimmBus.Proofs.Binding
import DimmBus.Proofs.Knowledge

/-!
# Finding out what is in a slot

Selecting pages and reading bytes keep what a session remembers true, and a probe finds the module
that is there.
-/

namespace DimmBus

open Session

/-! ## Bytes that tell a generation -/

namespace Lasting.Recognisable

open Spd

theorem not_ddr4_of_legacy : ∀ code : UInt8, MemoryType.isLegacy code = true →
    MemoryType.isDdr4 code = false := forall_byte (by decide +kernel)

variable {s : Slave} {page : UInt8}

theorem read_register {h : Hub} {command : UInt8} (hc : hasAny command hubMemory = false) :
    ((Slave.hub h).read page command).1 = h.registers.read command.toNat := by
  simp [Slave.read, Hub.read, hc]

theorem read_flat {stored : Array UInt8} {pointer command : UInt8} :
    ((Slave.flat stored pointer).read page command).1 = stored.getD command.toNat 0xFF := rfl

theorem read_paged {stored : Array UInt8} {pointer command : UInt8} :
    ((Slave.paged stored pointer).read page command).1 =
      stored.getD (page.toNat * 256 + command.toNat) 0xFF := rfl

theorem offsets : HubRegister.deviceType.toNat = 0 ∧ memoryTypeByte.toNat = 2 ∧
    (0 : UInt8).toNat * 256 + 2 = 2 := by decide

/-- A two-page EEPROM tells its memory type on its first page. -/
theorem isDdr4_read (ht : s.lasting.Recognisable)
    (hpage : s.lasting.generation = some .ddr4 → page = 0) :
    MemoryType.isDdr4 (s.read page memoryTypeByte).1 = true ↔
      s.lasting.generation = some .ddr4 := by
  obtain ⟨-, o₂, p₂⟩ := offsets
  cases s with
  | flat stored pointer =>
      obtain ⟨-, hl⟩ := ht
      rw [read_flat, o₂]
      refine ⟨fun h => ?_, fun h => by cases h⟩
      exact absurd (h.symm.trans (not_ddr4_of_legacy _ hl)) (by decide)
  | paged stored pointer =>
      rw [hpage rfl, read_paged, o₂, p₂]
      exact ⟨fun _ => rfl, fun _ => ht⟩
  | hub h =>
      obtain ⟨-, hd, -⟩ := ht
      rw [read_register (by decide)]
      refine ⟨fun h => ?_, fun h => by cases h⟩
      exact absurd (h.symm.trans hd) (by decide)
  | sensor => exact ht.elim

/-- Where there is no two-page EEPROM, only a hub has its device type in the place of the first
byte. -/
theorem isHub_read (ht : s.lasting.Recognisable) (h4 : s.lasting.generation ≠ some .ddr4) :
    (s.read page HubRegister.deviceType).1 = HubRegister.hubType ↔
      s.lasting.generation = some .ddr5 := by
  obtain ⟨o₀, -, -⟩ := offsets
  cases s with
  | flat stored pointer =>
      rw [read_flat, o₀]
      exact ⟨fun h => absurd h ht.1, fun h => by cases h⟩
  | paged stored pointer => exact absurd rfl h4
  | hub h =>
      rw [read_register (by decide)]
      exact ⟨fun _ => rfl, fun _ => ht.1⟩
  | sensor => exact ht.elim

/-- What is neither a two-page EEPROM nor a hub tells an old memory type. -/
theorem isLegacy_read (ht : s.lasting.Recognisable) (h4 : s.lasting.generation ≠ some .ddr4)
    (h5 : s.lasting.generation ≠ some .ddr5) :
    MemoryType.isLegacy (s.read page memoryTypeByte).1 = true ↔
      s.lasting.generation = some .ddr3 := by
  obtain ⟨-, o₂, -⟩ := offsets
  cases s with
  | flat stored pointer =>
      rw [read_flat, o₂]
      exact ⟨fun _ => rfl, fun _ => ht.2⟩
  | paged stored pointer => exact absurd rfl h4
  | hub h => exact absurd rfl h5
  | sensor => exact ht.elim

/-- A hub tells its memory type on its first page. -/
theorem isDdr5_read (ht : s.lasting.Recognisable) (hg : s.lasting.generation = some .ddr5)
    (hs : s.shown? page = some 0) :
    MemoryType.isDdr5 (s.read page (hubMemory ||| memoryTypeByte)).1 = true := by
  have hl : Generation.ddr5.locate? 2 = some ⟨0, hubMemory ||| memoryTypeByte⟩ := by decide
  have hread := Slave.read_location hg hl (.inr hs)
  unfold Lasting.Recognisable at ht
  rw [hg] at ht
  rw [hread]
  exact ht.2.2

end Lasting.Recognisable

namespace Binding

/-- What a session remembers of the modules is true, of a machine that it may rely on. -/
structure Informed (b : Binding) (g₀ : Segment) (faults : List Fault) (locked : Bool) (m : Memory)
    (p : Platform) : Prop where
  holds : b.Holds faults locked p
  knows : m.Knows g₀ p.segment

/-- The same, and the page that is relied on is the one that is shown. -/
structure Sound (b : Binding) (g₀ : Segment) (faults : List Fault) (locked : Bool) (m : Memory)
    (p : Platform) : Prop extends b.Informed g₀ faults locked m p where
  trusts : m.Trusts p.segment

variable {b : Binding} {g₀ : Segment} {faults : List Fault} {locked : Bool} {m : Memory}
  {p : Platform} {slot command page : UInt8}

theorem Informed.relatch (hi : b.Informed g₀ faults locked m p) (latch : Option PageLatch) :
    b.Informed g₀ faults locked { m with latch } p := ⟨hi.holds, hi.knows.relatch latch⟩

/-- No page is relied on after a failure. -/
theorem Informed.dropped (hi : b.Informed g₀ faults locked m p) :
    b.Sound g₀ faults locked { m with latch := none } p :=
  ⟨hi.relatch none, Memory.Trusts.dropped m p.segment⟩

theorem Informed.sound (hi : b.Informed g₀ faults locked m p) (ht : m.Trusts p.segment) :
    b.Sound g₀ faults locked m p := ⟨hi, ht⟩

theorem Informed.execute (hi : b.Informed g₀ faults locked m p) {p' : Platform} {t : Transfer}
    (hp' : b.Holds faults locked p')
    (hg : p'.segment = p.segment ∨ p'.segment = (p.segment.execute t).2) :
    b.Informed g₀ faults locked m p' := by
  refine ⟨hp', ?_⟩
  obtain hg | hg := hg
  · rw [hg]
    exact hi.knows
  · rw [hg]
    exact hi.knows.execute t

section

variable {p' : Platform} {tx : Transaction} {payload : Payload} {e : Error}

theorem Informed.succeeds (hi : b.Informed g₀ faults locked m p)
    (h : b.Succeeds faults locked tx p payload p') : b.Informed g₀ faults locked m p' :=
  hi.execute h.holds (.inr h.segment)

theorem Informed.fails (hi : b.Informed g₀ faults locked m p)
    (h : b.Fails faults locked tx p e p') : b.Informed g₀ faults locked m p' :=
  hi.execute h.holds h.segment

theorem Succeeds.still (h : b.Succeeds faults locked tx p payload p') (ht : tx.request.Still)
    (address : UInt8) : p'.segment.shown? address = p.segment.shown? address := by
  rw [h.segment, Segment.shown?_execute_still ht]

theorem Fails.still (h : b.Fails faults locked tx p e p') (ht : tx.request.Still)
    (address : UInt8) : p'.segment.shown? address = p.segment.shown? address := by
  obtain hg | hg := h.segment
  · rw [hg]
  · rw [hg, Segment.shown?_execute_still ht]

end

/-! ## Bytes -/

theorem plain_readByte (slot command : UInt8) :
    Plain (.readByteData (Spd.eepromAddress slot) command) := by
  refine ⟨?_, ⟨rfl, ?_⟩, rfl⟩
  · simp [Transaction.validate, Transaction.readByteData, Spd.eepromAddress_le, Transaction.fits]
  · simp [Transaction.readByteData]

theorem still_readByte (slot command : UInt8) :
    (Transaction.readByteData (Spd.eepromAddress slot) command).request.Still :=
  ⟨Spd.isLatch_eeprom slot, .inr (.inl ⟨rfl, .inl rfl⟩)⟩

/-- A byte that is read is the one that the slave answers with. -/
theorem completes_readByte {ok : UInt8 → Memory → Platform → Prop}
    {bad : Error → Memory → Platform → Prop} (hi : b.Informed g₀ faults locked m p)
    (hok : ∀ s p', b.Informed g₀ faults locked m p' →
      (∀ address, p'.segment.shown? address = p.segment.shown? address) → b.Reaches faults →
      p.segment.slave? (Spd.eepromAddress slot) = some s →
      ok (s.read p.segment.page command).1 m p')
    (hbad : ∀ e p', b.Informed g₀ faults locked m p' →
      (∀ address, p'.segment.shown? address = p.segment.shown? address) →
      (b.Reaches faults → p.segment.slave? (Spd.eepromAddress slot) = none) → bad e m p') :
    Completes (readByte b.link (Spd.eepromAddress slot) command) m p ok bad := by
  rw [readByte, completes_bind]
  have hplain := plain_readByte slot command
  have hstill := still_readByte slot command
  have hreply := Segment.execute_readByte p.segment slot command
  refine completes_send hi.holds (fun payload p' h => ?_) fun e p' h => ?_
  · obtain ⟨reply, hr, rfl⟩ := h.replied hplain
    rw [hreply] at hr
    obtain ⟨s, hs, rfl⟩ := Option.map_eq_some_iff.mp hr
    exact hok s p' (hi.succeeds h) (h.still hstill) h.reaches hs
  · refine hbad e p' (hi.fails h) (h.still hstill) fun hreaches => ?_
    have hr := h.unacknowledged hreaches hplain
    rw [hreply] at hr
    exact Option.map_eq_none_iff.mp hr

/-! ## Pages -/

/-- The pages of a generation. -/
def PageOf (g : Generation) (page : UInt8) : Prop :=
  match g with
  | .ddr3 => True
  | .ddr4 => page ≤ 1
  | .ddr5 => page &&& Spd.HubRegister.pageMask = page

/-- Every generation has a page 0. -/
theorem pageOf_zero : (g : Generation) → PageOf g 0
  | .ddr3 => trivial
  | .ddr4 => (by decide : (0 : UInt8) ≤ 1)
  | .ddr5 => (by decide : (0 : UInt8) &&& Spd.HubRegister.pageMask = 0)

/-- The module in a slot shows a page, if it is of this generation. -/
def Shows (g₀ : Segment) (g : Generation) (slot page : UInt8) (p : Platform) : Prop :=
  g₀.generation? (Spd.eepromAddress slot) = some g →
    p.segment.shown? (Spd.eepromAddress slot) = some page

theorem Shows.slave {g : Generation} {s : Slave} (h : Shows g₀ g slot page p)
    (hg : g₀.generation? (Spd.eepromAddress slot) = some g)
    (hs : p.segment.slave? (Spd.eepromAddress slot) = some s) :
    s.shown? p.segment.page = some page := by
  have hshown := h hg
  rwa [Segment.shown?, hs, Option.bind_some] at hshown

theorem plain_select {g : Generation} {tx : Transaction} (hp : PageOf g page)
    (ht : pageSelect? g (Spd.eepromAddress slot) page = some tx) : Plain tx := by
  cases g with
  | ddr3 => cases ht
  | ddr4 =>
      obtain rfl := Option.some.inj ht
      refine ⟨?_, ⟨rfl, ?_⟩, rfl⟩
      · have hle := (Spd.isLatch_pageLatch page hp).2.1
        simp [Transaction.validate, Transaction.writeByteData, hle, Transaction.fits]
      · simp [Transaction.writeByteData]
  | ddr5 =>
      obtain rfl := Option.some.inj ht
      refine ⟨?_, ⟨rfl, ?_⟩, rfl⟩
      · simp [Transaction.validate, Transaction.writeByteData, Spd.eepromAddress_le,
          Transaction.fits]
      · simp [Transaction.writeByteData]

theorem shows_select {g : Generation} {tx : Transaction} {p' : Platform} (hpage : PageOf g page)
    (ht : pageSelect? g (Spd.eepromAddress slot) page = some tx) (hk : m.Knows g₀ p.segment)
    (hg : p'.segment = (p.segment.execute tx.request).2)
    (hr : (p.segment.execute tx.request).1 ≠ none) : Shows g₀ g slot page p' := by
  intro hkind
  rw [← hk.generation] at hkind
  cases g with
  | ddr3 => cases ht
  | ddr4 =>
      obtain rfl := Option.some.inj ht
      rw [Segment.execute_selectDdr4 hpage] at hg
      rw [Segment.hasPaged_of_generation hkind, if_pos rfl] at hg
      rw [hg]
      exact Segment.shown_of_generation hkind
  | ddr5 =>
      obtain rfl := Option.some.inj ht
      obtain ⟨s, hs, hl⟩ := Segment.slave_of_generation hkind
      rw [Segment.execute_selectDdr5, hs] at hg
      rw [hg, Segment.shown?, Segment.slave?_attach, if_pos rfl, Option.bind_some,
        Segment.shown_select hl]
      exact congrArg some hpage

theorem trusts_of_shown (hl : m.latch = some ⟨Spd.eepromAddress slot, page⟩)
    (hs : p.segment.shown? (Spd.eepromAddress slot) = some page) : m.Trusts p.segment := by
  intro latch shown hl' hp
  rw [hl] at hl'
  cases hl'
  rw [hs] at hp
  exact (Option.some.inj hp).symm

theorem trusts_of_none (hl : m.latch = none) : m.Trusts p.segment := by
  intro latch shown hl' _
  rw [hl] at hl'
  cases hl'

theorem unanswered_select {g : Generation} {tx : Transaction} (hpage : PageOf g page)
    (ht : pageSelect? g (Spd.eepromAddress slot) page = some tx) (hk : m.Knows g₀ p.segment)
    (hr : (p.segment.execute tx.request).1 = none) :
    g₀.generation? (Spd.eepromAddress slot) ≠ some g := by
  intro hkind
  rw [← hk.generation] at hkind
  cases g with
  | ddr3 => cases ht
  | ddr4 =>
      obtain rfl := Option.some.inj ht
      rw [Segment.execute_selectDdr4 hpage, Segment.hasPaged_of_generation hkind, if_pos rfl] at hr
      cases hr
  | ddr5 =>
      obtain rfl := Option.some.inj ht
      obtain ⟨s, hs, -⟩ := Segment.slave_of_generation hkind
      rw [Segment.execute_selectDdr5, hs] at hr
      cases hr

/-- After a selection its page is relied on, and shown if the module is of that generation. -/
theorem completes_selectPage {g : Generation} {tx : Transaction}
    {ok : Unit → Memory → Platform → Prop} {bad : Error → Memory → Platform → Prop}
    (hpage : PageOf g page) (ht : pageSelect? g (Spd.eepromAddress slot) page = some tx)
    (hi : b.Informed g₀ faults locked m p)
    (hlatch : m.latch = some ⟨Spd.eepromAddress slot, page⟩ → Shows g₀ g slot page p)
    (hok : ∀ m' p', b.Informed g₀ faults locked m' p' →
      m'.latch = some ⟨Spd.eepromAddress slot, page⟩ → Shows g₀ g slot page p' → ok () m' p')
    (hbad : ∀ e m' p', b.Informed g₀ faults locked m' p' → m'.latch = none →
      (b.Reaches faults → g₀.generation? (Spd.eepromAddress slot) ≠ some g) → bad e m' p') :
    Completes (selectPage b.link g (Spd.eepromAddress slot) page) m p ok bad := by
  unfold selectPage
  rw [ht]
  dsimp only
  rw [completes_bind, completes_get]
  split
  · rename_i hl
    exact hok m p hi hl (hlatch hl)
  · rw [completes_bind, completes_outcome]
    have hplain := plain_select hpage ht
    refine completes_send hi.holds (fun payload p' h => ?_) fun e p' h => ?_
    · obtain ⟨reply, hr, -⟩ := h.replied hplain
      refine hok _ p' ((hi.succeeds h).relatch _) rfl ?_
      exact shows_select hpage ht hi.knows h.segment (by rw [hr]; exact Option.some_ne_none _)
    · refine hbad e _ p' ((hi.fails h).relatch none) rfl fun hreaches => ?_
      exact unanswered_select hpage ht hi.knows (h.unacknowledged hreaches hplain)

/-! ## Probes -/

theorem Informed.lasting {s : Slave} (hi : b.Informed g₀ faults locked m p)
    (hs : p.segment.slave? (Spd.eepromAddress slot) = some s) :
    g₀.lasting? (Spd.eepromAddress slot) = some s.lasting := by
  rw [← hi.knows.lasting, Segment.lasting?, hs, Option.map_some]

theorem Informed.generation {s : Slave} (hi : b.Informed g₀ faults locked m p)
    (hs : p.segment.slave? (Spd.eepromAddress slot) = some s) :
    g₀.generation? (Spd.eepromAddress slot) = s.lasting.generation := by
  rw [← hi.knows.generation, Segment.generation?_of_slave hs]

theorem generation_of_absent {g : Generation} (hi : b.Informed g₀ faults locked m p)
    (hs : p.segment.slave? (Spd.eepromAddress slot) = none) :
    g₀.generation? (Spd.eepromAddress slot) ≠ some g := by
  rw [← hi.knows.generation, Segment.generation?, Segment.lasting?, hs]
  exact fun h => by cases h

/-- The memory type is what is read of the byte that holds it, once its page is shown. -/
theorem code_of_read {s : Slave} {g : Generation} {location : SpdLocation}
    (hi : b.Informed g₀ faults locked m p)
    (hs : p.segment.slave? (Spd.eepromAddress slot) = some s)
    (hg : s.lasting.generation = some g) (hl : g.locate? 2 = some location)
    (hshown : g = .ddr3 ∨ s.shown? p.segment.page = some location.page) :
    g₀.code? slot = some (s.read p.segment.page location.offset).1 := by
  rw [Segment.code?, ← hi.knows.lasting, Segment.lasting?, hs, Option.map_some, Option.map_some,
    Slave.read_location hg hl hshown]
  rfl

/-- What the probe for a generation tells of the module in a slot. -/
structure Settles (g₀ : Segment) (slot : UInt8) (kind : Generation) (code? : Option UInt8) :
    Prop where
  found : code?.isSome = true ↔ g₀.generation? (Spd.eepromAddress slot) = some kind
  code : ∀ code, code? = some code → g₀.code? slot = some code

/-- It finds the module by the code that it reads. -/
theorem settles_of_read {kind : Generation} {accepts : UInt8 → Bool} {code : UInt8}
    (hfound : accepts code = true ↔ g₀.generation? (Spd.eepromAddress slot) = some kind)
    (hcode : g₀.generation? (Spd.eepromAddress slot) = some kind → g₀.code? slot = some code) :
    Settles g₀ slot kind (if accepts code then some code else none) := by
  cases ha : accepts code with
  | true =>
      have hkind := hfound.mp ha
      refine ⟨⟨fun _ => hkind, fun _ => rfl⟩, fun code' hc => ?_⟩
      cases hc
      exact hcode hkind
  | false =>
      rw [ha] at hfound
      exact ⟨⟨fun h => (by cases h), fun h => (by cases hfound.mpr h)⟩, fun _ hc => by cases hc⟩

theorem settles_none {kind : Generation}
    (h : g₀.generation? (Spd.eepromAddress slot) ≠ some kind) : Settles g₀ slot kind none :=
  ⟨⟨fun hs => (by cases hs), fun hk => absurd hk h⟩, fun _ hc => by cases hc⟩

/-- The page that is relied on is the one that is shown, or it is that of a hub in the slot, which
has a page register of its own. -/
def TrustsBut (g₀ : Segment) (slot : UInt8) (m : Memory) (p : Platform) : Prop :=
  m.Trusts p.segment ∨ g₀.generation? (Spd.eepromAddress slot) = some .ddr5

/-- Once a page of two-page EEPROMs was selected, nothing but a hub can show another. -/
theorem Shows.trustsBut (hs : Shows g₀ .ddr4 slot page p) (hk : m.Knows g₀ p.segment)
    (hl : m.latch = some ⟨Spd.eepromAddress slot, page⟩) : TrustsBut g₀ slot m p := by
  by_cases hhub : g₀.generation? (Spd.eepromAddress slot) = some .ddr5
  · exact .inr hhub
  · refine .inl fun latch shown hl' hp => ?_
    rw [hl] at hl'
    cases hl'
    obtain h4 | h5 := Segment.generation_of_shown hp
    · rw [hk.generation] at h4
      exact Option.some.inj (hp.symm.trans (hs h4))
    · rw [hk.generation] at h5
      exact absurd h5 hhub

theorem completes_probeDdr4 {ok : Option UInt8 → Memory → Platform → Prop}
    {bad : Error → Memory → Platform → Prop} (hg : g₀.Recognisable)
    (hi : b.Informed g₀ faults locked m p)
    (hok : ∀ r m' p', b.Informed g₀ faults locked m' p' → TrustsBut g₀ slot m' p' →
      Settles g₀ slot .ddr4 r → ok r m' p')
    (hbad : ∀ e m' p', b.Informed g₀ faults locked m' p' →
      (b.Reaches faults → g₀.generation? (Spd.eepromAddress slot) ≠ some .ddr4) → bad e m' p') :
    Completes (probeDdr4 b.link slot) m p ok bad := by
  have hquick : Plain (.quick (Spd.pageLatch 0) .write) := by
    exact ⟨rfl, ⟨rfl, by decide⟩, rfl⟩
  unfold probeDdr4
  rw [completes_bind]
  refine completes_send hi.holds (fun payload p₁ h => ?_) fun e p₁ h => ?_
  · obtain ⟨reply, hr, -⟩ := h.replied hquick
    have hi₁ := hi.succeeds h
    have hg₁ := h.segment
    have hpaged : p.segment.hasPaged = true := by
      refine Bool.of_not_eq_false fun hn => ?_
      rw [Segment.execute_quickLatch, hn] at hr
      cases hr
    rw [Segment.execute_quickLatch, hpaged, if_pos rfl] at hg₁
    rw [completes_bind]
    refine completes_selectPage (g := .ddr4) (by decide : (0 : UInt8) ≤ 1) rfl hi₁
      (fun _ hkind => ?_) (fun m₂ p₂ hi₂ hl₂ hs₂ => ?_)
      fun e m₂ p₂ hi₂ hl₂ hn => hbad e m₂ p₂ hi₂ hn
    · rw [← hi₁.knows.generation] at hkind
      rw [Segment.shown_of_generation hkind, hg₁]
    · rw [completes_bind]
      refine completes_readByte hi₂ (fun s p₃ hi₃ hshown _ hs => ?_) fun e p₃ hi₃ _ hnone => ?_
      · have ht := hg slot _ (hi₂.lasting hs)
        have hkind := hi₂.generation hs
        have hpage : s.lasting.generation = some .ddr4 → p₂.segment.page = 0 := fun h4 => by
          have hsh := hs₂.slave (hkind.trans h4) hs
          rw [Slave.shown_of_paged h4] at hsh
          exact Option.some.inj hsh
        refine hok _ m₂ p₃ hi₃ ((hs₂.trustsBut hi₂.knows hl₂).imp_left (·.still hshown)) ?_
        refine settles_of_read ?_ fun h4 => ?_
        · rw [hkind]
          exact ht.isDdr4_read hpage
        · exact code_of_read hi₂ hs (hkind.symm.trans h4) (by decide : Generation.ddr4.locate? 2 =
            some ⟨0, Spd.memoryTypeByte⟩) (.inr (hs₂.slave h4 hs))
      · exact hbad e m₂ p₃ hi₃ fun hc => generation_of_absent hi₂ (hnone hc)
  · refine hbad e m p₁ (hi.fails h) fun hc hkind => ?_
    have hr := h.unacknowledged hc hquick
    rw [← hi.knows.generation] at hkind
    rw [Segment.execute_quickLatch, Segment.hasPaged_of_generation hkind, if_pos rfl] at hr
    cases hr

/-- The page that a hub tells is the one that it shows. -/
theorem shown_of_register {s : Slave} {latch : UInt8} (h : s.lasting.generation = some .ddr5) :
    s.shown? latch =
      some ((s.read latch Spd.HubRegister.page).1 &&& Spd.HubRegister.pageMask) := by
  cases s with
  | hub h =>
      rw [Lasting.Recognisable.read_register (by decide)]
      rfl
  | flat => cases h
  | paged => cases h
  | sensor => cases h

theorem completes_probeDdr5 {ok : Option UInt8 → Memory → Platform → Prop}
    {bad : Error → Memory → Platform → Prop} (hg : g₀.Recognisable)
    (hi : b.Informed g₀ faults locked m p) (ht : TrustsBut g₀ slot m p)
    (h4 : b.Reaches faults → g₀.generation? (Spd.eepromAddress slot) ≠ some .ddr4)
    (hok : ∀ r m' p', b.Sound g₀ faults locked m' p' → Settles g₀ slot .ddr5 r → ok r m' p')
    (hbad : ∀ e m' p', b.Informed g₀ faults locked m' p' →
      (b.Reaches faults → g₀.generation? (Spd.eepromAddress slot) ≠ some .ddr5) → bad e m' p') :
    Completes (probeDdr5 b.link slot) m p ok bad := by
  unfold probeDdr5
  rw [completes_bind]
  refine completes_readByte hi (fun s p₁ hi₁ hshown₁ hreaches hs => ?_) fun e p₁ hi₁ _ hnone =>
    hbad e m p₁ hi₁ fun hc => generation_of_absent hi (hnone hc)
  have hkind := hi.generation hs
  have hhub := @Lasting.Recognisable.isHub_read s p.segment.page (hg slot _ (hi.lasting hs))
    (hkind ▸ h4 hreaches)
  split
  · rename_i hk
    have h5 := hkind.trans (hhub.mp hk)
    rw [completes_bind]
    refine completes_readByte hi₁ (fun s₁ p₂ hi₂ hshown₂ _ hs₁ => ?_) fun e p₂ hi₂ _ hnone =>
      hbad e m p₂ hi₂ fun hc => generation_of_absent hi₁ (hnone hc)
    have hkind₁ := hi₁.generation hs₁
    simp only [completes_bind, completes_step, lands_setLatch]
    refine completes_selectPage (g := .ddr5) (by decide : (0 : UInt8) &&& 0x07 = 0) rfl
      (hi₂.relatch _) (fun hl _ => ?_) (fun m₃ p₃ hi₃ hl₃ hs₃ => ?_)
      fun e m₃ p₃ hi₃ _ hn => hbad e m₃ p₃ hi₃ hn
    · have hread : (s₁.read p₁.segment.page Spd.HubRegister.page).1 &&&
          Spd.HubRegister.pageMask = 0 := congrArg PageLatch.page (Option.some.inj hl)
      rw [hshown₂, Segment.shown?, hs₁, Option.bind_some, shown_of_register (hkind₁.symm.trans h5),
        hread]
    · refine completes_readByte hi₃ (fun s₃ p₄ hi₄ hshown₄ _ hs₄ => ?_) fun e p₄ hi₄ _ hnone =>
        hbad e m₃ p₄ hi₄ fun hc => generation_of_absent hi₃ (hnone hc)
      have htell₃ := hg slot _ (hi₃.lasting hs₄)
      have hshows := hs₃.slave h5 hs₄
      have hg5 := (hi₃.generation hs₄).symm.trans h5
      refine hok _ m₃ p₄ (hi₄.sound (trusts_of_shown hl₃ ((hshown₄ _).trans (hs₃ h5)))) ?_
      refine settles_of_read ⟨fun _ => h5, fun _ => htell₃.isDdr5_read hg5 hshows⟩ fun _ => ?_
      exact code_of_read hi₃ hs₄ hg5 (by decide : Generation.ddr5.locate? 2 =
        some ⟨0, Spd.hubMemory ||| Spd.memoryTypeByte⟩) (.inr hshows)
  · rename_i hk
    have h5 : g₀.generation? (Spd.eepromAddress slot) ≠ some .ddr5 := fun h =>
      hk (hhub.mpr (hkind.symm.trans h))
    refine hok none m p₁ (hi₁.sound ?_) (settles_none h5)
    exact (ht.resolve_right h5).still hshown₁

theorem completes_probeLegacy {ok : Option UInt8 → Memory → Platform → Prop}
    {bad : Error → Memory → Platform → Prop} (hg : g₀.Recognisable)
    (hi : b.Sound g₀ faults locked m p)
    (h4 : b.Reaches faults → g₀.generation? (Spd.eepromAddress slot) ≠ some .ddr4)
    (h5 : b.Reaches faults → g₀.generation? (Spd.eepromAddress slot) ≠ some .ddr5)
    (hok : ∀ r m' p', b.Sound g₀ faults locked m' p' → Settles g₀ slot .ddr3 r → ok r m' p')
    (hbad : ∀ e m' p', b.Informed g₀ faults locked m' p' →
      (b.Reaches faults → g₀.generation? (Spd.eepromAddress slot) ≠ some .ddr3) → bad e m' p') :
    Completes (probeLegacy b.link slot) m p ok bad := by
  unfold probeLegacy
  rw [completes_bind]
  refine completes_readByte hi.toInformed (fun s p₁ hi₁ hshown hreaches hs => ?_)
    fun e p₁ hi₁ _ hnone => ?_
  · have hkind := hi.generation hs
    refine hok _ m p₁ (hi₁.sound (hi.trusts.still hshown)) (settles_of_read ?_ fun h3 => ?_)
    · rw [hkind]
      exact (hg slot _ (hi.lasting hs)).isLegacy_read (hkind ▸ h4 hreaches) (hkind ▸ h5 hreaches)
    · exact code_of_read hi.toInformed hs (hkind.symm.trans h3)
        (by decide : Generation.ddr3.locate? 2 = some ⟨0, Spd.memoryTypeByte⟩) (.inl rfl)
  · exact hbad e m p₁ hi₁ fun hc => generation_of_absent hi.toInformed (hnone hc)

theorem lands_firstFound_cons {g : Generation} {probe : Operation (Option UInt8)}
    {rest : List (Generation × Operation (Option UInt8))}
    {Q : Option (Generation × UInt8) → Memory → Platform → Prop}
    (h : Completes probe m p
      (fun code? m p => match code? with
        | some code => Q (some (g, code)) m p
        | none => Lands (firstFound rest) m p Q)
      fun _ m p => Lands (firstFound rest) { m with latch := none } p Q) :
    Lands (firstFound ((g, probe) :: rest)) m p Q := by
  rw [firstFound, lands_bind, completes_run]
  refine h.mono (fun code? m p h => ?_) fun e m p h => ?_
  · cases code? <;> exact h
  · exact h

/-- What is found is there. Where nothing is in the way, what is there is found. -/
structure Tells (b : Binding) (g₀ : Segment) (faults : List Fault) (slot : UInt8)
    (found? : Option (Generation × UInt8)) : Prop where
  found : ∀ g code, found? = some (g, code) →
    g₀.generation? (Spd.eepromAddress slot) = some g ∧ g₀.code? slot = some code
  none : b.Reaches faults → found? = none → g₀.generation? (Spd.eepromAddress slot) = none

theorem tells_some {g : Generation} {code : UInt8} (h : Settles g₀ slot g (some code)) :
    b.Tells g₀ faults slot (some (g, code)) where
  found _ _ hr := by
    cases hr
    exact ⟨h.found.mp rfl, h.code _ rfl⟩
  none _ hr := by cases hr

theorem tells_none (h : b.Reaches faults → ∀ g, g₀.generation? (Spd.eepromAddress slot) ≠ some g) :
    b.Tells g₀ faults slot none where
  found _ _ hr := by cases hr
  none hc _ := Option.eq_none_iff_forall_ne_some.mpr (h hc)

section ProbeSlot

variable {Q : Option (Generation × UInt8) → Memory → Platform → Prop}

/-- The last probe, of a slot that the others leave out. -/
theorem lands_probeLegacy (hg : g₀.Recognisable) (hi : b.Sound g₀ faults locked m p)
    (h4 : b.Reaches faults → g₀.generation? (Spd.eepromAddress slot) ≠ some .ddr4)
    (h5 : b.Reaches faults → g₀.generation? (Spd.eepromAddress slot) ≠ some .ddr5)
    (hQ : ∀ r m' p', b.Sound g₀ faults locked m' p' → b.Tells g₀ faults slot r → Q r m' p') :
    Lands (firstFound [(.ddr3, probeLegacy b.link slot)]) m p Q := by
  have hnone : (b.Reaches faults → g₀.generation? (Spd.eepromAddress slot) ≠ some .ddr3) →
      b.Tells g₀ faults slot none := fun h3 => tells_none fun hc g => by
    cases g with
    | ddr3 => exact h3 hc
    | ddr4 => exact h4 hc
    | ddr5 => exact h5 hc
  refine lands_firstFound_cons (completes_probeLegacy hg hi h4 h5 (fun r m' p' hi' hr => ?_)
    fun e m' p' hi' h3 => ?_)
  · cases r with
    | none => exact hQ none m' p' hi' (hnone fun _ hk => by cases hr.found.mpr hk)
    | some code => exact hQ _ m' p' hi' (tells_some hr)
  · exact hQ none _ p' hi'.dropped (hnone h3)

theorem lands_probeDdr5 (hg : g₀.Recognisable) (hi : b.Informed g₀ faults locked m p)
    (ht : TrustsBut g₀ slot m p)
    (h4 : b.Reaches faults → g₀.generation? (Spd.eepromAddress slot) ≠ some .ddr4)
    (hQ : ∀ r m' p', b.Sound g₀ faults locked m' p' → b.Tells g₀ faults slot r → Q r m' p') :
    Lands (firstFound [(.ddr5, probeDdr5 b.link slot), (.ddr3, probeLegacy b.link slot)]) m p
      Q := by
  refine lands_firstFound_cons (completes_probeDdr5 hg hi ht h4 (fun r m' p' hi' hr => ?_)
    fun e m' p' hi' h5 => ?_)
  · cases r with
    | none => exact lands_probeLegacy hg hi' h4 (fun _ hk => by cases hr.found.mpr hk) hQ
    | some code => exact hQ _ m' p' hi' (tells_some hr)
  · exact lands_probeLegacy hg hi'.dropped h4 h5 hQ

/-- A probe finds the module that is there. Where nothing is in the way, it does find it. Whatever
page was relied on before it, the one that is relied on afterwards is shown. -/
theorem lands_probeSlot (hg : g₀.Recognisable) (hi : b.Informed g₀ faults locked m p)
    (hQ : ∀ r m' p', b.Sound g₀ faults locked m' p' → b.Tells g₀ faults slot r → Q r m' p') :
    Lands (probeSlot b.link slot) m p Q := by
  refine lands_firstFound_cons (completes_probeDdr4 hg hi (fun r m' p' hi' ht' hr => ?_)
    fun e m' p' hi' h4 => ?_)
  · cases r with
    | none => exact lands_probeDdr5 hg hi' ht' (fun _ hk => by cases hr.found.mpr hk) hQ
    | some code =>
        refine hQ _ m' p' (hi'.sound (ht'.resolve_right ?_)) (tells_some hr)
        rw [hr.found.mp rfl]
        exact fun h => by cases h
  · have hdropped := Memory.Trusts.dropped m' p'.segment
    exact lands_probeDdr5 hg (hi'.relatch none) (.inl hdropped) h4 hQ

end ProbeSlot

end Binding

end DimmBus
