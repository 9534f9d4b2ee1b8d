import Mathlib.Data.List.Chain
import DimmBus.Proofs.Identification

/-!
# What reads put on the bus

Reads select a page exactly where another one is relied on. Which transactions that makes for a
sequence of reads is told by the reads alone.
-/

namespace DimmBus

open Session

/-! ## The traffic of a sequence of reads -/

/-- A read of one byte of a module. -/
structure Fetch where
  generation : Generation
  slot : UInt8
  address : UInt16

namespace Fetch

/-- The page to be shown, of a module that has pages. -/
def wanted? (f : Fetch) : Option PageLatch :=
  if f.generation.isPaged then
    some ⟨Spd.eepromAddress f.slot, f.generation.pageOf f.address⟩
  else none

/-- The write that shows it. Two-page EEPROMs listen to an address for each page, a hub has a
register for it. -/
def select? (f : Fetch) : Option LoggedTransfer :=
  match f.generation with
  | .ddr3 => none
  | .ddr4 => some ⟨0x36 + f.generation.pageOf f.address, .write, 0, .byteData⟩
  | .ddr5 => some ⟨Spd.eepromAddress f.slot, .write, 0x0B, .byteData⟩

/-- The read itself. -/
def byte (f : Fetch) : LoggedTransfer :=
  ⟨Spd.eepromAddress f.slot, .read, f.generation.offsetOf f.address, .byteData⟩

/-- The selection that it takes, given the page that is relied on. -/
def selection (f : Fetch) (relied : Option PageLatch) : List LoggedTransfer :=
  if f.wanted? = relied then [] else f.select?.toList

/-- The page that is relied on afterwards: that of the latest read of a module with pages. -/
def relied (f : Fetch) (before : Option PageLatch) : Option PageLatch := f.wanted?.or before

/-- What a sequence of reads puts on the bus. -/
def traffic : Option PageLatch → List Fetch → List LoggedTransfer
  | _, [] => []
  | relied, f :: fetches => f.selection relied ++ [f.byte] ++ traffic (f.relied relied) fetches

variable {f f' : Fetch} {fetches : List Fetch} {relied : Option PageLatch} {m : Memory}

theorem selection_eq_nil (h : f.wanted? = none ∨ f.wanted? = relied) : f.selection relied = [] := by
  unfold selection
  split
  · rfl
  · rename_i hne
    have hnone := h.resolve_right hne
    rcases f with ⟨g, slot, address⟩
    cases g with
    | ddr3 => rfl
    | ddr4 => cases hnone
    | ddr5 => cases hnone

/-- The page of a read is relied on after it. -/
theorem wanted_relied (f : Fetch) (before : Option PageLatch) :
    f.wanted? = none ∨ f.wanted? = f.relied before := by
  unfold relied
  cases f.wanted? with
  | none => exact .inl rfl
  | some latch => exact .inr rfl

theorem wanted?_of_paged (h : f.generation.isPaged = true) :
    f.wanted? = some ⟨Spd.eepromAddress f.slot, f.generation.pageOf f.address⟩ := if_pos h

theorem relied_of_paged (h : f.generation.isPaged = true) (before : Option PageLatch) :
    f.relied before = f.wanted? := by
  rw [relied, wanted?_of_paged h]
  rfl

theorem traffic_settled (hs : f.wanted? = none ∨ f.wanted? = relied)
    (h : ∀ f' ∈ fetches, f'.wanted? = f.wanted?) : traffic relied fetches = fetches.map byte := by
  induction fetches generalizing relied with
  | nil => rfl
  | cons f' fetches ih =>
      obtain ⟨hf', hrest⟩ := List.forall_mem_cons.mp h
      have hnone : f'.selection relied = [] := selection_eq_nil (hf' ▸ hs)
      have hkept : f.wanted? = none ∨ f.wanted? = f'.relied relied := hf' ▸ f'.wanted_relied relied
      rw [traffic, hnone, ih hkept hrest]
      rfl

/-- Reads in one page cost one selection at most. -/
theorem traffic_of_page (relied : Option PageLatch)
    (h : ∀ f' ∈ fetches, f'.wanted? = f.wanted?) :
    traffic relied (f :: fetches) = f.selection relied ++ [f.byte] ++ fetches.map byte := by
  rw [traffic, traffic_settled (f.wanted_relied relied) h]

theorem eepromAddress_ne {slot slot' : UInt8} (hs : slot.toNat < Spd.slotCount)
    (hs' : slot'.toNat < Spd.slotCount) (hne : slot ≠ slot') :
    Spd.eepromAddress slot ≠ Spd.eepromAddress slot' := by
  have hback : ∀ slot : UInt8, slot.toNat < Spd.slotCount →
      Spd.eepromAddress slot - 0x50 = slot := forall_byte (by decide +kernel)
  intro h
  refine hne ?_
  rw [← hback slot hs, h, hback slot' hs']

/-- Reads that go from module to module cost a selection each. -/
theorem traffic_of_turns (relied : Option PageLatch)
    (hp : ∀ f' ∈ f :: fetches, f'.generation.isPaged = true ∧ f'.slot.toNat < Spd.slotCount)
    (hc : (f :: fetches).IsChain fun f f' => f.slot ≠ f'.slot) :
    traffic relied (f :: fetches) = f.selection relied ++ [f.byte] ++
      fetches.flatMap fun f' => f'.select?.toList ++ [f'.byte] := by
  induction fetches generalizing f relied with
  | nil => rfl
  | cons f' fetches ih =>
      obtain ⟨⟨hf, hslot⟩, hrest⟩ := List.forall_mem_cons.mp hp
      obtain ⟨hf', hslot'⟩ := hrest f' List.mem_cons_self
      obtain ⟨hne, hchain⟩ := List.isChain_cons_cons.mp hc
      have hother : f'.wanted? ≠ f.relied relied := by
        rw [relied_of_paged hf, wanted?_of_paged hf, wanted?_of_paged hf']
        intro h
        exact eepromAddress_ne hslot' hslot hne.symm (congrArg PageLatch.slave (Option.some.inj h))
      have hselection : f'.selection (f.relied relied) = f'.select?.toList := if_neg hother
      rw [traffic, ih _ hrest hchain, hselection, List.flatMap_cons]

/-- The module is known and has the address. -/
structure Ready (f : Fetch) (m : Memory) : Prop where
  known : m.Has f.slot f.generation
  inside : f.address < f.generation.size

theorem Ready.slot_lt (h : f.Ready m) : f.slot.toNat < Spd.slotCount := by
  obtain ⟨found, hfound, -⟩ := Option.map_eq_some_iff.mp h.known
  exact Memory.slot_lt_of_module? hfound

theorem Ready.locate (h : f.Ready m) : Session.locate f.generation f.address =
    .ok ⟨f.generation.pageOf f.address, f.generation.offsetOf f.address⟩ := by
  rw [Session.locate, Generation.locate?, if_pos h.inside]

end Fetch

/-- What the session does for a page is what the module needs. -/
theorem Fetch.pageSelect?_cases (f : Fetch) :
    (pageSelect? f.generation (Spd.eepromAddress f.slot) (f.generation.pageOf f.address) = none ∧
      f.wanted? = none) ∨
    ∃ tx, pageSelect? f.generation (Spd.eepromAddress f.slot) (f.generation.pageOf f.address) =
        some tx ∧ tx.hasCommand = true ∧ f.select? = some tx.request.entry ∧
      f.wanted? = some ⟨Spd.eepromAddress f.slot, f.generation.pageOf f.address⟩ := by
  rcases f with ⟨g, slot, address⟩
  cases g with
  | ddr3 => exact .inl ⟨rfl, rfl⟩
  | ddr4 => exact .inr ⟨_, rfl, rfl, rfl, rfl⟩
  | ddr5 => exact .inr ⟨_, rfl, rfl, rfl, rfl⟩

/-! ## Transactions that are logged -/

namespace Binding

variable {b : Binding} {g₀ : Segment} {locked : Bool} {m : Memory} {p : Platform}
  {log : List LoggedTransfer} {slot : UInt8} {α : Type}

/-- What a session remembers of the modules is true, no fault is there, and these transactions have
reached the bus. -/
structure Logged (b : Binding) (g₀ : Segment) (locked : Bool) (m : Memory)
    (log : List LoggedTransfer) (p : Platform) : Prop extends b.Informed g₀ [] locked m p where
  logged : p.counters.log.toList = log

theorem Logged.holding (hi : b.Logged g₀ locked m log p) (locked' : Bool) {k : Counters}
    (hk : k.log = p.counters.log) : b.Logged g₀ locked' m log (p.holding locked' k) :=
  ⟨hi.toInformed.holding locked' k, (congrArg Array.toList hk).trans hi.logged⟩

theorem Logged.relatch (hi : b.Logged g₀ locked m log p) (latch : Option PageLatch) :
    b.Logged g₀ locked { m with latch } log p := ⟨hi.toInformed.relatch latch, hi.logged⟩

/-- A plain transaction that somebody acknowledges is logged once. -/
theorem completes_send_logged {tx : Transaction} {reply : Reply}
    {ok : Payload → Memory → Platform → Prop} {bad : Error → Memory → Platform → Prop}
    (ha : b.link.controller.Attends) (hi : b.Logged g₀ locked m log p) (ht : Plain tx)
    (hc : tx.hasCommand = true) (hr : (p.segment.execute tx.request).1 = some reply)
    (hok : ∀ p', b.Logged g₀ locked m (log ++ [tx.request.entry]) p' → ok reply.payload m p') :
    Completes (send b.link tx) m p ok bad := by
  have hp := hi.holds
  have haccepts := b.accepts_of_plain ht
  rw [send, completes_bind]
  refine completes_accept (fun _ => ?_) fun _ hn => absurd haccepts hn
  rw [completes_access, Attempt.Ends]
  have hh := Controller.handled (b.wired.stands hp.stands) (b.fits.stands hp.stands) hp.tidy
    haccepts.1 haccepts.2
  generalize (b.link.controller.transfer tx).run.run Platform.answer p = out at hh ⊢
  obtain ⟨r, p'⟩ := out
  obtain ⟨hreported, hsegment, t, hcarries, hlog⟩ :=
    hh.answered (b.wired.stands hp.stands) hp.faults ha
  have hp' : b.Holds [] locked p' :=
    ⟨hp.stands.trans hh.stands, hh.tidy, hh.faults.trans hp.faults, hh.lock.trans hp.lock⟩
  rw [hr, Transaction.Reported, ht.pec, Bool.false_and, if_neg Bool.false_ne_true] at hreported
  obtain rfl : r = .ok reply.payload := hreported (callsLatch_of_plain ht)
  have hentry : t.entry = tx.request.entry := by
    simp only [Transfer.entry, hcarries.slave, hcarries.direction, hcarries.command hc,
      hcarries.protocol]
    rfl
  refine hok p' ⟨hi.execute hp' (.inr hsegment), ?_⟩
  have hpush := congrArg Array.toList hlog
  rw [Array.toList_push, hi.logged, hentry] at hpush
  exact hpush

theorem completes_readByte_logged {command : UInt8} {s : Slave}
    {ok : UInt8 → Memory → Platform → Prop} {bad : Error → Memory → Platform → Prop}
    (ha : b.link.controller.Attends) (hi : b.Logged g₀ locked m log p)
    (hs : p.segment.slave? (Spd.eepromAddress slot) = some s)
    (hok : ∀ value p', b.Logged g₀ locked m
      (log ++ [⟨Spd.eepromAddress slot, .read, command, .byteData⟩]) p' → ok value m p') :
    Completes (readByte b.link (Spd.eepromAddress slot) command) m p ok bad := by
  rw [readByte, completes_bind]
  have hreply := Segment.execute_readByte p.segment slot command
  rw [hs] at hreply
  exact completes_send_logged ha hi (plain_readByte slot command) rfl hreply fun p' hi' =>
    hok _ p' hi'

/-! ## Reads that are logged -/

section

variable {f : Fetch} {ok : α → Memory → Platform → Prop} {bad : Error → Memory → Platform → Prop}
  (ha : b.link.controller.Attends)
  (hk : g₀.generation? (Spd.eepromAddress f.slot) = some f.generation)

include ha hk

/-- A page is selected where it is not relied on, and is relied on afterwards. -/
theorem completes_selectPage_logged {ok : Unit → Memory → Platform → Prop}
    (hinside : f.address < f.generation.size) (hi : b.Logged g₀ locked m log p)
    (hok : ∀ p', b.Logged g₀ locked { m with latch := f.relied m.latch }
      (log ++ f.selection m.latch) p' → ok () { m with latch := f.relied m.latch } p') :
    Completes (selectPage b.link f.generation (Spd.eepromAddress f.slot)
      (f.generation.pageOf f.address)) m p ok bad := by
  have hsame : f.relied m.latch = m.latch → f.selection m.latch = [] → ok () m p := fun hl hs => by
    have hmemory : ({ m with latch := f.relied m.latch } : Memory) = m := by rw [hl]
    rw [hmemory, hs, List.append_nil] at hok
    exact hok p hi
  unfold selectPage
  obtain ⟨ht, hw⟩ | ⟨tx, ht, hcommand, hselect, hw⟩ := f.pageSelect?_cases
  · rw [ht]
    exact hsame (by rw [Fetch.relied, hw, Option.none_or]) (Fetch.selection_eq_nil (.inl hw))
  · rw [ht]
    dsimp only
    rw [completes_bind, completes_get]
    have hrelied : f.relied m.latch = f.wanted? := by rw [Fetch.relied, hw, Option.some_or]
    split
    · rename_i hl
      exact hsame (by rw [hrelied, hw, hl]) (Fetch.selection_eq_nil (.inr (hw.trans hl.symm)))
    · rename_i hl
      have hlocate : f.generation.locate? f.address =
          some ⟨f.generation.pageOf f.address, f.generation.offsetOf f.address⟩ := if_pos hinside
      have hpage := pageOf_location hlocate
      have hselection : f.selection m.latch = [tx.request.entry] := by
        rw [Fetch.selection, if_neg (hw ▸ fun h => hl h.symm), hselect, Option.toList_some]
      cases hr : (p.segment.execute tx.request).1 with
      | none => exact absurd hk (unanswered_select hpage ht hi.knows hr)
      | some reply =>
          rw [completes_bind, completes_outcome]
          refine completes_send_logged ha hi (plain_select hpage ht) hcommand hr fun p' hi' => ?_
          rw [hrelied, hw, hselection] at hok
          exact hok p' (hi'.relatch _)

theorem completes_readAttempt_logged {ok : UInt8 → Memory → Platform → Prop}
    (hinside : f.address < f.generation.size) (hi : b.Logged g₀ false m log p)
    (hok : ∀ value p', b.Logged g₀ false { m with latch := f.relied m.latch }
      (log ++ (f.selection m.latch ++ [f.byte])) p' →
        ok value { m with latch := f.relied m.latch } p') :
    Completes (readAttempt b.link f.generation (Spd.eepromAddress f.slot)
      ⟨f.generation.pageOf f.address, f.generation.offsetOf f.address⟩) m p ok bad := by
  unfold readAttempt
  have hfree : ¬(p.lockHeld = true ∨ p.has .lockContended = true) := by
    rw [hi.holds.lock, Platform.has, hi.holds.faults]
    exact fun h => h.elim (fun h => by cases h) fun h => by cases h
  refine completes_locked_logged (fun hwhy => absurd hwhy hfree) fun _ _ k hlog => ?_
  rw [completes_bind]
  refine completes_selectPage_logged ha hk hinside (hi.holding true hlog) fun p₁ hi₁ => ?_
  have hk₁ := hk
  rw [← hi₁.knows.generation] at hk₁
  obtain ⟨s, hs, -⟩ := Segment.slave_of_generation hk₁
  refine completes_readByte_logged ha hi₁ hs fun value p₂ hi₂ k hlog => ?_
  rw [List.append_assoc] at hi₂
  exact hok value _ (hi₂.holding false hlog)

end

/-- A read succeeds at the first attempt. -/
theorem completes_readSpd_logged {f : Fetch} {ok : UInt8 → Memory → Platform → Prop}
    {bad : Error → Memory → Platform → Prop} (ha : b.link.controller.Attends) (hf : f.Ready m)
    (hi : b.Logged g₀ false m log p)
    (hok : ∀ value p', b.Logged g₀ false { m with latch := f.relied m.latch }
      (log ++ (f.selection m.latch ++ [f.byte])) p' →
        ok value { m with latch := f.relied m.latch } p') :
    Completes (readSpd b.link f.slot f.address) m p ok bad := by
  obtain ⟨found, hfound, hg⟩ := Option.map_eq_some_iff.mp hf.known
  have hk := hi.knows.modules f.slot found hfound
  unfold readSpd
  rw [completes_known hfound, completes_bind]
  rw [hg] at hk ⊢
  rw [hf.locate, completes_ofExcept_ok, completes_adapt]
  refine completes_retryingWithin (I := fun m' p' => m' = m ∧ p' = p) _ ?_ ⟨rfl, rfl⟩
  rintro _ _ ⟨rfl, rfl⟩
  exact completes_readAttempt_logged ha hk hf.inside hi hok

end Binding

/-! ## Sequences of reads -/

/-- The reads as jobs of a session. -/
def Fetch.moves (fetches : List Fetch) : List Move :=
  fetches.map fun f => .job (.read f.slot f.address)

theorem Binding.logged_after {b : Binding} {g₀ : Segment} (ha : b.link.controller.Attends)
    {fetches : List Fetch} {w : Bench} {log : List LoggedTransfer} (hl : w.session.link = b.link)
    (hi : b.Logged g₀ false w.session.memory log w.machine)
    (hf : ∀ f ∈ fetches, f.Ready w.session.memory) :
    (w.after (Fetch.moves fetches)).machine.counters.log.toList =
      log ++ Fetch.traffic w.session.memory.latch fetches := by
  -- A read leaves the modules known, so that the others are still ready; only the page changes.
  induction fetches generalizing w log with
  | nil => exact hi.logged.trans (List.append_nil log).symm
  | cons f fetches ih =>
      obtain ⟨hready, hrest⟩ := List.forall_mem_cons.mp hf
      have hread : Lands ((Job.read f.slot f.address).work w.session.link) w.session.memory
          w.machine fun _ m p => m = { w.session.memory with
              latch := f.relied w.session.memory.latch } ∧
            b.Logged g₀ false m (log ++ (f.selection w.session.memory.latch ++ [f.byte])) p := by
        rw [hl, Job.work, lands_bind, completes_run]
        exact completes_readSpd_logged ha hready hi fun _ _ hi' => ⟨rfl, hi'⟩
      obtain ⟨⟨hm, hi'⟩, hlink⟩ := Bench.lands_perform hread
      have hstill : ∀ f' ∈ fetches,
          f'.Ready (w.perform (Job.read f.slot f.address).work).2.session.memory := fun f' hf' => by
        rw [hm]
        exact ⟨(hrest f' hf').known, (hrest f' hf').inside⟩
      have hafter := ih (hlink.trans hl) hi' hstill
      rw [hm, List.append_assoc] at hafter
      exact hafter

/-- Reads of modules that are known, on a machine without faults and after any history, put on the
bus what `Fetch.traffic` tells: in front of the read itself, a selection of its page if the module
has pages and another one is relied on. Further reads of one page need no selection, and those that
go from module to module need one each. -/
theorem reads_select_pages {p : Platform} (ha : p.Assembled) {segment : Segment}
    (hs : segment.Recognisable) (hpage : segment.page ≤ 1) {config : Config} {w : Bench}
    (hw : w.StartedOn { p with segment } config) (hport : config.piix4Port = 0)
    (hpoll : (config.poll w.session.link.controller.family).retries ≠ 0) (moves : List Move)
    (hclear : (w.after moves).machine.faults = []) (fetches : List Fetch)
    (hfetches : ∀ f ∈ fetches, f.Ready (w.after moves).session.memory) :
    let v := w.after moves
    let latch := v.session.memory.latch
    let logged := v.machine.counters.log.toList
    let later := (v.after (Fetch.moves fetches)).machine.counters.log.toList
    later = logged ++ Fetch.traffic latch fetches ∧
    ∀ first rest, fetches = first :: rest →
      ((∀ f ∈ rest, f.wanted? = first.wanted?) → later =
        logged ++ (first.selection latch ++ [first.byte] ++ rest.map Fetch.byte)) ∧
      ((∀ f ∈ fetches, f.generation.isPaged = true) →
        (fetches.IsChain fun f f' => f.slot ≠ f'.slot) → later =
          logged ++ (first.selection latch ++ [first.byte] ++
            rest.flatMap fun f => f.select?.toList ++ [f.byte])) := by
  obtain ⟨b, haware, hheld, hattends⟩ := Binding.exists_attending ha hpage hw hport hpoll
  obtain ⟨hlink, hi⟩ := haware.knowing.after hs hheld moves
  rw [hclear] at hi
  have hlog := Binding.logged_after hattends hlink ⟨hi, rfl⟩ hfetches
  refine ⟨hlog, ?_⟩
  rintro first rest rfl
  refine ⟨fun hsame => ?_, fun hpaged hturns => ?_⟩
  · rw [hlog, Fetch.traffic_of_page _ hsame]
  · rw [hlog, Fetch.traffic_of_turns _ (fun f hf => ⟨hpaged f hf, ?_⟩) hturns]
    exact (hfetches f hf).slot_lt

/-- An EEPROM with two pages, a flat one and a hub by turns. -/
theorem reads_select_pages_misleading : ∃ w : Bench,
    w.StartedOn { Platform.intelSample with segment := misleadingSegment } {} ∧
    let v := w.after [.job (.probe 0), .job (.probe 1), .job (.probe 2)]
    let fetches : List Fetch := [⟨.ddr4, 0, 0x1FF⟩, ⟨.ddr3, 2, 0x07⟩, ⟨.ddr4, 0, 0x100⟩,
      ⟨.ddr5, 1, 0x155⟩, ⟨.ddr5, 1, 0x17F⟩]
    (v.after (Fetch.moves fetches)).machine.counters.log.toList = v.machine.counters.log.toList ++
      [⟨0x37, .write, 0, .byteData⟩, ⟨0x50, .read, 0xFF, .byteData⟩,
        ⟨0x52, .read, 0x07, .byteData⟩, ⟨0x50, .read, 0x00, .byteData⟩,
        ⟨0x51, .write, 0x0B, .byteData⟩, ⟨0x51, .read, 0xD5, .byteData⟩,
        ⟨0x51, .read, 0xFF, .byteData⟩] := by
  have hrun : (Bench.started? { Platform.intelSample with segment := misleadingSegment }).any
      (fun w =>
        let v := w.after [.job (.probe 0), .job (.probe 1), .job (.probe 2)]
        v.machine.faults == [] && v.session.memory.latch == some ⟨0x52, 0⟩ &&
          [0, 1, 2].map (fun slot => (v.session.module? slot).map (·.generation)) ==
            [some .ddr4, some .ddr5, some .ddr3]) = true := by
    decide +kernel
  obtain ⟨w, hw, hrun⟩ := (Option.any_eq_true _ _).mp hrun
  simp only [Bool.and_eq_true, beq_iff_eq, List.map_cons, List.map_nil, List.cons.injEq,
    and_true] at hrun
  obtain ⟨⟨hclear, hlatch⟩, h₀, h₁, h₂⟩ := hrun
  have hw := Bench.startedOn_of_started hw
  have hpage : misleadingSegment.page ≤ 1 := (by decide : (1 : UInt8) ≤ 1)
  have hready : ∀ f ∈ ([⟨.ddr4, 0, 0x1FF⟩, ⟨.ddr3, 2, 0x07⟩, ⟨.ddr4, 0, 0x100⟩, ⟨.ddr5, 1, 0x155⟩,
      ⟨.ddr5, 1, 0x17F⟩] : List Fetch), f.Ready (w.after [.job (.probe 0), .job (.probe 1),
        .job (.probe 2)]).session.memory := by
    simp only [List.forall_mem_cons, List.not_mem_nil, false_implies, implies_true, and_true]
    exact ⟨⟨h₀, by decide⟩, ⟨h₂, by decide⟩, ⟨h₀, by decide⟩, ⟨h₁, by decide⟩, ⟨h₁, by decide⟩⟩
  have hreads := (reads_select_pages Platform.hosted_intelSample.assembled
    recognisable_misleadingSegment hpage hw rfl (Config.retries_default _) _ hclear _ hready).1
  rw [hlatch] at hreads
  exact ⟨w, hw, hreads⟩

end DimmBus
