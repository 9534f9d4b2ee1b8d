import DimmBus.Proofs.DumpLookup
import DimmBus.Proofs.Machines
import DimmBus.Proofs.SlotTable
import DimmBus.Proofs.SoundReads

/-!
# Dumps

A dump holds the bytes of a module at the addresses that it covers, or fails as its first failing
read does.
-/

namespace DimmBus

open Session

/-! ## The addresses that a dump covers -/

namespace Generation

/-- Whether a dump of the module goes over an address. -/
def Covers (g : Generation) (mode : DumpMode) (address : UInt16) : Prop :=
  match mode with
  | .full => address < g.size
  | .compact => ∃ range ∈ g.compactRanges, range.1 ≤ address ∧ address ≤ range.2

variable {g : Generation} {mode : DumpMode} {address first last : UInt16}

theorem mem_span : address ∈ span first last ↔ first ≤ address ∧ address ≤ last := by
  have ha := address.toNat_lt
  have hl := last.toNat_lt
  rw [span, List.mem_map, UInt16.le_iff_toNat_le, UInt16.le_iff_toNat_le]
  constructor
  · rintro ⟨n, hn, rfl⟩
    rw [List.mem_range'_1] at hn
    rw [UInt16.toNat_ofNat']
    omega
  · rintro ⟨hfirst, hlast⟩
    exact ⟨address.toNat, List.mem_range'_1.mpr (by omega), UInt16.ofNat_toNat⟩

theorem mem_covered : address ∈ g.covered mode ↔ g.Covers mode address := by
  cases mode with
  | compact => simp only [covered, Covers, List.mem_flatMap, mem_span]
  | full =>
      have ha := address.toNat_lt
      rw [covered, Covers, List.mem_map, UInt16.lt_iff_toNat_lt]
      constructor
      · rintro ⟨n, hn, rfl⟩
        rw [List.mem_range] at hn
        rw [UInt16.toNat_ofNat']
        exact Nat.lt_of_le_of_lt (Nat.mod_le _ _) hn
      · intro hlt
        exact ⟨address.toNat, List.mem_range.mpr hlt, UInt16.ofNat_toNat⟩

theorem pairwise_map_ofNat {ns : List Nat} (hs : ns.Pairwise (· < ·)) (hlt : ∀ n ∈ ns, n < 65536) :
    (ns.map UInt16.ofNat).Pairwise (· < ·) := by
  rw [List.pairwise_map]
  refine hs.imp_of_mem fun {n n'} hn hn' h => ?_
  have hn := hlt n hn
  have hn' := hlt n' hn'
  rw [UInt16.lt_iff_toNat_lt, UInt16.toNat_ofNat', UInt16.toNat_ofNat']
  omega

/-- The addresses ascend. -/
theorem pairwise_covered (g : Generation) (mode : DumpMode) :
    (g.covered mode).Pairwise (· < ·) := by
  cases mode with
  | full =>
      have hsize := g.size.toNat_lt
      refine pairwise_map_ofNat List.pairwise_lt_range fun n hn => ?_
      rw [List.mem_range] at hn
      omega
  | compact =>
      have hranges : g.compactRanges.Pairwise fun range range' => range.2 < range'.1 := by
        cases g <;> decide
      refine List.pairwise_flatMap.mpr ⟨fun range _ => ?_, hranges.imp fun h => ?_⟩
      · have hlast := range.2.toNat_lt
        refine pairwise_map_ofNat (List.pairwise_lt_range' ..) fun n hn => ?_
        rw [List.mem_range'_1] at hn
        omega
      · intro a ha a' ha'
        rw [mem_span] at ha ha'
        exact UInt16.lt_of_le_of_lt ha.2 (UInt16.lt_of_lt_of_le h ha'.1)

theorem Covers.lt_size (h : g.Covers mode address) : address < g.size := by
  cases mode with
  | full => exact h
  | compact =>
      obtain ⟨range, hr, -, hle⟩ := h
      have hranges : g.compactRanges.all (fun range => decide (range.2 < g.size)) = true := by
        cases g <;> decide
      exact UInt16.lt_of_le_of_lt hle (of_decide_eq_true (List.all_eq_true.mp hranges range hr))

end Generation

/-! ## On any machine -/

namespace Session

variable {σ α : Type} {answer : (request : Request) → σ → request.Answer × σ} {link : Link}
  {slot : UInt8} {w w' : Memory × σ}

theorem Keeps.runOn {P : Memory → Prop} {x : Operation α} (hx : Keeps link P x)
    (answer : (request : Request) → σ → request.Answer × σ) (hw : P w.1) :
    P (runOn answer x w).2.1 := by
  have hrun : Scripted link.controller anything false false (.of P) x.run fun _ => .of P :=
    hx.run.mono (fun _ _ h => h) fun r m past h => by cases r <;> exact h
  exact (hrun.yields hw).run answer w.2

/-- Reads of addresses, one after the other, that all succeed. -/
inductive Reads (answer : (request : Request) → σ → request.Answer × σ) (link : Link)
    (slot : UInt8) : Memory × σ → List (UInt16 × UInt8) → Memory × σ → Prop
  | none {w : Memory × σ} : Reads answer link slot w [] w
  | more {w w₁ w₂ : Memory × σ} {address : UInt16} {value : UInt8} {rest : List (UInt16 × UInt8)}
      (first : runOn answer (readSpd link slot address) w = (.ok value, w₁))
      (others : Reads answer link slot w₁ rest w₂) :
      Reads answer link slot w ((address, value) :: rest) w₂

/-- Of the addresses read in turn, this one is the first to fail, and the last that is tried. -/
def FailsAt (answer : (request : Request) → σ → request.Answer × σ) (link : Link) (slot : UInt8)
    (w : Memory × σ) (addresses : List UInt16) (address : UInt16) (e : Error)
    (w' : Memory × σ) : Prop :=
  ∃ read untried w₁, addresses = read.map Prod.fst ++ address :: untried ∧
    Reads answer link slot w read w₁ ∧
    runOn answer (readSpd link slot address) w₁ = (.error e, w')

theorem Reads.failsAt {w₁ : Memory × σ} {address address' : UInt16} {value : UInt8}
    {addresses : List UInt16} {e : Error}
    (first : runOn answer (readSpd link slot address) w = (.ok value, w₁))
    (h : FailsAt answer link slot w₁ addresses address' e w') :
    FailsAt answer link slot w (address :: addresses) address' e w' := by
  obtain ⟨read, untried, w₂, rfl, hread, hfail⟩ := h
  exact ⟨(address, value) :: read, untried, w₂, rfl, .more first hread, hfail⟩

/-- Reading all is reading each in turn up to the first failure. -/
theorem runOn_readAll (entries : Array (UInt16 × UInt8)) (addresses : List UInt16) :
    (∃ read w', read.map Prod.fst = addresses ∧ Reads answer link slot w read w' ∧
      runOn answer (readAll link slot entries addresses) w = (.ok (entries ++ read.toArray), w')) ∨
    ∃ address e w', FailsAt answer link slot w addresses address e w' ∧
      runOn answer (readAll link slot entries addresses) w = (.error e, w') := by
  -- What has been read is handed on, so that the claim is about any bytes in front.
  induction addresses generalizing entries w with
  | nil => exact .inl ⟨[], w, rfl, .none, by rw [readAll, runOn_pure, Array.append_empty]⟩
  | cons address rest ih =>
      rw [readAll, runOn_bind]
      rcases hfirst : runOn answer (readSpd link slot address) w with ⟨e | value, w₁⟩
      · exact .inr ⟨address, e, w₁, ⟨[], rest, w, rfl, .none, hfirst⟩, rfl⟩
      · obtain ⟨read, w₂, hmap, hread, hrun⟩ | ⟨address', e, w₂, hfail, hrun⟩ :=
          @ih w₁ (entries.push (address, value))
        · refine .inl ⟨(address, value) :: read, w₂, ?_, .more hfirst hread, hrun.trans ?_⟩
          · rw [List.map_cons, hmap]
          · simp
        · exact .inr ⟨address', e, w₂, Reads.failsAt hfirst hfail, hrun⟩

/-- A module that has been found stays found. -/
theorem Reads.has {g : Generation} {read : List (UInt16 × UInt8)}
    (h : Reads answer link slot w read w') (hw : w.1.Has slot g) : w'.1.Has slot g := by
  induction h with
  | none => exact hw
  | @more w w₁ w₂ address value rest first others ih =>
      have hkeeps : Keeps link (Memory.Has slot g) (readSpd link slot address) :=
        keeps_readSpd (Memory.stable_has slot g) address
      have hkept := hkeeps.runOn answer hw
      rw [first] at hkept
      exact ih hkept

theorem has_of_probe {g : Generation}
    (h : runOn answer (step (probe link slot)) w = (.ok (some g), w')) : w'.1.Has slot g := by
  have hyields := (@scripted_probe link slot _ (Memory.enduring_true slot).toStable).yields
    (m := w.1) trivial
  have hrun := (hyields.run answer w.2).2 g
  rw [runOn_step] at h
  obtain ⟨hfound, rfl⟩ := Prod.mk.inj h
  exact hrun (Except.ok.inj hfound)

/-- A read of a module that is known fails with the address that is read. -/
theorem error_of_known {g : Generation} {address : UInt16} {e : Error} (hw : w.1.Has slot g)
    (ha : address < g.size) (h : runOn answer (readSpd link slot address) w = (.error e, w')) :
    ∃ cause : Error, e = cause.atSpd slot address .byteData := by
  obtain ⟨found, hfound, rfl⟩ := Option.map_eq_some_iff.mp hw
  rw [runOn_readSpd_known hfound ha] at h
  obtain ⟨hr, -⟩ := Prod.mk.inj h
  generalize (runOn answer (retrying link (readAttempt link found.generation
    (Spd.eepromAddress slot) ⟨found.generation.pageOf address,
      found.generation.offsetOf address⟩)) w).1 = r at hr
  cases r with
  | ok value => cases hr
  | error cause => exact ⟨cause, (Except.error.inj hr).symm⟩

/-- How a dump ends that hands out nothing: before the first read, because the slot does not exist
or nothing is found there, or with the first read that fails. -/
inductive DumpFails (answer : (request : Request) → σ → request.Answer × σ) (link : Link)
    (slot : UInt8) (mode : DumpMode) (w : Memory × σ) : Error → Memory × σ → Prop
  | beyond (hs : ¬slot.toNat < Spd.slotCount) :
      DumpFails answer link slot mode w (.param (.slot slot)) w
  | nothing {w' : Memory × σ} (hs : slot.toNat < Spd.slotCount)
      (hp : runOn answer (step (probe link slot)) w = (.ok none, w')) :
      DumpFails answer link slot mode w (.noModule slot) w'
  | read {g : Generation} {w₀ w' : Memory × σ} {address : UInt16} {cause : Error}
      (hp : runOn answer (step (probe link slot)) w = (.ok (some g), w₀))
      (hr : FailsAt answer link slot w₀ (g.covered mode) address
        (cause.atSpd slot address .byteData) w') :
      DumpFails answer link slot mode w (cause.atSpd slot address .byteData) w'

theorem dump_fails {mode : DumpMode} {e : Error}
    (h : runOn answer (dump link slot mode) w = (.error e, w')) :
    DumpFails answer link slot mode w e w' := by
  unfold dump at h
  rw [runOn_bind] at h
  by_cases hs : slot.toNat < Spd.slotCount
  · rw [runOn_confirmed hs] at h
    rcases hp : runOn answer (step (probe link slot)) w with ⟨e' | g?, w₀⟩
    · rw [runOn_step] at hp
      cases hp
    rw [hp] at h
    cases g? with
    | none =>
        cases h
        exact .nothing hs hp
    | some g =>
        dsimp only [andThen, Option.elim] at h
        rw [runOn_bind] at h
        obtain ⟨read, w₁, -, -, hrun⟩ | ⟨address, e', w₁, hfail, hrun⟩ :=
          @runOn_readAll _ answer link slot w₀ #[] (g.covered mode)
        · rw [hrun] at h
          cases h
        · rw [hrun] at h
          cases h
          obtain ⟨read, untried, w₂, hsplit, hread, hlast⟩ := hfail
          have hcovered : address ∈ g.covered mode := by
            rw [hsplit]
            exact List.mem_append_right _ List.mem_cons_self
          have hsize := (Generation.mem_covered.mp hcovered).lt_size
          obtain ⟨cause, rfl⟩ := error_of_known (hread.has (has_of_probe hp)) hsize hlast
          exact .read hp ⟨read, untried, w₂, hsplit, hread, hlast⟩
  · rw [runOn_confirmed_beyond hs] at h
    cases h
    exact .beyond hs

end Session

/-! ## On machines without faults -/

/-- The dump of a module: the bytes that it stores at the addresses of the mode, each once and in
order. -/
structure SpdDump.IsOf (d : SpdDump) (mode : DumpMode) (l : Lasting) : Prop where
  generation : l.generation = some d.generation
  ascending : d.Ascending
  mem : ∀ address value, (address, value) ∈ d.entries ↔
    d.generation.Covers mode address ∧ l.stored[address.toNat]? = some value
  complete : ∀ address, d.generation.Covers mode address → ∃ value, (address, value) ∈ d.entries

namespace SpdDump

variable {mode : DumpMode} {l : Lasting} {slot : UInt8} {g : Generation} {d : SpdDump}

theorem isOf_read (hg : l.generation = some g) (hsize : l.stored.size = g.size.toNat) :
    IsOf ⟨slot, g, ((g.covered mode).map fun a => (a, l.stored.getD a.toNat 0xFF)).toArray⟩ mode
      l where
  generation := hg
  ascending := by
    rw [Ascending, List.pairwise_map]
    exact g.pairwise_covered mode
  mem address value := by
    have hstored : address ∈ g.covered mode →
        l.stored[address.toNat]? = some (l.stored.getD address.toNat 0xFF) := fun hc => by
      have hlt := UInt16.lt_iff_toNat_lt.mp (Generation.mem_covered.mp hc).lt_size
      rw [Array.getD_eq_getD_getElem?, Array.getElem?_eq_getElem (hsize ▸ hlt), Option.getD_some]
    rw [List.mem_toArray, List.mem_map, ← Generation.mem_covered]
    constructor
    · rintro ⟨a, hc, he⟩
      cases he
      exact ⟨hc, hstored hc⟩
    · rintro ⟨hc, hv⟩
      exact ⟨address, hc, by rw [← Option.some.inj ((hstored hc).symm.trans hv)]⟩
  complete address h :=
    ⟨_, List.mem_toArray.mpr (List.mem_map.mpr ⟨address, Generation.mem_covered.mpr h, rfl⟩)⟩

theorem IsOf.get? (h : d.IsOf mode l) (address : UInt16) :
    (d.generation.Covers mode address → ∃ value, l.stored[address.toNat]? = some value ∧
      d.get? address = some value) ∧
    (¬d.generation.Covers mode address → d.get? address = none) := by
  refine ⟨fun hc => ?_, fun hn => ?_⟩
  · obtain ⟨value, hmem⟩ := h.complete address hc
    exact ⟨value, ((h.mem address value).mp hmem).2, get?_of_mem h.ascending hmem⟩
  · refine Option.eq_none_iff_forall_ne_some.mpr fun value hget => hn ?_
    exact ((h.mem address value).mp (mem_of_get? hget)).1

/-- The image of a whole module is what the module stores. -/
theorem IsOf.toImage (h : d.IsOf .full l) (hsize : l.stored.size = d.generation.size.toNat) :
    d.toImage = l.stored := by
  refine Array.ext_getElem? fun i => ?_
  by_cases hi : i < d.generation.size.toNat
  · have hmax := d.generation.size.toNat_lt
    have haddress : (UInt16.ofNat i).toNat = i := by
      rw [UInt16.toNat_ofNat']
      omega
    have hlt : UInt16.ofNat i < d.generation.size := by
      rwa [UInt16.lt_iff_toNat_lt, haddress]
    obtain ⟨value, hv, hget⟩ := (h.get? _).1 hlt
    have himage := getElem?_toImage h.ascending hlt
    rw [hget, haddress] at himage
    rw [haddress] at hv
    rw [himage, hv, Option.getD_some]
  · rw [Array.getElem?_eq_none, Array.getElem?_eq_none]
    · omega
    · rw [size_toImage]
      omega

end SpdDump

namespace Binding

variable {b : Binding} {g₀ : Segment} {faults : List Fault} {locked : Bool} {m : Memory}
  {p : Platform} {slot : UInt8} {l : Lasting}

/-- Where nothing is in the way, all is read. -/
theorem completes_readAll (hg : g₀.Telling) (hi : b.Sound g₀ faults locked m p)
    (hfree : b.Free faults locked) (hslot : slot.toNat < Spd.slotCount)
    (hl : g₀.lasting? (Spd.eepromAddress slot) = some l) {addresses : List UInt16}
    (ha : ∀ a ∈ addresses, a.toNat < l.stored.size) (entries : Array (UInt16 × UInt8)) :
    Completes (readAll b.link slot entries addresses) m p
      (fun out _ _ => out = entries ++
        (addresses.map fun a => (a, l.stored.getD a.toNat 0xFF)).toArray) fun _ _ _ => False := by
  induction addresses generalizing entries m p with
  | nil =>
      rw [readAll, completes_pure, List.map_nil, Array.append_empty]
  | cons address rest ih =>
      obtain ⟨hlt, hrest⟩ := List.forall_mem_cons.mp ha
      have hstored : g₀.stored? slot address = some (l.stored.getD address.toNat 0xFF) := by
        rw [Segment.stored?, hl, Option.bind_some, Array.getD_eq_getD_getElem?,
          Array.getElem?_eq_getElem hlt, Option.getD_some]
      rw [readAll, completes_bind]
      refine completes_readSpd hg hi (fun value m' p' hi' _ hv => ?_) fun e m' p' _ hn => ?_
      · obtain rfl := Option.some.inj (hstored.symm.trans hv)
        refine (ih hi' hrest _).mono (fun out _ _ hout => ?_) fun _ _ _ h => h
        rw [hout]
        simp
      · rw [hn hfree hslot] at hstored
        cases hstored

theorem completes_dump (hg : g₀.Telling) (hi : b.Sound g₀ faults locked m p)
    (hfree : b.Free faults locked) (hslot : slot.toNat < Spd.slotCount)
    (hl : g₀.lasting? (Spd.eepromAddress slot) = some l) (mode : DumpMode) :
    Completes (dump b.link slot mode) m p (fun d _ _ => d.slot = slot ∧ d.IsOf mode l)
      fun _ _ _ => False := by
  unfold dump
  rw [completes_bind]
  refine completes_confirmed hg hi (fun g m' p' hi' _ hkind => ?_) fun e m' p' _ hn => ?_
  · have hgen : l.generation = some g := by
      rw [Segment.generation?, hl] at hkind
      exact hkind
    have hsize := (hg slot l hl).size hgen
    rw [completes_bind]
    refine (completes_readAll hg hi' hfree hslot hl (fun a ha => ?_) #[]).mono
      (fun out _ _ hout => ?_) fun _ _ _ h => h
    · rw [hsize]
      exact UInt16.lt_iff_toNat_lt.mp (Generation.mem_covered.mp ha).lt_size
    · rw [completes_pure, hout, Array.empty_append]
      exact ⟨rfl, SpdDump.isOf_read hgen hsize⟩
  · have hnone := hn hfree hslot
    have htell := hg slot l hl
    rw [Segment.generation?, hl, Option.bind_some] at hnone
    unfold Lasting.Telling at htell
    rw [hnone] at htell
    exact htell

end Binding

/-- A dump. -/
def Bench.dump (w : Bench) (slot : UInt8) (mode : DumpMode) : Except Error SpdDump × Bench :=
  w.perform fun link => (Session.dump link slot mode).run

theorem dump_of_module {p : Platform} (ha : p.Assembled) {segment : Segment}
    (hs : segment.Telling) (hpage : segment.page ≤ 1) {config : Config} {w : Bench}
    (hw : w.StartedOn { p with segment } config) (hport : config.piix4Port = 0)
    (hpoll : (config.poll w.session.link.controller.family).retries ≠ 0) (moves : List Move)
    (hclear : (w.after moves).machine.faults = []) {slot : UInt8}
    (hslot : slot.toNat < Spd.slotCount) {l : Lasting}
    (hl : segment.lasting? (Spd.eepromAddress slot) = some l) (mode : DumpMode) :
    ∃ d, ((w.after moves).dump slot mode).1 = .ok d ∧ d.slot = slot ∧ d.IsOf mode l := by
  obtain ⟨b, haware, hheld, hattends⟩ := Binding.exists_attending ha hpage hw hport hpoll
  obtain ⟨hlink, hi⟩ := haware.after hs hheld moves
  have hdump := Binding.completes_dump hs hi ⟨⟨hclear, hattends⟩, rfl⟩ hslot hl mode
  rw [← hlink] at hdump
  have hperformed := (w.after moves).completes_perform (Session.dump · slot mode) hdump
  unfold Bench.dump
  generalize (w.after moves).perform (fun link => (Session.dump link slot mode).run) = r
    at hperformed
  obtain ⟨_ | d, v⟩ := r
  · exact hperformed.elim
  · exact ⟨d, rfl, hperformed⟩

/-- A dump of a module, on an assembled machine without faults and after any history, holds the
stored bytes at the addresses that it covers, in order and once each: they are found again, nothing
else is found, and the image of a whole module is what the module stores. On any machine, a dump
that fails hands out nothing: the slot does not exist, nothing is found in it, or a read failed,
with all before it read and none after it tried. -/
theorem dumps_whole_or_first_failure :
    (∀ (p : Platform) (segment : Segment) (config : Config) (w : Bench) (moves : List Move)
      (slot : UInt8) (l : Lasting) (mode : DumpMode), p.Assembled → segment.Telling →
      segment.page ≤ 1 → w.StartedOn { p with segment } config → config.piix4Port = 0 →
      (config.poll w.session.link.controller.family).retries ≠ 0 →
      (w.after moves).machine.faults = [] → slot.toNat < Spd.slotCount →
      segment.lasting? (Spd.eepromAddress slot) = some l →
      ∃ d, ((w.after moves).dump slot mode).1 = .ok d ∧ d.slot = slot ∧ d.IsOf mode l ∧
        (∀ address, d.generation.Covers mode address → ∃ value,
          l.stored[address.toNat]? = some value ∧ d.get? address = some value) ∧
        (∀ address, ¬d.generation.Covers mode address → d.get? address = none) ∧
        (mode = .full → d.toImage = l.stored)) ∧
    ∀ (σ : Type) (answer : (request : Request) → σ → request.Answer × σ) (link : Link)
      (slot : UInt8) (mode : DumpMode) (w w' : Memory × σ) (e : Error),
      runOn answer (Session.dump link slot mode) w = (.error e, w') →
      DumpFails answer link slot mode w e w' := by
  refine ⟨?_, fun σ answer link slot mode w w' e h => dump_fails h⟩
  intro p segment config w moves slot l mode ha hs hpage hw hport hpoll hclear hslot hl
  obtain ⟨d, hd, hdslot, hof⟩ :=
    dump_of_module ha hs hpage hw hport hpoll moves hclear hslot hl mode
  have hsize : l.stored.size = d.generation.size.toNat := (hs slot l hl).size hof.generation
  refine ⟨d, hd, hdslot, hof, fun address => (hof.get? address).1, fun address =>
    (hof.get? address).2, ?_⟩
  rintro rfl
  exact hof.toImage hsize

/-- A module with a hub, after a fault was in the way; and a dump whose third read is refused the
lock as often as it is tried. -/
theorem dumps_whole_or_first_failure_sample :
    (∃ w : Bench, w.StartedOn Platform.amdSample {} ∧ ∃ l d,
      Platform.amdSample.segment.lasting? (Spd.eepromAddress 0) = some l ∧
      ((w.after [.job (.read 0 0x155), .inject .stall, .job (.probe 0), .clearFaults]).dump 0
        .full).1 = .ok d ∧ d.toImage = l.stored) ∧
    ∃ w', runOn (Port.failing [6, 7, 8]).answer (Session.dump (delegated .ddr3).link 0 .full)
        ((delegated .ddr3).memory, []) = (.error (.spd 0 2 .byteData (.busy 0x41)), w') ∧
      DumpFails (Port.failing [6, 7, 8]).answer (delegated .ddr3).link 0 .full
        ((delegated .ddr3).memory, []) (.spd 0 2 .byteData (.busy 0x41)) w' := by
  constructor
  · have hp := Platform.hosted_amdSample
    obtain ⟨w, hw, -⟩ := Bench.exists_startedOn {} hp fun _ => rfl
    obtain ⟨module, hm, -⟩ := Platform.moduleAt?_withModule
      ((({} : Platform).withPiix4 Pci.Vendor.amd 0x790B 0x51).withImc) .ddr5 0 true
    have hl : Platform.amdSample.segment.lasting? (Spd.eepromAddress 0) = some module.lasting :=
      congrArg (Option.map Slave.lasting) hm
    have htelling := hp.assembled.telling
    obtain ⟨d, hd, -, -, -, -, himage⟩ := dumps_whole_or_first_failure.1 Platform.amdSample
      Platform.amdSample.segment {} w
      [.job (.read 0 0x155), .inject .stall, .job (.probe 0), .clearFaults] 0 _ .full hp.assembled
      htelling.1 htelling.2 hw rfl (Config.retries_default _) rfl (by decide) hl
    exact ⟨w, hw, _, d, hl, hd, himage rfl⟩
  · obtain ⟨w', hrun⟩ : ∃ w', runOn (Port.failing [6, 7, 8]).answer
        (Session.dump (delegated .ddr3).link 0 .full) ((delegated .ddr3).memory, []) =
        (.error (.spd 0 2 .byteData (.busy 0x41)), w') := ⟨_, rfl⟩
    exact ⟨w', hrun, dumps_whole_or_first_failure.2 _ _ _ _ _ _ _ _ hrun⟩

end DimmBus
