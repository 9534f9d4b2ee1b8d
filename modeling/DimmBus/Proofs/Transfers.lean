import DimmBus.Controller
import DimmBus.Platform.Build
import DimmBus.Proofs.Delegation
import DimmBus.Proofs.IchTransfer

/-!
# Transactions of any controller

What holds of a machine between two transactions, and what one transaction of a controller in use
makes of it.
-/

namespace DimmBus

open Access Attempt Platform

/-- What a host is, and where it answers. -/
def Host.place (h : Host) : HostModel × UInt16 := (h.model, h.base)

/-- The block without the register that its data address reaches. -/
def PmBlock.rewound (b : PmBlock) : PmBlock := { b with index := 0 }

namespace Host

variable (h : Host) (register : UInt16) (value : UInt8)

theorem place_read (stuck held : Bool) : (h.read stuck held register).2.place = h.place := by
  simp only [read, apply_ite Prod.snd, apply_ite place]
  simp only [place, ite_self]

theorem place_writeControl : (h.writeControl value).1.place = h.place := by
  simp only [writeControl, apply_ite Prod.fst, apply_ite place]
  simp only [place, ite_self]

theorem place_write : (h.write register value).1.place = h.place := by
  simp only [write, apply_ite Prod.fst, apply_ite place, place_writeControl]
  simp only [place, ite_self]

theorem place_complete (pecError : Bool) (reply : Option Reply) :
    (h.complete pecError reply).place = h.place := by
  unfold complete
  cases reply with
  | none => rfl
  | some reply =>
      cases reply <;> simp only [apply_ite place] <;> simp only [place, ite_self]

variable {h} {h' : Host} {model : HostModel} {base : UInt16}

theorem Is.of_place (hh : h.Is model base) (hp : h'.place = h.place) : h'.Is model base :=
  ⟨(congrArg Prod.fst hp).trans hh.1, (congrArg Prod.snd hp).trans hh.2⟩

end Host

namespace Platform

/-- The hosts are where they are put together. -/
structure Sited (p : Platform) : Prop where
  ich : ∀ h, p.ich = some h → ∃ f, h.Is (.ich f) ichBase
  piix4 : ∀ h, p.piix4 = some h → h.Is .piix4 piix4Base

/-- The hosts are where they are put together, and the multiplexer leads to the modules. -/
structure Wired (p : Platform) : Prop where
  ich : ∀ h, p.ich = some h → ∃ f, h.Is (.ich f) ichBase
  piix4 : ∀ h, p.piix4 = some h → h.Is .piix4 piix4Base
  connected : p.connected true = true

/-- What no transaction changes of a machine. -/
structure Stands (p₀ p : Platform) : Prop where
  transport : p.transport = p₀.transport
  ich : p.ich.map Host.place = p₀.ich.map Host.place
  piix4 : p.piix4.map Host.place = p₀.piix4.map Host.place
  pm : p.pm.map PmBlock.rewound = p₀.pm.map PmBlock.rewound
  mailbox : p.mailbox.isSome = p₀.mailbox.isSome

/-- What every transaction leaves behind. Only firmware that holds the semaphore, `held`, leaves it
taken. -/
structure Tidy (p : Platform) (held : Bool) : Prop where
  ich : ∀ h, p.ich = some h → h.AtRest
  piix4 : ∀ h, p.piix4 = some h →
    h.Clearable p.jammed ∧ h.slaveControl &&& Piix4.SlaveControl.hostRelease = 0
  free : held = false → p.has .semaphoreHeld = false ∧ ∀ h, p.piix4 = some h →
    h.slaveControl &&& Piix4.SlaveControl.hostSemaphore = 0
  awake : ∀ m, p.mailbox = some m → m.asleep = false

variable {p p₀ : Platform} {h : Host} {g : Segment} {k : Counters}

theorem Wired.sited (hw : p.Wired) : p.Sited := ⟨hw.ich, hw.piix4⟩

theorem Stands.trans {p' : Platform} (h : p₀.Stands p) (h' : p.Stands p') : p₀.Stands p' :=
  ⟨h'.transport.trans h.transport, h'.ich.trans h.ich, h'.piix4.trans h.piix4, h'.pm.trans h.pm,
    h'.mailbox.trans h.mailbox⟩

theorem Stands.connected (hs : p₀.Stands p) : p.connected true = p₀.connected true := by
  have hpm := hs.pm
  unfold Platform.connected
  cases hb : p.pm <;> cases hb₀ : p₀.pm <;> rw [hb, hb₀] at hpm
  · cases hpm
  · cases hpm
  · rename_i b b₀
    have hr : b.rewound = b₀.rewound := Option.some.inj hpm
    have hsel : b.rewound.selected = b₀.rewound.selected := by rw [hr]
    have hsel : b.selected = b₀.selected := hsel
    simp [hsel]

theorem put_ich (hh : p.ich = some h) (hm : h.isPiix4 = false) :
    p.put h p.segment p.counters = p := by
  simp only [put, setHost, hm, Bool.false_eq_true, if_false, ← hh]

theorem put_piix4 (hh : p.piix4 = some h) (hm : h.isPiix4 = true) :
    p.put h p.segment p.counters = p := by
  simp only [put, setHost, hm, if_true, ← hh]

theorem equip_self {b : PmBlock} (hb : p.pm = some b) : p.equip b p.mailbox = p := by
  simp only [equip, ← hb]

end Platform

/-! ## Who answers where -/

namespace Host

variable {h : Host} {register : UInt16}

theorem decode_base (hb : h.base.toNat + 0x10 ≤ 65536) (hr : register < 0x10) :
    h.decode? (h.base + register) = some register := by
  have hr : register.toNat < 16 := hr
  have hsub : h.base + register - h.base = register := by
    rw [UInt16.add_comm, UInt16.add_sub_cancel]
  have hle : h.base ≤ h.base + register := by
    rw [UInt16.le_iff_toNat_le, UInt16.toNat_add, Nat.mod_eq_of_lt (by omega)]
    omega
  rw [decode?, if_pos ⟨hle, by rw [hsub]; exact hr⟩, hsub]

/-- Nobody answers in front of the base address. -/
theorem decode_none {address : UInt16} (ha : address < h.base) : h.decode? address = none := by
  rw [decode?, if_neg fun hc => absurd hc.1 (UInt16.not_le.mpr ha)]

end Host

namespace Platform

variable {p : Platform}

theorem exposes_ich (f : Ich.Features) : p.Exposes (.ich f) ichBase := by
  intro h hh register hr
  have hp : h.isPiix4 = false := by simp [Host.isPiix4, hh.1]
  have hd : h.decode? (ichBase + register) = some register := by
    rw [← hh.2]
    exact Host.decode_base (by rw [hh.2]; decide) hr
  simp [decode?, setHost, hp, hd]

theorem Sited.exposes_piix4 (hw : p.Sited) : p.Exposes .piix4 piix4Base := by
  intro h hh register hr
  have hp : h.isPiix4 = true := by simp [Host.isPiix4, hh.1]
  have hd : h.decode? (piix4Base + register) = some register := by
    rw [← hh.2]
    exact Host.decode_base (by rw [hh.2]; decide) hr
  have hlow : piix4Base + register < ichBase := by
    have hr : register.toNat < 16 := hr
    rw [UInt16.lt_iff_toNat_lt, UInt16.toNat_add, Nat.mod_eq_of_lt (by simp [piix4Base]; omega)]
    simp [piix4Base, ichBase]
    omega
  cases hi : p.ich with
  | none => simp [decode?, setHost, hp, hi, hd]
  | some h' =>
      obtain ⟨f, hf⟩ := hw.ich h' hi
      have hn : h'.decode? (piix4Base + register) = none :=
        Host.decode_none (by rw [hf.2]; exact hlow)
      simp [decode?, setHost, hp, hi, hn, hd]

theorem Wired.exposes_piix4 (hw : p.Wired) : p.Exposes .piix4 piix4Base := hw.sited.exposes_piix4

/-- No host answers at the addresses of the board. -/
theorem Sited.decode_none (hp : p.Sited) {address : UInt16} (hi : address < ichBase)
    (hn : ¬(piix4Base ≤ address ∧ address - piix4Base < 0x10)) : p.decode? address = none := by
  have hich : ∀ h, p.ich = some h → h.decode? address = none := by
    intro h hh
    obtain ⟨f, hf⟩ := hp.ich h hh
    exact Host.decode_none (by rw [hf.2]; exact hi)
  have hpiix4 : ∀ h, p.piix4 = some h → h.decode? address = none := by
    intro h hh
    rw [Host.decode?, (hp.piix4 h hh).2, if_neg hn]
  unfold decode?
  cases h₁ : p.ich with
  | none =>
      cases h₂ : p.piix4 with
      | none => rfl
      | some h => simp [hpiix4 h h₂]
  | some h' =>
      cases h₂ : p.piix4 with
      | none => simp [hich h' h₁]
      | some h => simp [hich h' h₁, hpiix4 h h₂]

/-- The addresses outside those of the two hosts are those of the board. -/
theorem Wired.vacant (hw : p.Wired) {address : UInt16} (hi : address < ichBase)
    (hd : ∀ h : Host, h.base = piix4Base → h.decode? address = none) :
    p.Vacant .piix4 piix4Base address := by
  intro h hh
  have hp : h.isPiix4 = true := by simp [Host.isPiix4, hh.1]
  have hn := hd h hh.2
  cases hich : p.ich with
  | none => simp [decode?, setHost, hp, hich, hn]
  | some h' =>
      obtain ⟨f, hf⟩ := hw.ich h' hich
      have hn' : h'.decode? address = none := Host.decode_none (by rw [hf.2]; exact hi)
      simp [decode?, setHost, hp, hich, hn', hn]

theorem Wired.board (hw : p.Wired) : p.Board .piix4 piix4Base := by
  have hd : ∀ address : UInt16, (¬(piix4Base ≤ address ∧ address - piix4Base < 0x10)) →
      ∀ h : Host, h.base = piix4Base → h.decode? address = none := by
    intro address hno h hb
    rw [Host.decode?, hb, if_neg hno]
  exact ⟨hw.vacant (by decide) (hd _ (by decide)), hw.vacant (by decide) (hd _ (by decide)),
    hw.vacant (by decide) (hd _ (by decide)), hw.vacant (by decide) (hd _ (by decide))⟩

theorem put_eq_ich {h : Host} (hm : h.isPiix4 = false) (g : Segment) (k : Counters) :
    p.put h g k = { p with ich := some h, segment := g, counters := k } := by
  simp only [put, setHost, hm, Bool.false_eq_true, if_false]

theorem put_eq_piix4 {h : Host} (hm : h.isPiix4 = true) (g : Segment) (k : Counters) :
    p.put h g k = { p with piix4 := some h, segment := g, counters := k } := by
  simp only [put, setHost, hm, if_true]

end Platform

/-! ## Controllers in use -/

/-- An Intel controller is that of the machine's host. -/
structure Ich.Fits (c : Ich) (p : Platform) : Prop where
  transport : p.transport = c.info.transport
  base : c.info.base = ichBase
  host : ∃ h f, p.ich = some h ∧ h.Is (.ich f) ichBase ∧
    c.info.capabilities = Ich.capabilities f ∧ (f.blockProcCall = true → f.blockBuffer = true)

/-- A PIIX4-compatible controller is that of the machine's host, and knows its board. -/
structure Piix4.Fits (c : Piix4) (p : Platform) : Prop where
  transport : p.transport = c.info.transport
  base : c.info.base = piix4Base
  host : p.piix4.isSome = true
  port : c.port ≤ 3
  legacy : p.transport = .direct → c.sb800 = none → c.port = 0
  block : c.port ≠ 0 ∨ c.sb800.isSome = true → ∃ b, p.pm = some b ∧ b.selector.Known ∧
    ∀ s, c.sb800 = some s → s.selector = b.selector ∧ s.pm.Reaches b b.selector.register
  imc : ∀ s, c.sb800 = some s → s.notifyImc = true → p.mailbox.isSome = true

namespace Controller

def Fits : Controller → Platform → Prop
  | .ich c, p => c.Fits p
  | .piix4 c, p => c.Fits p

/-- The controller looks for the end of a transaction at least once, and at the output of the bus
multiplexer where the modules are. -/
def Attends : Controller → Prop
  | .ich c => c.poll.retries ≠ 0
  | .piix4 c => c.poll.retries ≠ 0 ∧ c.port = 0

/-- What keeps a transaction from the bus. -/
def kept (p : Platform) : Controller → Bool
  | .ich _ => p.blocked false
  | .piix4 c =>
    match c.info.transport, c.sb800 with
    | .direct, some _ => c.kept p
    | .direct, none => p.blocked true
    | .delegated, _ => p.blocked true || !decide (c.port = 0)

/-- Whether nobody looks for the end of a transaction. -/
def unwatched : Controller → Bool
  | .ich c => c.info.transport = .direct ∧ c.poll.retries = 0
  | .piix4 c => c.info.transport = .direct ∧ c.poll.retries = 0

/-- Whether the packet error codes that the controller checks are wrong. -/
def badPec (p : Platform) : Controller → Bool
  | .ich c => c.info.transport = .direct ∧ p.has .pecError = true
  | .piix4 _ => false

/-- What a transaction makes of a machine. -/
structure Handled (c : Controller) (held : Bool) (tx : Transaction) (p : Platform)
    (r : Except Error Payload) (p' : Platform) : Prop where
  stands : p.Stands p'
  tidy : p'.Tidy held
  faults : p'.faults = p.faults
  lock : p'.lockHeld = p.lockHeld
  fate : tx.Fate (c.kept p) c.unwatched (c.badPec p) p.segment p.counters.log r p'.segment
    p'.counters.log

end Controller

/-! ## What stands keeps a controller in use -/

namespace Platform

variable {p p₀ : Platform}

theorem Stands.host_ich (hs : p₀.Stands p) {h₀ : Host} (hh : p₀.ich = some h₀) :
    ∃ h, p.ich = some h ∧ h.place = h₀.place := by
  have hp := hs.ich
  rw [hh, Option.map_some, Option.map_eq_some_iff] at hp
  exact hp

theorem Stands.pm_some (hs : p₀.Stands p) {b₀ : PmBlock} (hb : p₀.pm = some b₀) :
    ∃ b, p.pm = some b ∧ b.rewound = b₀.rewound := by
  have hp := hs.pm
  rw [hb, Option.map_some, Option.map_eq_some_iff] at hp
  exact hp

theorem Stands.isSome_piix4 (hs : p₀.Stands p) : p.piix4.isSome = p₀.piix4.isSome := by
  have hp := congrArg Option.isSome hs.piix4
  rw [Option.isSome_map, Option.isSome_map] at hp
  exact hp

theorem Wired.stands (hw : p₀.Wired) (hs : p₀.Stands p) : p.Wired where
  ich h hh := by
    have hp := hs.ich
    rw [hh, Option.map_some, eq_comm, Option.map_eq_some_iff] at hp
    obtain ⟨h₀, hh₀, hplace⟩ := hp
    obtain ⟨f, hf⟩ := hw.ich h₀ hh₀
    exact ⟨f, (congrArg Prod.fst hplace).symm.trans hf.1,
      (congrArg Prod.snd hplace).symm.trans hf.2⟩
  piix4 h hh := by
    have hp := hs.piix4
    rw [hh, Option.map_some, eq_comm, Option.map_eq_some_iff] at hp
    obtain ⟨h₀, hh₀, hplace⟩ := hp
    have hf := hw.piix4 h₀ hh₀
    exact ⟨(congrArg Prod.fst hplace).symm.trans hf.1, (congrArg Prod.snd hplace).symm.trans hf.2⟩
  connected := hs.connected.trans hw.connected

end Platform

theorem Ich.Fits.stands {c : Ich} {p p₀ : Platform} (hf : c.Fits p₀) (hs : p₀.Stands p) :
    c.Fits p where
  transport := hs.transport.trans hf.transport
  base := hf.base
  host := by
    obtain ⟨h₀, f, hh₀, hi, hcap, hblock⟩ := hf.host
    obtain ⟨h, hh, hplace⟩ := hs.host_ich hh₀
    exact ⟨h, f, hh, ⟨(congrArg Prod.fst hplace).trans hi.1, (congrArg Prod.snd hplace).trans hi.2⟩,
      hcap, hblock⟩

theorem Piix4.Fits.stands {c : Piix4} {p p₀ : Platform} (hf : c.Fits p₀) (hs : p₀.Stands p) :
    c.Fits p where
  transport := hs.transport.trans hf.transport
  base := hf.base
  host := hs.isSome_piix4.trans hf.host
  port := hf.port
  legacy ht := hf.legacy (hs.transport.symm.trans ht)
  block hz := by
    obtain ⟨b₀, hb₀, hk, hall⟩ := hf.block hz
    obtain ⟨b, hb, hr⟩ := hs.pm_some hb₀
    have hsel : b.rewound.selector = b₀.rewound.selector := by rw [hr]
    have hsel : b.selector = b₀.selector := hsel
    have hwin : b.rewound.windowOnly = b₀.rewound.windowOnly := by rw [hr]
    have hwin : b.windowOnly = b₀.windowOnly := hwin
    refine ⟨b, hb, by rw [hsel]; exact hk, fun s hs => ?_⟩
    obtain ⟨hs₁, hs₂⟩ := hall s hs
    rw [hsel]
    refine ⟨hs₁, ?_⟩
    unfold PmAccess.Reaches at hs₂ ⊢
    rw [hwin]
    exact hs₂
  imc s hs' hn := hs.mailbox.trans (hf.imc s hs' hn)

theorem Controller.Fits.stands {c : Controller} {p p₀ : Platform} (hf : c.Fits p₀)
    (hs : p₀.Stands p) : c.Fits p := by
  cases c with
  | ich c => exact Ich.Fits.stands hf hs
  | piix4 c => exact Piix4.Fits.stands hf hs

section Transfers

variable {p : Platform} {tx : Transaction} {held : Bool}
  {Q : Except Error Payload → Platform → Prop}

theorem Platform.jammed_of_faults (hf : p.faults = []) : p.jammed = false := by
  simp [jammed, has, hf]

theorem Platform.blocked_of_faults {piix4 : Bool} (hf : p.faults = [])
    (hc : p.connected piix4 = true) : p.blocked piix4 = false := by
  simp [blocked, jammed_of_faults hf, hc]

theorem Controller.Handled.carried {c : Controller} {r : Except Error Payload} {p' : Platform}
    (h : c.Handled held tx p r p') : tx.Carried p.segment r p'.segment := h.fate.carried

/-- Faults and the multiplexer decide what keeps a transaction from the bus. -/
theorem Controller.kept_congr {c : Controller} {q : Platform} (hf : p.faults = q.faults)
    (hc : p.connected true = q.connected true) : c.kept p = c.kept q := by
  have hhas : ∀ fault, p.has fault = q.has fault := fun fault => by simp only [has, hf]
  have hjam : p.jammed = q.jammed := by simp only [jammed, hhas]
  have hblocked : p.blocked true = q.blocked true := by simp only [blocked, hjam, hc]
  cases c with
  | ich c => simp only [Controller.kept, blocked, hjam, connected, Bool.not_false, Bool.true_or]
  | piix4 c =>
      unfold Controller.kept
      dsimp only
      split
      · simp only [Piix4.kept, hjam, hhas]
      · exact hblocked
      · rw [hblocked]

/-- Without faults nothing keeps a transaction from the bus. -/
theorem Controller.kept_of_faults {c : Controller} (hw : p.Wired) (hfaults : p.faults = [])
    (ha : c.Attends) : c.kept p = false := by
  have hjam := jammed_of_faults hfaults
  have hblocked := blocked_of_faults hfaults hw.connected
  cases c with
  | ich c => exact blocked_of_faults hfaults rfl
  | piix4 c =>
      unfold Controller.kept
      dsimp only
      split
      · simp [Piix4.kept, hjam, ha.2, has, hfaults]
      · exact hblocked
      · simp [hblocked, ha.2]

theorem Controller.unwatched_of_attends {c : Controller} (ha : c.Attends) :
    c.unwatched = false := by
  cases c with
  | ich c =>
      have ha : c.poll.retries ≠ 0 := ha
      simp [Controller.unwatched, ha]
  | piix4 c => simp [Controller.unwatched, ha.1]

/-- Where nothing is in the way, the bus answers. -/
theorem Controller.Handled.answered {c : Controller} {r : Except Error Payload} {p' : Platform}
    (h : c.Handled held tx p r p') (hw : p.Wired) (hfaults : p.faults = []) (ha : c.Attends) :
    tx.Answered p.segment p.counters.log r p'.segment p'.counters.log := by
  have hpec : c.badPec p = false := by
    cases c with
    | ich c => simp [badPec, has, hfaults]
    | piix4 c => rfl
  exact h.fate.answered (kept_of_faults hw hfaults ha) (unwatched_of_attends ha) hpec

/-- A routine on the other side reaches the bus and nothing else. -/
theorem Controller.handled_after {c : Controller} {r : Except Error Payload} {g' : Segment}
    {k' : Counters} (ht : p.Tidy held)
    (hfate : tx.Fate (c.kept p) c.unwatched (c.badPec p) p.segment p.counters.log r g' k'.log) :
    c.Handled held tx p r (Delegated.after p g' k') :=
  ⟨⟨rfl, rfl, rfl, rfl, rfl⟩, ⟨ht.ich, ht.piix4, ht.free, ht.awake⟩, rfl, rfl, hfate⟩

/-! ## Intel hosts -/

theorem Ich.handled_put {c : Ich} {h h' : Host} {f : Features} {r : Except Error Payload}
    {g' : Segment} {k' : Counters} (ht : p.Tidy held) (hh : p.ich = some h)
    (hd : c.info.transport = .direct) (his : h.Is (.ich f) c.info.base)
    (his' : h'.Is (.ich f) c.info.base) (hrest : h'.AtRest)
    (hfate : tx.Fate (p.blocked false) (c.poll.retries = 0) (p.has .pecError) p.segment
      p.counters.log r g' k'.log) :
    (Controller.ich c).Handled held tx p r (p.put h' g' k') := by
  rw [put_eq_ich (by simp [Host.isPiix4, his'.1])]
  have hplace : h'.place = h.place := by simp [Host.place, his'.1, his'.2, his.1, his.2]
  refine ⟨⟨rfl, by rw [hh, Option.map_some, Option.map_some, hplace], rfl, rfl, rfl⟩,
    ⟨fun h₂ hh₂ => ?_, ht.piix4, ht.free, ht.awake⟩, rfl, rfl, ?_⟩
  · cases hh₂
    exact hrest
  · simpa [Controller.kept, Controller.unwatched, Controller.badPec, hd] using hfate

theorem Ich.ends_transfer {c : Ich} (hf : c.Fits p) (ht : p.Tidy held)
    (hv : tx.validate = .ok ()) (hc : c.check tx = .ok ())
    (hQ : ∀ r p', (Controller.ich c).Handled held tx p r p' → Q r p') :
    Ends answer (c.transfer tx) p (fun a => Q (.ok a)) (fun e => Q (.error e)) := by
  obtain ⟨h, f, hh, his, hcap, hblock⟩ := hf.host
  have htransport := hf.transport
  unfold transfer
  cases hd : c.info.transport with
  | delegated =>
      rw [hd] at htransport
      refine Delegated.ends_transfer .ich htransport (by simp [host?, hh]) hv
        fun r g' k' hfate => hQ r _ (Controller.handled_after ht ?_)
      simpa [Controller.kept, Controller.unwatched, Controller.badPec, hd] using hfate
  | direct =>
      have hx : p.Exposes (.ich f) c.info.base := by
        rw [hf.base]
        exact exposes_ich f
      rw [← hf.base] at his
      suffices hs : Ends answer (c.transferDirect tx) (p.put h p.segment p.counters)
          (fun a => Q (.ok a)) (fun e => Q (.error e)) by
        rw [put_ich hh (by simp [Host.isPiix4, his.1])] at hs
        exact hs
      exact ends_transferDirect hx his (carry_of_check hcap hblock hc) hv (ht.ich h hh)
        fun r h' g' k' his' hrest hfate => hQ r _ (handled_put ht hh hd his his' hrest hfate)

/-! ## PIIX4-compatible hosts -/

section Piix4

variable {c : Piix4} {h h' : Host} {r : Except Error Payload} {g' : Segment} {k' : Counters}

/-- A host that has its multiplexer to itself. -/
theorem Piix4.handled_settled (ht : p.Tidy held) (hh : p.piix4 = some h)
    (hd : c.info.transport = .direct) (hs : c.sb800 = none) (his : h.Is .piix4 c.info.base)
    (hset : Settled c tx p.jammed (p.blocked true) h p.segment p.counters.log r h' g' k'.log) :
    (Controller.piix4 c).Handled held tx p r (p.put h' g' k') := by
  rw [put_eq_piix4 (by simp [Host.isPiix4, hset.is.1])]
  have hplace : h'.place = h.place := by simp [Host.place, hset.is.1, hset.is.2, his.1, his.2]
  refine ⟨⟨rfl, rfl, by rw [hh, Option.map_some, Option.map_some, hplace], rfl, rfl⟩,
    ⟨ht.ich, fun h₂ hh₂ => ?_, fun hheld => ⟨(ht.free hheld).1, fun h₂ hh₂ => ?_⟩, ht.awake⟩,
    rfl, rfl, ?_⟩
  · cases hh₂
    exact ⟨hset.clearable, by rw [hset.slaveControl]; exact (ht.piix4 h hh).2⟩
  · cases hh₂
    rw [hset.slaveControl]
    exact (ht.free hheld).2 h hh
  · simpa [Controller.kept, Controller.unwatched, Controller.badPec, hd, hs] using hset.fate

/-- A host that shares its multiplexer with firmware and the micro-controller. -/
theorem Piix4.handled_returned {b : PmBlock} {i : UInt8} {m'? : Option Mailbox} {s : Sb800}
    (ht : p.Tidy held) (hh : p.piix4 = some h) (hb : p.pm = some b)
    (hd : c.info.transport = .direct) (hs : c.sb800 = some s) (his : h.Is .piix4 c.info.base)
    (hret : Returned c tx p p.mailbox p.segment p.counters.log r h' m'? g' k'.log) :
    (Controller.piix4 c).Handled held tx p r
      ((p.equip { b with index := i } m'?).put h' g' k') := by
  rw [put_eq_piix4 (by simp [Host.isPiix4, hret.is.1])]
  have hplace : h'.place = h.place := by simp [Host.place, hret.is.1, hret.is.2, his.1, his.2]
  refine ⟨⟨rfl, rfl, by rw [hh, Option.map_some, Option.map_some, hplace], ?_, hret.present⟩,
    ⟨ht.ich, fun h₂ hh₂ => ?_, fun hheld => ⟨(ht.free hheld).1, fun h₂ hh₂ => ?_⟩, hret.awake⟩,
    rfl, rfl, ?_⟩
  · rw [hb]
    rfl
  · cases hh₂
    exact ⟨hret.clearable, hret.release⟩
  · cases hh₂
    exact hret.semaphore (ht.free hheld).1
  · simpa [Controller.kept, Controller.unwatched, Controller.badPec, hd, hs] using hret.fate

theorem Piix4.ends_transfer (hw : p.Wired) (hf : c.Fits p) (ht : p.Tidy held)
    (hv : tx.validate = .ok ()) (hc : c.check tx = .ok ())
    (hQ : ∀ r p', (Controller.piix4 c).Handled held tx p r p' → Q r p') :
    Ends answer (c.transfer tx) p (fun a => Q (.ok a)) (fun e => Q (.error e)) := by
  obtain ⟨h, hh⟩ := Option.isSome_iff_exists.mp hf.host
  have his : h.Is .piix4 c.info.base := by
    rw [hf.base]
    exact hw.piix4 h hh
  obtain ⟨hclear, hrelease⟩ := ht.piix4 h hh
  have hplain := plain_of_check hc
  have htransport := hf.transport
  have hp := put_piix4 hh (by simp [Host.isPiix4, his.1])
  have hx : p.Exposes .piix4 c.info.base := by
    rw [hf.base]
    exact hw.exposes_piix4
  unfold transfer
  cases hd : c.info.transport with
  | delegated =>
      rw [hd] at htransport
      refine ends_transferDelegated htransport hf.host hv hf.port (fun hz => ?_)
        fun r g' k' hfate => hQ r _ ?_
      · obtain ⟨b, hb, hk, -⟩ := hf.block (.inl hz)
        exact ⟨b, hb, hk⟩
      · refine Controller.handled_after ht ?_
        simpa [Controller.kept, Controller.unwatched, Controller.badPec, hd] using hfate
  | direct =>
      rw [hd] at htransport
      cases hs : c.sb800 with
      | none =>
          suffices he : Ends answer (c.transact tx) (p.put h p.segment p.counters)
              (fun a => Q (.ok a)) (fun e => Q (.error e)) by
            rw [hp] at he
            exact he
          exact ends_transact hx his hplain hv hclear fun r h' g' k' hset =>
            hQ r _ (handled_settled ht hh hd hs his hset)
      | some s =>
          obtain ⟨b, hb, hk, hall⟩ := hf.block (.inr (by rw [hs]; rfl))
          obtain ⟨hsel, hreach⟩ := hall s hs
          have he : (p.equip b p.mailbox).put h p.segment p.counters = p := by
            rw [put_equip, hp]
            exact equip_self hb
          suffices he' : Ends answer (c.transferSb800 s tx)
              ((p.equip b p.mailbox).put h p.segment p.counters)
              (fun a => Q (.ok a)) (fun e => Q (.error e)) by
            rw [he] at he'
            exact he'
          exact ends_transferSb800 hx (by rw [hf.base]; exact hw.board) his hplain hv hclear
            hrelease hsel hreach hk hf.port (hf.imc s hs) ht.awake
            fun r h' g' k' i m'? hret => hQ r _ (handled_returned ht hh hb hd hs his hret)

end Piix4

/-! ## Any controller -/

theorem Controller.ends_transfer {c : Controller} (hw : p.Wired) (hf : c.Fits p) (ht : p.Tidy held)
    (hv : tx.validate = .ok ()) (hc : c.check tx = .ok ())
    (hQ : ∀ r p', c.Handled held tx p r p' → Q r p') :
    Ends answer (c.transfer tx) p (fun a => Q (.ok a)) (fun e => Q (.error e)) := by
  cases c with
  | ich c => exact Ich.ends_transfer hf ht hv hc hQ
  | piix4 c => exact Piix4.ends_transfer hw hf ht hv hc hQ

/-- The same of the run itself. -/
theorem Controller.handled {c : Controller} (hw : p.Wired) (hf : c.Fits p) (ht : p.Tidy held)
    (hv : tx.validate = .ok ()) (hc : c.check tx = .ok ()) :
    c.Handled held tx p ((c.transfer tx).run.run answer p).1
      ((c.transfer tx).run.run answer p).2 :=
  ends_post.mp (ends_transfer hw hf ht hv hc fun _ _ h => h)

end Transfers

end DimmBus
