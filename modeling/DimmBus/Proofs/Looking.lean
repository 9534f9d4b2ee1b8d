import DimmBus.Proofs.Discovery
import DimmBus.Proofs.Ports

/-!
# Programs that only look

What a program asks on a given machine, and the programs that read configuration space and the
power-management block: they leave nothing behind but the position of the index and the number of
requests, and neither matters to what they come to.
-/

namespace DimmBus

open Access Attempt Platform

variable {α β σ : Type} {step : (request : Request) → σ → request.Answer × σ}
  {ok : Request → Prop} {s : σ}

/-! ## What is asked on a machine -/

namespace Access

/-- Every request that the program makes on a machine is of a kind. -/
def Asks (step : (request : Request) → σ → request.Answer × σ) (ok : Request → Prop) :
    Access α → σ → Prop
  | .done _, _ => True
  | .call request next, s =>
    ok request ∧ (next (step request s).1).Asks step ok (step request s).2

variable {x : Access α} {f : α → Access β}

theorem asks_bind : (x >>= f).Asks step ok s ↔
    x.Asks step ok s ∧ (f (x.run step s).1).Asks step ok (x.run step s).2 := by
  induction x generalizing s with
  | done value => exact (true_and _).symm.to_iff
  | call request next ih => exact (and_congr_right fun _ => ih _).trans and_assoc.symm

theorem Only.asks (hx : x.Only ok) (s : σ) : x.Asks step ok s := by
  induction x generalizing s with
  | done value => trivial
  | call request next ih => exact ⟨hx.1, ih _ (hx.2 _) _⟩

/-- What requests of a kind keep, a run of them keeps. -/
theorem Asks.keeps {P : σ → Prop} (hx : x.Asks step ok s)
    (hstep : ∀ s request, ok request → P s → P (step request s).2) (hs : P s) :
    P (x.run step s).2 := by
  induction x generalizing s with
  | done value => exact hs
  | call request next ih => exact ih _ hx.2 (hstep s request hx.1 hs)

end Access

namespace Attempt

/-- The same for programs that can fail. -/
def Asks (step : (request : Request) → σ → request.Answer × σ) (ok : Request → Prop)
    (x : Attempt α) (s : σ) : Prop := x.run.Asks step ok s

variable {x : Attempt α} {f : α → Attempt β}

theorem Only.asks (hx : x.Only ok) (s : σ) : x.Asks step ok s := Access.Only.asks hx s

theorem Asks.bind (hx : x.Asks step ok s)
    (hf : Ends step x s (fun a s' => (f a).Asks step ok s') fun _ _ => True) :
    (x >>= f).Asks step ok s := by
  unfold Asks
  rw [ExceptT.run_bind, Access.asks_bind]
  refine ⟨hx, ?_⟩
  unfold Ends at hf
  generalize x.run.run step s = v at hf ⊢
  obtain ⟨e | a, s'⟩ := v
  · trivial
  · exact hf

end Attempt

/-! ## Looks -/

/-- A request that only looks at configuration space and at the power-management block, for which
the index has to be set. -/
def Request.Looks : Request → Prop
  | .readPci8 .. | .readPci16 .. | .readPci32 .. | .readMmio32 _ => True
  | .readIo8 address => address = Piix4.Pm.data
  | .writeIo8 address _ => address = Piix4.Pm.index
  | _ => False

/-- A request that writes to configuration space. -/
def Request.Sets : Request → Prop
  | .writePci8 .. | .writePci16 .. | .writePci32 .. => True
  | _ => False

/-- A look, or a write to configuration space. -/
def Request.Adjusts (request : Request) : Prop := request.Looks ∨ request.Sets

open Request (Looks Adjusts)

namespace Platform

/-- All of a machine but its configuration space, the position of the index of the power-management
block and the number of requests. -/
def remainder (p : Platform) : Platform :=
  { p with
    config := []
    pm := p.pm.map PmBlock.rewound
    counters := { p.counters with calls := 0 } }

variable {p q r : Platform}

theorem Sited.of_remainder (hp : p.Sited) (h : q.remainder = p.remainder) : q.Sited where
  ich h' hh := hp.ich h' ((congrArg Platform.ich h).symm.trans hh)
  piix4 h' hh := hp.piix4 h' ((congrArg Platform.piix4 h).symm.trans hh)

/-- Two machines that differ at most in the position of the index and in the number of requests. -/
structure Alike (p q : Platform) : Prop where
  remainder : q.remainder = p.remainder
  config : q.config = p.config

theorem Alike.trans (h : p.Alike q) (h' : q.Alike r) : p.Alike r :=
  ⟨h'.remainder.trans h.remainder, h'.config.trans h.config⟩

theorem Alike.symm (h : p.Alike q) : q.Alike p := ⟨h.remainder.symm, h.config.symm⟩

theorem Sited.counted (hp : p.Sited) : p.counted.Sited := ⟨hp.ich, hp.piix4⟩

theorem Sited.writeIo_pmIndex (hp : p.Sited) (value : UInt8) : p.writeIo Piix4.Pm.index value =
    { p with pm := p.pm.map fun b => writePm b Piix4.Pm.index value } := by
  have hd : p.decode? Piix4.Pm.index = none := hp.decode_none (by decide) (by decide)
  simp only [writeIo, hd, true_or, if_true]

theorem Sited.readIo_pmData (hp : p.Sited) : p.readIo Piix4.Pm.data =
    (((p.pm.filter fun b => !b.windowOnly).map fun b =>
      b.registers.read b.index.toNat).getD 0xFF, p) := by
  have hd : p.decode? Piix4.Pm.data = none := hp.decode_none (by decide) (by decide)
  have hne : Piix4.Pm.data ≠ Piix4.Pm.index := by decide
  simp only [readIo, hd, if_neg hne, if_true]

theorem rewound_writePm (b : PmBlock) (value : UInt8) :
    (writePm b Piix4.Pm.index value).rewound = b.rewound := by
  unfold writePm
  split <;> rfl

theorem answer_looks (hp : p.Sited) {request : Request} (hr : request.Looks) :
    p.Alike (p.answer request).2 := by
  cases request with
  | readIo8 address =>
      obtain rfl : address = Piix4.Pm.data := hr
      simp only [answer, hp.counted.readIo_pmData]
      exact ⟨rfl, rfl⟩
  | writeIo8 address value =>
      obtain rfl : address = Piix4.Pm.index := hr
      have hpm : (p.pm.map fun b => writePm b Piix4.Pm.index value).map PmBlock.rewound =
          p.pm.map PmBlock.rewound := by
        rw [Option.map_map]
        exact Option.map_congr fun b _ => rewound_writePm b value
      simp only [answer, hp.counted.writeIo_pmIndex]
      exact ⟨by simp only [remainder, counted, hpm], rfl⟩
  | readPci8 | readPci16 | readPci32 | readMmio32 => exact ⟨rfl, rfl⟩
  | _ => cases hr

theorem answer_adjusts (hp : p.Sited) {request : Request} (hr : request.Adjusts) :
    (p.answer request).2.remainder = p.remainder := by
  obtain hr | hr := hr
  · exact (answer_looks hp hr).remainder
  · cases request with
    | writePci8 | writePci16 | writePci32 => rfl
    | _ => cases hr

variable {x : Access α}

/-- A run that only looks leaves the machine as it was. -/
theorem Sited.run_looks (hp : p.Sited) (hx : x.Asks answer Looks p) :
    p.Alike (x.run answer p).2 := by
  refine hx.keeps (P := fun q => p.Alike q) (fun q request hr hq => ?_) ⟨rfl, rfl⟩
  exact hq.trans (answer_looks (hp.of_remainder hq.remainder) hr)

/-- A run that changes at most configuration space leaves the rest as it was. -/
theorem Sited.run_adjusts (hp : p.Sited) (hx : x.Only Adjusts) :
    (x.run answer p).2.remainder = p.remainder := by
  refine (hx.asks p).keeps (P := fun q => q.remainder = p.remainder)
    (fun q request hr hq => ?_) rfl
  exact (answer_adjusts (hp.of_remainder hq) hr).trans hq

end Platform

/-! ## Surveys -/

/-- A program that only looks, and comes to the same on machines that are alike. -/
structure Attempt.Survey (x : Attempt α) : Prop where
  looks : x.Only Looks
  same : ∀ {p q : Platform}, p.Sited → p.Alike q →
    (x.run.run answer q).1 = (x.run.run answer p).1

namespace Attempt

namespace Survey

variable {x y : Attempt α} {f : α → Attempt β}

theorem pure (a : α) : Survey (pure a) := ⟨.pure a, fun _ _ => rfl⟩

theorem throw (e : Error) : Survey (throw e : Attempt α) := ⟨.throw e, fun _ _ => rfl⟩

theorem bind (hx : x.Survey) (hf : ∀ a, (f a).Survey) : (x >>= f).Survey := by
  refine ⟨hx.looks.bind fun a => (hf a).looks, fun {p q} hp hq => ?_⟩
  have hl : ∀ p, x.run.Asks answer Looks p := hx.looks.asks
  have hpx := hp.run_looks (hl p)
  have hqx := (hp.of_remainder hq.remainder).run_looks (hl q)
  rw [ExceptT.run_bind, Access.run_bind, Access.run_bind, hx.same hp hq]
  cases (x.run.run answer p).1 with
  | error e => rfl
  | ok a =>
      exact (hf a).same (hp.of_remainder hpx.remainder) (hpx.symm.trans (hq.trans hqx))

theorem ite {c : Prop} [Decidable c] (hx : x.Survey) (hy : y.Survey) :
    (if c then x else y).Survey := by
  split
  · exact hx
  · exact hy

theorem of_config {g : ConfigSpace → Except Error α} (hl : x.Only Looks)
    (h : ∀ p, (x.run.run answer p).1 = g p.config) : x.Survey :=
  ⟨hl, fun _ hq => by rw [h, h, hq.config]⟩

end Survey

end Attempt

section

variable {location : Pci.Address} {offset : UInt8}

theorem Access.survey_readPci8 : (readPci8 location offset).Survey :=
  .of_config (g := fun c => .ok (UInt8.ofNat (c.read location offset 1))) (only_readPci8 trivial)
    fun _ => rfl

theorem Access.survey_readPci16 : (readPci16 location offset).Survey :=
  .of_config (g := fun c => .ok (UInt16.ofNat (c.read location offset 2))) (only_readPci16 trivial)
    fun _ => rfl

theorem Access.survey_readPci32 : (readPci32 location offset).Survey :=
  .of_config (g := fun c => .ok (UInt32.ofNat (c.read location offset 4))) (only_readPci32 trivial)
    fun _ => rfl

end

namespace Piix4

variable {p : Platform} {pm : PmAccess} {index : UInt8}

/-- What a register of the block shows. -/
def PmAccess.shown (pm : PmAccess) (index : UInt8) (b? : Option PmBlock) : UInt8 :=
  match pm with
  | .indexData =>
    ((b?.filter fun b => !b.windowOnly).map fun b => b.registers.read index.toNat).getD 0xFF
  | .window =>
    let word := (b?.map (·.readWindow (Pm.window + (index &&& ~~~3).toUInt64))).getD 0xFFFFFFFF
    LittleEndian.digit word.toNat (index.toNat % 4)

theorem PmAccess.shown_rewound (b? : Option PmBlock) :
    pm.shown index (b?.map PmBlock.rewound) = pm.shown index b? := by
  cases b? with
  | none => rfl
  | some b =>
      cases pm with
      | window => rfl
      | indexData =>
          simp only [shown, Option.map_some, Option.filter_some, PmBlock.rewound]
          split <;> rfl

/-- Where the index stood before makes no difference. -/
theorem PmAccess.run_read (hp : p.Sited) :
    ((pm.read index).run.run answer p).1 = .ok (pm.shown index p.pm) := by
  cases pm with
  | window => rfl
  | indexData =>
      have hset := hp.counted.writeIo_pmIndex index
      have hq : (p.counted.writeIo Pm.index index).Sited := by
        rw [hset]
        exact ⟨hp.ich, hp.piix4⟩
      have hpm : (p.counted.writeIo Pm.index index).counted.pm =
          p.pm.map fun b => writePm b Pm.index index := congrArg Platform.pm hset
      change Except.ok ((p.counted.writeIo Pm.index index).counted.readIo Pm.data).1 = _
      rw [hq.counted.readIo_pmData, hpm]
      cases p.pm with
      | none => rfl
      | some b => cases hw : b.windowOnly <;> simp [shown, writePm, hw, Option.filter_some]

theorem PmAccess.survey_read : (pm.read index).Survey where
  looks := by
    cases pm with
    | indexData => exact .bind (only_writeIo8 rfl) fun _ => only_readIo8 rfl
    | window => exact .bind (only_readMmio32 trivial) fun _ => .pure _
  same {p q} hp hq := by
    have hpm : q.pm.map PmBlock.rewound = p.pm.map PmBlock.rewound :=
      congrArg Platform.pm hq.remainder
    rw [run_read hp, run_read (hp.of_remainder hq.remainder), ← shown_rewound, hpm, shown_rewound]

end Piix4

/-! ### In configuration space -/

namespace Discovery

theorem survey_identity (location : Pci.Address) : (identity location).Survey := by
  unfold identity
  refine .bind survey_readPci32 fun dword => ?_
  exact .ite (.pure _) (.bind survey_readPci8 fun _ => .pure _)

theorem survey_first (accepts : Pci.Identity → Bool) (locations : List Pci.Address) :
    (first accepts locations).Survey := by
  induction locations with
  | nil => exact .pure _
  | cons location rest ih =>
      refine (survey_identity location).bind fun found => ?_
      cases found with
      | some found => exact .ite (.pure _) ih
      | none => exact ih

end Discovery

/-! ### Of a part that is set up by the power-management block -/

namespace Piix4

variable {pm : PmAccess} (identity : Pci.Identity)

theorem survey_pmBase : (pmBase identity pm).Survey :=
  .ite (PmAccess.survey_read.bind fun _ => PmAccess.survey_read.bind fun _ => .pure _)
    (PmAccess.survey_read.bind fun _ => PmAccess.survey_read.bind fun _ => .pure _)

theorem survey_findSelector : (findSelector identity pm).Survey :=
  .ite (PmAccess.survey_read.bind fun _ => .pure _) (.ite (.pure _) (.pure _))

theorem survey_findImc : (findImc identity).Survey := by
  refine .ite ((Discovery.survey_identity _).bind fun found => ?_) (.pure _)
  cases found with
  | some found => exact survey_readPci8.bind fun _ => .pure _
  | none => exact .pure _

theorem survey_resolveSb800 : (resolveSb800 identity).Survey := by
  refine (survey_pmBase identity).bind fun ⟨enabled, base⟩ => ?_
  refine .ite ?_ (.throw _)
  exact (survey_findSelector identity).bind fun _ => (survey_findImc identity).bind fun _ => .pure _

end Piix4

end DimmBus
