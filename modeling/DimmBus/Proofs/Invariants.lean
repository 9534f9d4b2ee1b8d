import DimmBus.Proofs.Operations

/-!
# Invariants of a session's work

Work that keeps an invariant, put together from work that keeps it.
-/

namespace DimmBus

open Session

/-- A condition on what is remembered and on the machine, while the bus lock is taken or free. It
outlives the taking and giving back of the lock and the loss of the page that is relied on. -/
structure Invariant where
  holds : (locked : Bool) → Memory → Platform → Prop
  lock : ∀ {locked m p}, holds locked m p → p.lockHeld = locked
  holding : ∀ {locked m p} (locked' k), holds locked m p → holds locked' m (p.holding locked' k)
  dropped : ∀ {locked m p}, holds locked m p → holds locked { m with latch := none } p

namespace Invariant

variable {I : Invariant} {α β : Type}

/-- Work that cannot fail keeps the invariant. -/
def KeptBy (I : Invariant) (x : Step α) : Prop :=
  ∀ locked m p, I.holds locked m p → Lands x m p fun _ => I.holds locked

/-- Work that can fail keeps the invariant either way. -/
def Kept (I : Invariant) (x : Operation α) : Prop :=
  ∀ locked m p, I.holds locked m p →
    Completes x m p (fun _ => I.holds locked) (fun _ => I.holds locked)

theorem KeptBy.pure (a : α) : I.KeptBy (pure a) := fun _ _ _ hi => hi

theorem KeptBy.bind {x : Step β} {f : β → Step α} (hx : I.KeptBy x) (hf : ∀ a, I.KeptBy (f a)) :
    I.KeptBy (x >>= f) := fun locked m p hi => by
  rw [lands_bind]
  exact (hx locked m p hi).mono fun a m p hi => hf a locked m p hi

theorem KeptBy.get : I.KeptBy get := fun _ _ _ hi => hi

theorem keptBy_run {x : Operation α} : I.KeptBy x.run ↔ I.Kept x := by
  unfold KeptBy Kept
  simp only [completes_run]

theorem Kept.pure (a : α) : I.Kept (pure a) := fun _ _ _ hi => hi

theorem Kept.throw (e : Error) : I.Kept (throw e : Operation α) := fun _ _ _ hi => hi

theorem Kept.bind {x : Operation β} {f : β → Operation α} (hx : I.Kept x)
    (hf : ∀ a, I.Kept (f a)) : I.Kept (x >>= f) := fun locked m p hi => by
  rw [completes_bind]
  exact (hx locked m p hi).mono (fun a m p hi => hf a locked m p hi) fun _ _ _ hi => hi

theorem Kept.get : I.Kept (get : Operation Memory) := fun _ _ _ hi => hi

theorem Kept.step {x : Step α} (hx : I.KeptBy x) : I.Kept (step x) := fun locked m p hi => by
  rw [completes_step]
  exact hx locked m p hi

theorem Kept.outcome {x : Operation α} (hx : I.Kept x) : I.Kept (outcome x) :=
  fun locked m p hi => by
    rw [completes_outcome]
    exact hx locked m p hi

theorem Kept.ofExcept (r : Except Error α) : I.Kept (Session.ofExcept r) := fun locked _ _ hi =>
  completes_ofExcept_post (Q := fun _ => I.holds locked) hi

theorem Kept.adapt {x : Operation α} {f : Error → Error} (hx : I.Kept x) :
    I.Kept (ExceptT.adapt f x) := fun locked m p hi => by
  rw [completes_adapt]
  exact hx locked m p hi

theorem Kept.locked {link : Link} {body : Operation α} (hx : I.Kept body) :
    I.Kept (locked link body) := fun taken m p hi => by
  refine completes_locked (fun _ k => ?_) fun hfree _ k => ?_
  · rw [I.lock hi]
    exact I.holding taken k hi
  · have htaken : taken = false := (I.lock hi).symm.trans hfree
    rw [htaken] at hi ⊢
    exact (hx true m _ (I.holding true k hi)).mono (fun _ _ _ hi' k' => I.holding false k' hi')
      fun _ _ _ hi' k' => I.holding false k' hi'

theorem Kept.retrying {link : Link} {body : Operation α} (hx : I.Kept body) :
    I.Kept (retrying link body) := fun locked _ _ hi =>
  completes_retryingWithin (I := I.holds locked) _
    (fun m p hi => (hx locked m p hi).mono (fun _ _ _ hi => hi) fun _ _ _ hi =>
      ⟨I.dropped hi, I.dropped hi⟩) hi

/-! ## Work that is put together from reads -/

section

variable {link : Link} {slot : UInt8}

theorem kept_confirmed (h : I.KeptBy (probe link slot)) : I.Kept (confirmed link slot) := by
  unfold confirmed
  split
  · refine (Kept.step h).bind fun g => ?_
    split
    · exact .pure _
    · exact .throw _
  · exact .throw _

theorem kept_readAll (h : ∀ address, I.Kept (readSpd link slot address))
    (entries : Array (UInt16 × UInt8)) (addresses : List UInt16) :
    I.Kept (readAll link slot entries addresses) := by
  induction addresses generalizing entries with
  | nil => exact .pure _
  | cons address rest ih =>
      rw [readAll]
      exact (h address).bind fun _ => ih _

theorem kept_dump (hc : I.Kept (confirmed link slot))
    (h : ∀ address, I.Kept (readSpd link slot address)) (mode : DumpMode) :
    I.Kept (dump link slot mode) := by
  unfold dump
  refine hc.bind fun g => ?_
  exact (kept_readAll h _ _).bind fun _ => .pure _

theorem kept_findDiscreteSensor {address : UInt16} (h : I.Kept (readSpd link slot address))
    (hq : I.Kept (send link (.quick (Spd.sensorAddress slot) .write))) :
    I.Kept (findDiscreteSensor link slot address) := by
  unfold findDiscreteSensor
  refine h.bind fun announced => ?_
  split
  · refine (Kept.retrying (Kept.locked hq)).outcome.bind fun r => ?_
    split
    · exact .pure _
    · split
      · exact .pure _
      · exact .throw _
  · exact .pure _

theorem kept_thermalAvailable (h : I.Kept (thermalCapability link slot)) :
    I.KeptBy (thermalAvailable link slot) := by
  unfold thermalAvailable
  refine (keptBy_run.mpr h).bind fun r => ?_
  split
  · exact .pure _
  · exact .pure _

end

/-! ## All work -/

section

variable {link : Link} (hsend : ∀ tx, I.Kept (send link tx))
  (hlatch : ∀ latch, I.KeptBy (modify fun m => { m with latch }))

include hsend

theorem kept_readByte (slave command : UInt8) : I.Kept (readByte link slave command) := by
  unfold readByte
  refine (hsend _).bind fun payload => ?_
  split
  · exact .pure _
  · exact .throw _

theorem kept_readWord (tx : Transaction) : I.Kept (readWord link tx) := by
  unfold readWord
  refine (hsend _).bind fun payload => ?_
  split
  · exact .pure _
  · exact .throw _

theorem kept_enableHubSensor (slave : UInt8) : I.Kept (enableHubSensor link slave) := by
  unfold enableHubSensor
  refine (kept_readByte hsend _ _).bind fun capability => ?_
  split
  · refine (kept_readByte hsend _ _).bind fun config => ?_
    dsimp only
    split
    · exact (hsend _).bind fun _ => .pure _
    · exact .pure _
  · exact .pure _

theorem kept_probeLegacy (slot : UInt8) : I.Kept (probeLegacy link slot) := by
  unfold probeLegacy
  exact (kept_readByte hsend _ _).bind fun _ => .pure _

include hlatch

theorem kept_selectPage (g : Generation) (slave page : UInt8) :
    I.Kept (selectPage link g slave page) := by
  unfold selectPage
  split
  · exact .pure _
  · refine Kept.get.bind fun _ => ?_
    split
    · exact .pure _
    · refine (hsend _).outcome.bind fun r => ?_
      split
      · exact .step (hlatch _)
      · exact (Kept.step (hlatch _)).bind fun _ => .throw _

theorem kept_probeDdr4 (slot : UInt8) : I.Kept (probeDdr4 link slot) := by
  unfold probeDdr4
  refine (hsend _).bind fun _ => ?_
  refine (kept_selectPage hsend hlatch _ _ _).bind fun _ => ?_
  exact (kept_readByte hsend _ _).bind fun _ => .pure _

theorem kept_probeDdr5 (slot : UInt8) : I.Kept (probeDdr5 link slot) := by
  unfold probeDdr5
  refine (kept_readByte hsend _ _).bind fun kind => ?_
  split
  · refine (kept_readByte hsend _ _).bind fun shown => ?_
    refine (Kept.step (hlatch _)).bind fun _ => ?_
    refine (kept_selectPage hsend hlatch _ _ _).bind fun _ => ?_
    exact (kept_readByte hsend _ _).bind fun _ => .pure _
  · exact .pure _

omit hsend in
theorem keptBy_firstFound {probes : List (Generation × Operation (Option UInt8))}
    (hall : ∀ entry ∈ probes, I.Kept entry.2) : I.KeptBy (firstFound probes) := by
  induction probes with
  | nil => exact .pure _
  | cons entry rest ih =>
      obtain ⟨g, probe⟩ := entry
      have hrest := ih fun entry he => hall entry (List.mem_cons_of_mem _ he)
      rw [firstFound]
      refine (keptBy_run.mpr (hall (g, probe) List.mem_cons_self)).bind fun r => ?_
      split
      · exact .pure _
      · exact hrest
      · exact (hlatch _).bind fun _ => hrest

theorem keptBy_probeSlot (slot : UInt8) : I.KeptBy (probeSlot link slot) := by
  refine keptBy_firstFound hlatch fun entry he => ?_
  simp only [List.mem_cons, List.not_mem_nil, or_false] at he
  obtain rfl | rfl | rfl := he
  · exact kept_probeDdr4 hsend hlatch slot
  · exact kept_probeDdr5 hsend hlatch slot
  · exact kept_probeLegacy hsend slot

theorem keptBy_probe (hfound : ∀ slot g code, I.KeptBy (modify fun m =>
    m.setModule slot ⟨g, code, none⟩)) (slot : UInt8) : I.KeptBy (probe link slot) := by
  unfold probe
  split
  · refine KeptBy.get.bind fun m => ?_
    split
    · exact .pure _
    · have hslot := keptBy_probeSlot hsend hlatch slot
      refine (keptBy_run.mpr (Kept.step hslot).locked).bind fun r => ?_
      split
      · exact (hfound _ _ _).bind fun _ => .pure _
      · exact .pure _
  · exact .pure _

end

/-- An invariant that every transaction keeps, whatever page is relied on, and probes as well. -/
structure Robust (I : Invariant) (link : Link) : Prop where
  send : ∀ tx, I.Kept (send link tx)
  transfer : ∀ tx, I.Kept (transfer link tx)
  latch : ∀ latch, I.KeptBy (modify fun m => { m with latch })
  probe : ∀ slot, I.KeptBy (probe link slot)
  forget : I.KeptBy forgetModules

/-- It does not count what is remembered of temperature sensors. -/
def Senseless (I : Invariant) : Prop :=
  ∀ slot available, I.KeptBy (modify fun m =>
    match m.module? slot with
    | some found => m.setModule slot { found with thermal := some available }
    | none => m)

namespace Robust

variable {link : Link} (h : I.Robust link) (slot : UInt8)

include h

theorem confirmed : I.Kept (confirmed link slot) := kept_confirmed (h.probe slot)

theorem readSpd (address : UInt16) : I.Kept (readSpd link slot address) := by
  unfold Session.readSpd readAttempt
  refine (h.confirmed slot).bind fun g => ?_
  refine (Kept.ofExcept _).bind fun location => ?_
  refine Kept.adapt (Kept.retrying (Kept.locked ?_))
  exact (kept_selectPage h.send h.latch _ _ _).bind fun _ => kept_readByte h.send _ _

theorem findSensor (g : Generation) : I.Kept (findSensor link slot g) := by
  cases g with
  | ddr3 => exact kept_findDiscreteSensor (h.readSpd slot 32) (h.send _)
  | ddr4 => exact kept_findDiscreteSensor (h.readSpd slot 14) (h.send _)
  | ddr5 => exact .adapt (.retrying (.locked (kept_enableHubSensor h.send _)))

theorem thermalCapability (hs : I.Senseless) : I.Kept (thermalCapability link slot) := by
  unfold Session.thermalCapability
  refine (h.confirmed slot).bind fun g => ?_
  refine Kept.get.bind fun m => ?_
  split
  · exact .pure _
  · refine (h.findSensor slot g).bind fun available => ?_
    exact (Kept.step (hs slot available)).bind fun _ => .pure _

/-- What is done once it is known that there is a sensor. -/
theorem reading (g : Generation) (sensor : ThermalSensor) :
    I.Kept (locked link do
      selectPage link g (Spd.eepromAddress slot) 0
      readWord link sensor.reading) :=
  .locked ((kept_selectPage h.send h.latch _ _ _).bind fun _ => kept_readWord h.send _)

theorem readTemperature (hs : I.Senseless) : I.Kept (readTemperature link slot) := by
  unfold Session.readTemperature
  refine (h.confirmed slot).bind fun g => ?_
  refine (h.thermalCapability slot hs).bind fun available => ?_
  split
  · exact (Kept.adapt (.retrying (h.reading slot g _))).bind fun word => .pure _
  · exact .throw _

end Robust

end Invariant

end DimmBus
