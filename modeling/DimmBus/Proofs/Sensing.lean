import DimmBus.Proofs.Awareness
import DimmBus.Proofs.Sensors

/-!
# Finding out about sensors

What a session remembers of a sensor is true. When it could not find out, it remembers nothing.
-/

namespace DimmBus

open Session Invariant

/-! ## Memory -/

/-- What is remembered of the sensor of a slot. -/
def Memory.thermal? (m : Memory) (slot : UInt8) : Option Bool := (m.module? slot).bind (·.thermal)

theorem Memory.thermal?_empty (slot : UInt8) : Memory.empty.thermal? slot = none := by
  rw [thermal?, module?_empty]
  rfl

theorem Memory.thermal?_setModule (m : Memory) (slot slot' : UInt8) (found : Module) :
    (m.setModule slot found).thermal? slot' =
      if slot = slot' ∧ slot.toNat < 8 then found.thermal else m.thermal? slot' := by
  unfold thermal?
  rw [module?_setModule]
  split <;> rfl

/-- Whether the sensor of a slot can be used is as told. -/
def Segment.HasSensor (g : Segment) (slot : UInt8) (available : Bool) : Prop :=
  g.hasSensor slot = available

/-- So are those of all slots but one, of which nothing is told. -/
def Segment.HasSensorBut (g : Segment) (slot₀ slot : UInt8) (available : Bool) : Prop :=
  g.HasSensor slot available ∧ slot ≠ slot₀

/-- The failure says that something is not supported. -/
def Error.Unsupported (e : Error) : Prop := ∃ cause, e = .unsupported cause

/-! ## Failures to find out -/

namespace Session

variable {link : Link} {m : Memory} {p : Platform} {slot : UInt8} {kind : Generation}

theorem supported_confirmed :
    Completes (confirmed link slot) m p (fun _ _ _ => True) fun e _ _ => ¬e.Unsupported := by
  unfold confirmed
  split
  · rw [completes_bind, completes_step]
    refine lands_of_forall fun found? m p => ?_
    cases found? with
    | some found => trivial
    | none => nofun
  · nofun

theorem supported_readSpd {address : UInt16} :
    Completes (readSpd link slot address) m p (fun _ _ _ => True) fun e _ _ => ¬e.Unsupported := by
  unfold readSpd locate
  rw [completes_bind]
  refine supported_confirmed.mono (fun kind m p _ => ?_) fun _ _ _ h => h
  rw [completes_bind]
  cases kind.locate? address with
  | none => nofun
  | some location =>
      rw [completes_ofExcept_ok, completes_adapt]
      exact completes_of_forall (fun _ _ _ => trivial) fun _ _ _ => nofun

theorem supported_findSensor :
    Completes (findSensor link slot kind) m p (fun _ _ _ => True)
      fun e _ _ => ¬e.Unsupported := by
  have hdiscrete : ∀ address, Completes (findDiscreteSensor link slot address) m p
      (fun _ _ _ => True) fun e _ _ => ¬e.Unsupported := by
    intro address
    unfold findDiscreteSensor
    rw [completes_bind]
    refine supported_readSpd.mono (fun announced m p _ => ?_) fun _ _ _ h => h
    dsimp only
    split
    · rw [completes_bind, completes_outcome]
      refine completes_of_forall (fun _ _ _ => trivial) fun e _ _ => ?_
      dsimp only
      split
      · trivial
      · nofun
    · trivial
  cases kind with
  | ddr3 => exact hdiscrete 32
  | ddr4 => exact hdiscrete 14
  | ddr5 =>
      unfold findSensor
      rw [completes_adapt]
      exact completes_of_forall (fun _ _ _ => trivial) fun _ _ _ => nofun

/-- A module that is confirmed is remembered. -/
theorem remembers_confirmed :
    Completes (confirmed link slot) m p
      (fun kind m _ => ∃ found, m.module? slot = some found ∧ found.generation = kind)
      fun _ _ _ => True := by
  unfold confirmed probe
  split
  · rename_i hslot
    rw [completes_bind, completes_step, lands_bind, lands_get]
    cases hf : m.module? slot with
    | some found => exact ⟨found, hf, rfl⟩
    | none =>
        dsimp only
        rw [lands_bind]
        refine lands_of_forall fun r m p => ?_
        split
        · rename_i kind code
          rw [lands_bind, lands_modify, lands_pure]
          dsimp only
          rw [completes_pure]
          refine ⟨⟨kind, code, none⟩, ?_, rfl⟩
          rw [Memory.module?_setModule, if_pos ⟨rfl, hslot⟩]
        · trivial
  · trivial

/-- Once the module is confirmed, finding out about its sensor goes on as it would have done. -/
theorem completes_again {ok : Bool → Memory → Platform → Prop}
    {bad : Error → Memory → Platform → Prop}
    (h : Completes (thermalCapability link slot) m p ok bad) :
    Completes (confirmed link slot) m p
      (fun _ m p => Completes (thermalCapability link slot) m p ok bad) bad := by
  unfold thermalCapability at h ⊢
  rw [completes_bind] at h
  refine (h.and remembers_confirmed).mono (fun kind m p h => ?_) fun _ _ _ h => h.1
  obtain ⟨h, found, hf, rfl⟩ := h
  rw [completes_known hf]
  exact h

end Session

namespace Binding

variable {b : Binding} {g₀ : Segment} {faults : List Fault} {locked : Bool} {m : Memory}
  {p : Platform} {slot : UInt8} {known known' : UInt8 → Bool → Prop} {kind : Generation}

/-- The slaves are those of the segment `g₀` as far as temperatures go, and nothing is remembered of
sensors but what may be known. -/
structure Senses (b : Binding) (g₀ : Segment) (known : UInt8 → Bool → Prop) (faults : List Fault)
    (locked : Bool) (m : Memory) (p : Platform) : Prop where
  holds : b.Holds faults locked p
  announces : p.segment.Agree Slave.announces g₀
  raw : p.segment.Agree Slave.raw? g₀
  thermal : ∀ slot available, m.thermal? slot = some available → known slot available

def sensing (b : Binding) (g₀ : Segment) (known : UInt8 → Bool → Prop) (faults : List Fault) :
    Invariant where
  holds locked m p := b.Senses g₀ known faults locked m p
  lock hi := hi.holds.lock
  holding locked k hi := ⟨hi.holds.holding locked k, hi.announces, hi.raw, hi.thermal⟩
  dropped hi := ⟨hi.holds, hi.announces, hi.raw, hi.thermal⟩

theorem sensing_outlasts : b.Outlasts faults (b.sensing g₀ known faults) where
  holds hi := hi.holds
  execute {locked m p p' t} hi hp' hg := by
    obtain hg | hg := hg
    · exact ⟨hp', hg ▸ hi.announces, hg ▸ hi.raw, hi.thermal⟩
    · exact ⟨hp', hg ▸ hi.announces.execute Slave.constant_announces t,
        hg ▸ hi.raw.execute Slave.constant_raw t, hi.thermal⟩

/-- A module that was just found is one of whose sensor nothing is known. -/
theorem sensing_found (slot : UInt8) (kind : Generation) (code : UInt8) :
    (b.sensing g₀ known faults).KeptBy (modify fun m => m.setModule slot ⟨kind, code, none⟩) :=
  fun locked m p hi => by
    rw [lands_modify]
    refine ⟨hi.holds, hi.announces, hi.raw, fun slot' available h => hi.thermal slot' available ?_⟩
    rw [Memory.thermal?_setModule] at h
    split at h
    · cases h
    · exact h

theorem sensing_robust : (b.sensing g₀ known faults).Robust b.link where
  send := sensing_outlasts.send
  transfer := sensing_outlasts.transfer
  latch _ _ _ _ hi := ⟨hi.holds, hi.announces, hi.raw, hi.thermal⟩
  probe := keptBy_probe sensing_outlasts.send
    (fun _ _ _ _ hi => ⟨hi.holds, hi.announces, hi.raw, hi.thermal⟩) sensing_found
  forget _ _ _ hi := by
    refine ⟨hi.holds, hi.announces, hi.raw, fun slot available h => ?_⟩
    change Memory.empty.thermal? slot = some available at h
    rw [Memory.thermal?_empty] at h
    cases h

/-- What is remembered is true, of modules, of the page that they show and, as far as it may be
known, of their sensors. -/
structure Feels (b : Binding) (g₀ : Segment) (known : UInt8 → Bool → Prop) (faults : List Fault)
    (locked : Bool) (m : Memory) (p : Platform) : Prop extends
    b.Sound g₀ faults locked m p, b.Senses g₀ known faults locked m p

theorem Feels.mono (hi : b.Feels g₀ known faults locked m p)
    (h : ∀ slot available, m.thermal? slot = some available → known' slot available) :
    b.Feels g₀ known' faults locked m p :=
  ⟨hi.toSound, hi.announces, hi.raw, h⟩

theorem Feels.dropped (hi : b.Feels g₀ known faults locked m p) :
    b.Feels g₀ known faults locked { m with latch := none } p :=
  ⟨hi.toInformed.dropped, hi.announces, hi.raw, hi.thermal⟩

theorem Sound.feels (hi : b.Sound g₀ faults locked m p)
    (hs : b.Senses g₀ known faults locked m p) : b.Feels g₀ known faults locked m p :=
  ⟨hi, hs.announces, hs.raw, hs.thermal⟩

/-- Work that keeps what is true, with what its result says. -/
theorem Feels.completes {α : Type} {x : Operation α} {ok : α → Prop} {bad : Error → Prop}
    (hi : b.Feels g₀ known faults locked m p) (haware : (b.awareness g₀ faults).Kept x)
    (hsense : (b.sensing g₀ known faults).Kept x)
    (hx : Completes x m p (fun a _ _ => ok a) fun e _ _ => bad e) :
    Completes x m p (fun a m p => b.Feels g₀ known faults locked m p ∧ ok a)
      fun e m p => b.Feels g₀ known faults locked m p ∧ bad e := by
  have hkept := (haware locked m p hi.toSound).and (hsense locked m p hi.toSenses)
  exact (hkept.and hx).mono (fun _ _ _ h => ⟨h.1.1.feels h.1.2, h.2⟩)
    fun _ _ _ h => ⟨h.1.1.feels h.1.2, h.2⟩

/-- The same work again and again. -/
theorem Feels.retrying {α : Type} {x : Operation α} {ok : α → Prop} {bad : Error → Prop}
    (hi : b.Feels g₀ known faults locked m p) (haware : (b.awareness g₀ faults).Kept x)
    (hsense : (b.sensing g₀ known faults).Kept x)
    (hx : ∀ {m p}, b.Feels g₀ known faults locked m p →
      Completes x m p (fun a _ _ => ok a) fun e _ _ => bad e) :
    Completes (Session.retrying b.link x) m p
      (fun a m p => b.Feels g₀ known faults locked m p ∧ ok a)
      fun e m p => b.Feels g₀ known faults locked m p ∧ bad e :=
  completes_retryingWithin (I := b.Feels g₀ known faults locked) _
    (fun _ _ hi => (hi.completes haware hsense (hx hi)).mono (fun _ _ _ h => h)
      fun _ _ _ h => ⟨h.1.dropped, h.1.dropped, h.2⟩) hi

/-! ## Discrete sensors -/

theorem plain_quickSensor (slot : UInt8) : Plain (.quick (Spd.sensorAddress slot) .write) := by
  refine ⟨?_, ⟨rfl, ?_⟩, rfl⟩
  · simp [Transaction.validate, Transaction.quick, Spd.sensorAddress_le, Transaction.fits]
  · simp [Transaction.quick]

theorem Informed.isSome_slave (hi : b.Informed g₀ faults locked m p) (address : UInt8) :
    (p.segment.slave? address).isSome = (g₀.slave? address).isSome := by
  have hl := congrArg Option.isSome (hi.knows.lasting address)
  rw [Segment.lasting?, Segment.lasting?, Option.isSome_map, Option.isSome_map] at hl
  exact hl

/-- Whether the chip acknowledges tells whether it is there, once it is clear that transactions
reach the bus. -/
theorem completes_quickSensor (hi : b.Informed g₀ faults locked m p) (hreaches : b.Reaches faults) :
    Completes (Session.locked b.link (send b.link (.quick (Spd.sensorAddress slot) .write))) m p
      (fun _ _ _ => (g₀.slave? (Spd.sensorAddress slot)).isSome = true)
      fun e _ _ => if e.isNak then (g₀.slave? (Spd.sensorAddress slot)).isSome = false
        else ¬b.Free faults locked := by
  have hplain := plain_quickSensor slot
  refine completes_underLock hi (fun p' _ _ hn => ?_) fun p' hi' _ _ => ?_
  · exact hn
  · have hreply := Segment.execute_quickSensor p'.segment slot
    have hsome := hi'.isSome_slave (Spd.sensorAddress slot)
    refine completes_send hi'.holds (fun _ p₁ h _ => ?_) fun e p₁ h _ => ?_
    · obtain ⟨reply, hr, -⟩ := h.replied hplain
      rw [hreply] at hr
      obtain ⟨s, hs, -⟩ := Option.map_eq_some_iff.mp hr
      rw [← hsome, hs]
      rfl
    · obtain ⟨hr, hnak⟩ := h.unanswered hreaches hplain
      rw [hreply, Option.map_eq_none_iff] at hr
      rw [if_pos hnak, ← hsome, hr]
      rfl

/-- So it does however often it is asked. -/
theorem completes_presence (hi : b.Sound g₀ faults locked m p) (hreaches : b.Reaches faults) :
    Completes (Session.retrying b.link (Session.locked b.link
      (send b.link (.quick (Spd.sensorAddress slot) .write)))) m p
      (fun _ _ _ => (g₀.slave? (Spd.sensorAddress slot)).isSome = true)
      fun e _ _ => if e.isNak then (g₀.slave? (Spd.sensorAddress slot)).isSome = false
        else ¬b.Free faults locked := by
  have hkept : (b.awareness g₀ faults).Kept (Session.locked b.link
      (send b.link (.quick (Spd.sensorAddress slot) .write))) :=
    .locked (aware_send (still_quickSensor slot))
  refine completes_retryingWithin (I := b.Sound g₀ faults locked) _ (fun m p hi => ?_) hi
  exact ((hkept locked m p hi).and (completes_quickSensor hi.toInformed hreaches)).mono
    (fun _ _ _ h => h.2) fun _ _ _ h => ⟨h.1.toInformed.dropped, h.2⟩

/-- Next to an EEPROM, the byte and the chip are both asked for. -/
theorem completes_findDiscreteSensor {address : UInt16} (hg : g₀.Telling)
    (hi : b.Sound g₀ faults locked m p) (hslot : slot.toNat < Spd.slotCount)
    (hkind : g₀.generation? (Spd.eepromAddress slot) = some kind)
    (ha : Segment.announcement? kind = some address) :
    Completes (findDiscreteSensor b.link slot address) m p
      (fun available _ _ => g₀.hasSensor slot = available) fun _ _ _ => ¬b.Free faults locked := by
  unfold findDiscreteSensor
  rw [completes_bind]
  refine completes_readSpd hg hi (fun value m₁ p₁ hi₁ hreaches hv => ?_)
    fun e m₁ p₁ _ hnone hf => ?_
  · rw [Segment.hasSensor_of_stored hkind ha hv]
    dsimp only
    split
    · rename_i hbit
      rw [completes_bind, completes_outcome]
      refine (completes_presence hi₁ hreaches).mono (fun _ _ _ h => ?_) fun e _ _ h => ?_
      · rw [hbit, h]
        rfl
      · dsimp only
        split at h
        · rename_i hnak
          rw [if_pos hnak, hbit, h]
          rfl
        · rename_i hnak
          rw [if_neg hnak]
          exact h
    · rename_i hbit
      rw [Bool.not_eq_true] at hbit
      rw [completes_pure, hbit]
      rfl
  · obtain ⟨value, hv⟩ := hg.announcement hkind ha
    rw [hnone hf hslot] at hv
    cases hv

/-! ## Hubs -/

theorem plain_sensorConfig (slot value : UInt8) :
    Plain (.writeByteData (Spd.eepromAddress slot) Spd.HubRegister.sensorConfig value) := by
  refine ⟨?_, ⟨rfl, ?_⟩, rfl⟩
  · simp [Transaction.validate, Transaction.writeByteData, Spd.eepromAddress_le, Transaction.fits]
  · simp [Transaction.writeByteData]

/-- A hub tells in its register, whether its sensor is switched off or not. -/
theorem completes_enableHubSensor (hi : b.Informed g₀ faults locked m p)
    (ha : p.segment.Agree Slave.announces g₀)
    (h5 : g₀.generation? (Spd.eepromAddress slot) = some .ddr5) :
    Completes (enableHubSensor b.link (Spd.eepromAddress slot)) m p
      (fun available _ _ => g₀.hasSensor slot = available) fun _ _ _ => ¬b.Calm faults := by
  unfold enableHubSensor
  rw [completes_bind]
  refine completes_readByte hi (fun s p₁ hi₁ _ _ hs => ?_) fun e p₁ _ _ hnone hc =>
    generation_of_absent hi (hnone hc.reaches) h5
  have hhub : s.lasting.generation = some .ddr5 := by
    rw [← Segment.generation?_of_slave hs, hi.knows.generation, h5]
  cases s with
  | hub h =>
      rw [← ha.hasSensor hi.knows.lasting, Segment.hasSensor_of_hub hs,
        Lasting.Recognisable.read_register (by decide)]
      have hannounces : (Slave.hub h).announces = hasAny (h.registers.read
        Spd.HubRegister.capability.toNat) Spd.HubRegister.sensorCapable := rfl
      split
      · rename_i hbit
        rw [hannounces, hbit, completes_bind]
        refine completes_readByte hi₁ (fun s₁ p₂ hi₂ _ _ _ => ?_) fun e p₂ _ _ hnone hc =>
          generation_of_absent hi₁ (hnone hc.reaches) h5
        dsimp only
        split
        · rw [completes_bind]
          refine completes_send hi₂.holds (fun _ _ _ => rfl) fun e p₃ h hc => ?_
          have hr := h.unacknowledged hc.reaches (plain_sensorConfig slot _)
          rw [Segment.execute_sensorConfig, Option.map_eq_none_iff] at hr
          exact generation_of_absent hi₂ hr h5
        · rfl
      · rename_i hbit
        rw [Bool.not_eq_true] at hbit
        rw [hannounces, hbit]
        rfl
  | flat => cases hhub
  | paged => cases hhub
  | sensor => cases hhub

/-! ## Any sensor -/

theorem completes_findSensor (hg : g₀.Telling) (hi : b.Feels g₀ known faults locked m p)
    (hslot : slot.toNat < Spd.slotCount)
    (hkind : g₀.generation? (Spd.eepromAddress slot) = some kind) :
    Completes (findSensor b.link slot kind) m p
      (fun available m p => b.Feels g₀ known faults locked m p ∧ g₀.hasSensor slot = available)
      fun _ m p => b.Feels g₀ known faults locked m p ∧ ¬b.Free faults locked := by
  have haware : (b.awareness g₀ faults).Kept (findSensor b.link slot kind) :=
    aware_findSensor hg slot kind
  have hsense : (b.sensing g₀ known faults).Robust b.link := sensing_robust
  cases kind with
  | ddr3 | ddr4 =>
      exact hi.completes haware (hsense.findSensor slot _)
        (completes_findDiscreteSensor hg hi.toSound hslot hkind rfl)
  | ddr5 =>
      unfold findSensor
      rw [completes_adapt]
      refine hi.retrying (.locked (aware_enableHubSensor slot))
        (.locked (kept_enableHubSensor hsense.send _)) fun hi => ?_
      refine completes_underLock hi.toInformed (fun p' _ _ hn => hn) fun p' hi' hsame _ => ?_
      exact (completes_enableHubSensor hi' (hsame ▸ hi.announces) hkind).mono
        (fun _ _ _ h _ => h) fun _ _ _ h _ hf => h hf.1

/-! ## What is remembered -/

theorem Feels.confirmed (hg : g₀.Telling) (hi : b.Feels g₀ known faults locked m p) :
    Completes (confirmed b.link slot) m p
      (fun kind m p => b.Feels g₀ known faults locked m p ∧ slot.toNat < Spd.slotCount ∧
        g₀.generation? (Spd.eepromAddress slot) = some kind)
      fun e m p => b.Feels g₀ known faults locked m p ∧
        (b.Free faults locked → slot.toNat < Spd.slotCount →
          g₀.generation? (Spd.eepromAddress slot) = none) ∧ ¬e.Unsupported := by
  have hfound : Completes (Session.confirmed b.link slot) m p
      (fun kind _ _ => slot.toNat < Spd.slotCount ∧
        g₀.generation? (Spd.eepromAddress slot) = some kind)
      fun _ _ _ => b.Free faults locked → slot.toNat < Spd.slotCount →
        g₀.generation? (Spd.eepromAddress slot) = none :=
    completes_confirmed hg hi.toSound (fun _ _ _ _ hslot hkind => ⟨hslot, hkind⟩)
      fun _ _ _ _ h => h
  exact hi.completes (aware_confirmed hg slot) (sensing_robust.confirmed slot)
    ((hfound.and supported_confirmed).mono (fun _ _ _ h => h.1) fun _ _ _ h => h)

/-- A session that found out remembers it. -/
theorem Feels.sensed (hi : b.Feels g₀ (g₀.HasSensorBut slot) faults locked m p) {found : Module}
    (hf : m.module? slot = some found) {available : Bool} (h : g₀.HasSensor slot available) :
    b.Feels g₀ g₀.HasSensor faults locked
      (m.setModule slot { found with thermal := some available }) p := by
  refine ⟨⟨hi.toInformed.sensed hf available, hi.trusts⟩, hi.announces, hi.raw,
    fun slot' available' ht => ?_⟩
  rw [Memory.thermal?_setModule] at ht
  split at ht
  · rename_i hs
    rw [← hs.1, ← Option.some.inj ht]
    exact h
  · exact (hi.thermal slot' available' ht).1

theorem Feels.told (hi : b.Feels g₀ (g₀.HasSensorBut slot) faults locked m p) :
    b.Feels g₀ g₀.HasSensor faults locked m p ∧ m.thermal? slot = none :=
  ⟨hi.mono fun slot' available h => (hi.thermal slot' available h).1,
    Option.eq_none_iff_forall_ne_some.mpr fun available h => (hi.thermal slot available h).2 rfl⟩

/-- What is found out about a sensor is true. A failure to find out is not remembered. -/
theorem completes_thermalCapability (hg : g₀.Telling)
    (hi : b.Feels g₀ g₀.HasSensor faults locked m p) :
    Completes (thermalCapability b.link slot) m p
      (fun available m p => b.Feels g₀ g₀.HasSensor faults locked m p ∧
        g₀.HasSensor slot available ∧ (g₀.generation? (Spd.eepromAddress slot)).isSome = true)
      fun e m p => b.Feels g₀ g₀.HasSensor faults locked m p ∧ m.thermal? slot = none ∧
        (b.Free faults locked → slot.toNat < Spd.slotCount →
          g₀.generation? (Spd.eepromAddress slot) = none) ∧ ¬e.Unsupported := by
  unfold thermalCapability
  cases hm : m.thermal? slot with
  | some available =>
      obtain ⟨found, hf, ht⟩ := Option.bind_eq_some_iff.mp hm
      rw [completes_known hf, completes_bind, completes_get, hf, Option.bind_some, ht]
      refine ⟨hi, hi.thermal slot available hm, ?_⟩
      rw [hi.knows.modules slot found hf]
      rfl
  | none =>
      have hi : b.Feels g₀ (g₀.HasSensorBut slot) faults locked m p :=
        hi.mono fun slot' available h => by
          refine ⟨hi.thermal slot' available h, fun hs => ?_⟩
          rw [hs, hm] at h
          cases h
      rw [completes_bind]
      refine (hi.confirmed hg).mono (fun kind m₁ p₁ h => ?_) fun e m₁ p₁ h => ?_
      · obtain ⟨hi₁, hslot, hkind⟩ := h
        have hnone : (m₁.module? slot).bind (·.thermal) = none := hi₁.told.2
        rw [completes_bind, completes_get, hnone]
        dsimp only
        rw [completes_bind]
        refine ((completes_findSensor hg hi₁ hslot hkind).and supported_findSensor).mono
          (fun available m₂ p₂ h => ?_) fun e m₂ p₂ h => ?_
        · obtain ⟨⟨hi₂, hhas⟩, -⟩ := h
          rw [completes_bind, completes_step, lands_modify, completes_pure, hkind]
          refine ⟨?_, hhas, rfl⟩
          cases hf : m₂.module? slot with
          | none => exact hi₂.told.1
          | some found => exact hi₂.sensed hf hhas
        · obtain ⟨⟨hi₂, hn⟩, hsupported⟩ := h
          exact ⟨hi₂.told.1, hi₂.told.2, fun hf => absurd hf hn, hsupported⟩
      · obtain ⟨hi₁, hnone, hsupported⟩ := h
        exact ⟨hi₁.told.1, hi₁.told.2, hnone, hsupported⟩

end Binding

end DimmBus
