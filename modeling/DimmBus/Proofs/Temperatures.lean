import DimmBus.Proofs.Hosted
import DimmBus.Proofs.Sensing

/-!
# Temperatures

A temperature is the reading that the sensor holds, whatever was done before. A module without a
sensor is not mistaken for one that has it, nor the other way round.
-/

namespace DimmBus

open Session Invariant

/-! ## Numbers -/

/-- A reading counts sixteenths in two's complement, in its low thirteen bits. -/
theorem Temperature.ofReading_eq (raw : UInt16) :
    (ofReading raw).sixteenths = (raw.toBitVec.setWidth 13).toInt := by
  have hlow : (raw.toBitVec.setWidth 13).toNat = raw.toNat % 8192 := BitVec.toNat_setWidth ..
  rw [BitVec.toInt_eq_toNat_cond, hlow]
  unfold ofReading
  dsimp only
  split <;> split <;> dsimp only <;> omega

namespace Binding

variable {b : Binding} {g₀ : Segment} {faults : List Fault} {locked : Bool} {m : Memory}
  {p : Platform} {slot : UInt8} {known : UInt8 → Bool → Prop} {kind : Generation}

/-! ## Readings -/

theorem plain_reading (kind : Generation) (slot : UInt8) :
    Plain (ThermalSensor.ofModule kind slot).reading := by
  refine ⟨?_, ⟨?_, ?_⟩, ?_⟩ <;> cases kind
  all_goals simp [ThermalSensor.ofModule, ThermalSensor.reading, Transaction.readWordData,
    Transaction.validate, Transaction.fits, Protocol.isBlock, Spd.sensorAddress_le,
    Spd.eepromAddress_le]

theorem completes_readReading (hc : g₀.ChipsOnly) (hi : b.Informed g₀ faults locked m p)
    (hraw : p.segment.Agree Slave.raw? g₀)
    (hkind : g₀.generation? (Spd.eepromAddress slot) = some kind) :
    Completes (readWord b.link (ThermalSensor.ofModule kind slot).reading) m p
      (fun word _ _ => ∃ raw, g₀.raw? slot = some raw ∧
        (ThermalSensor.ofModule kind slot).temperature word = .ofReading raw)
      fun _ _ _ => b.Calm faults → g₀.hasSensor slot = false := by
  have hplain := plain_reading kind slot
  have hkind' : p.segment.generation? (Spd.eepromAddress slot) = some kind :=
    (hi.knows.generation _).trans hkind
  have hreply := Segment.execute_reading hkind'
  unfold readWord
  rw [completes_bind]
  refine completes_send hi.holds (fun payload p' h => ?_) fun e p' h hcalm => ?_
  · obtain ⟨reply, hr, rfl⟩ := h.replied hplain
    obtain ⟨s, -, rfl⟩ := Option.map_eq_some_iff.mp (hreply.symm.trans hr)
    obtain ⟨raw, hr, ht⟩ :=
      Segment.temperature_of_execute (hc.congr hi.knows.lasting) hkind' hr
    exact ⟨raw, (hraw.raw hi.knows.lasting slot).symm.trans hr, ht⟩
  · have hr := h.unacknowledged hcalm.reaches hplain
    rw [hreply, Option.map_eq_none_iff] at hr
    have hsame := hraw.sensor hi.knows.lasting slot
    rw [hr, Option.map_none, eq_comm, Option.map_eq_none_iff] at hsame
    rw [Segment.hasSensor, hsame, Option.isSome_none, Bool.and_false]

/-- One attempt to get at a reading, on the page that hubs have their registers on. -/
theorem completes_readingAttempt (hc : g₀.ChipsOnly) (hi : b.Feels g₀ known faults locked m p)
    (hkind : g₀.generation? (Spd.eepromAddress slot) = some kind) :
    Completes (Session.locked b.link do
      selectPage b.link kind (Spd.eepromAddress slot) 0
      readWord b.link (ThermalSensor.ofModule kind slot).reading) m p
      (fun word _ _ => ∃ raw, g₀.raw? slot = some raw ∧
        (ThermalSensor.ofModule kind slot).temperature word = .ofReading raw)
      fun _ _ _ => b.Free faults locked → g₀.hasSensor slot = false := by
  refine completes_underLock hi.toInformed (fun p' _ _ hn hf => absurd hf hn)
    fun p' hi' hsame _ => ?_
  have hi' : b.Feels g₀ known faults true m p' := {
    toSound := hi'.sound (hsame ▸ hi.trusts)
    announces := hsame ▸ hi.announces
    raw := hsame ▸ hi.raw
    thermal := hi.thermal }
  have hselect : Completes (selectPage b.link kind (Spd.eepromAddress slot) 0) m p'
      (fun _ m p => b.Feels g₀ known faults true m p) fun _ _ _ => ¬b.Calm faults := by
    have hsense : (b.sensing g₀ known faults).Kept
        (selectPage b.link kind (Spd.eepromAddress slot) 0) :=
      kept_selectPage sensing_robust.send sensing_robust.latch _ _ _
    refine ((aware_selectPage hkind (pageOf_zero kind) hi'.toSound).and
      (hsense true m p' hi'.toSenses)).mono (fun _ _ _ h => h.1.feels h.2) fun _ _ _ h => h.1.2
  rw [completes_bind]
  refine hselect.mono (fun _ m₁ p₁ hi₁ => ?_) fun _ _ _ hn _ hf => absurd hf.1 hn
  exact (completes_readReading hc hi₁.toInformed hi₁.raw hkind).mono (fun _ _ _ h _ => h)
    fun _ _ _ h _ hf => h hf.1

/-- A temperature is the reading of the sensor. It is said to be unsupported only where there is a
module without a sensor, and where nothing is in the way, a sensor is read. -/
theorem completes_readTemperature (hg : g₀.Telling) (hc : g₀.ChipsOnly)
    (hi : b.Feels g₀ g₀.HasSensor faults locked m p) :
    Completes (readTemperature b.link slot) m p
      (fun t m p => b.Feels g₀ g₀.HasSensor faults locked m p ∧ g₀.hasSensor slot = true ∧
        ∃ raw, g₀.raw? slot = some raw ∧ t = .ofReading raw)
      fun e m p => b.Feels g₀ g₀.HasSensor faults locked m p ∧
        (e.Unsupported → (g₀.generation? (Spd.eepromAddress slot)).isSome = true ∧
          g₀.hasSensor slot = false) ∧
        (b.Free faults locked → slot.toNat < Spd.slotCount → g₀.hasSensor slot = false) := by
  unfold readTemperature
  rw [completes_bind]
  refine (hi.confirmed hg).mono (fun kind m₁ p₁ h => ?_) fun e m₁ p₁ h => ?_
  · obtain ⟨hi₁, -, hkind⟩ := h
    rw [completes_bind]
    refine (completes_thermalCapability hg hi₁).mono (fun available m₂ p₂ h => ?_)
      fun e m₂ p₂ h => ?_
    · obtain ⟨hi₂, hhas, hsome⟩ := h
      cases available with
      | true =>
          rw [if_pos rfl, completes_bind, completes_adapt]
          refine (hi₂.retrying (aware_reading hkind) (sensing_robust.reading slot kind _) fun hi =>
            completes_readingAttempt hc hi hkind).mono (fun word m₃ p₃ h => ?_) fun e m₃ p₃ h => ?_
          · obtain ⟨hi₃, raw, hraw, ht⟩ := h
            exact ⟨hi₃, hhas, raw, hraw, ht⟩
          · exact ⟨h.1, nofun, fun hf _ => h.2 hf⟩
      | false => exact ⟨hi₂, fun _ => ⟨hsome, hhas⟩, fun _ _ => hhas⟩
    · obtain ⟨hi₂, -, hnone, hsupported⟩ := h
      exact ⟨hi₂, fun hu => absurd hu hsupported, fun hf hlt =>
        Segment.hasSensor_absent hg (hnone hf hlt)⟩
  · obtain ⟨hi₁, hnone, hsupported⟩ := h
    exact ⟨hi₁, fun hu => absurd hu hsupported, fun hf hlt =>
      Segment.hasSensor_absent hg (hnone hf hlt)⟩

/-! ## Steps -/

/-- What is remembered is true, of sensors as well. -/
def feeling (b : Binding) (g₀ : Segment) (faults : List Fault) : Invariant where
  holds locked m p := b.Feels g₀ g₀.HasSensor faults locked m p
  lock hi := hi.holds.lock
  holding locked k hi :=
    (hi.toSound.holding locked k).feels ((b.sensing g₀ _ faults).holding locked k hi.toSenses)
  dropped hi := hi.dropped

theorem keptBy_feeling {α : Type} {x : Step α} (haware : (b.awareness g₀ faults).KeptBy x)
    (hsense : (b.sensing g₀ g₀.HasSensor faults).KeptBy x) : (b.feeling g₀ faults).KeptBy x :=
  fun locked m p hi =>
    (haware locked m p hi.toSound).feels (hsense locked m p hi.toSenses)

theorem kept_feeling {α : Type} {x : Operation α} (haware : (b.awareness g₀ faults).Kept x)
    (hsense : (b.sensing g₀ g₀.HasSensor faults).Kept x) : (b.feeling g₀ faults).Kept x :=
  keptBy_run.mp (keptBy_feeling (keptBy_run.mpr haware) (keptBy_run.mpr hsense))

theorem feeling_probe (hg : g₀.Telling) (slot : UInt8) :
    (b.feeling g₀ faults).KeptBy (probe b.link slot) :=
  keptBy_feeling (aware_probe hg slot) (sensing_robust.probe slot)

theorem feeling_thermalCapability (hg : g₀.Telling) (slot : UInt8) :
    (b.feeling g₀ faults).Kept (thermalCapability b.link slot) := fun _ _ _ hi =>
  (completes_thermalCapability hg hi).mono (fun _ _ _ h => h.1) fun _ _ _ h => h.1

theorem feeling_job (hg : g₀.Telling) (hc : g₀.ChipsOnly) (job : Job) :
    (b.feeling g₀ faults).KeptBy (job.work b.link) := by
  have hsense : (b.sensing g₀ g₀.HasSensor faults).Robust b.link := sensing_robust
  refine keptBy_job (feeling_probe hg)
    (fun slot address => kept_feeling (aware_readSpd hg slot address) (hsense.readSpd slot address))
    (feeling_thermalCapability hg) (fun slot _ _ _ hi => ?_)
    (fun tx => kept_feeling (aware_transfer tx) (hsense.transfer tx))
    (keptBy_feeling (fun _ _ _ hi => hi.toInformed.empty) hsense.forget) job
  exact (completes_readTemperature hg hc hi).mono (fun _ _ _ h => h.1) fun _ _ _ h => h.1

/-- Between two moves, what is remembered is true, and the modules announce what they announced from
the beginning. -/
structure Feeling (b : Binding) (g₀ : Segment) (w : Bench) : Prop where
  aware : b.Aware g₀ w
  announces : w.machine.segment.Agree Slave.announces g₀
  thermal : ∀ slot available, w.session.memory.thermal? slot = some available →
    g₀.HasSensor slot available

namespace Feeling

variable {w : Bench}

theorem hasSensor (hw : b.Feeling g₀ w) (slot : UInt8) :
    w.machine.segment.hasSensor slot = g₀.hasSensor slot :=
  hw.announces.hasSensor hw.aware.2.knows.lasting slot

/-- The readings may have changed since the beginning. They are those of the slaves as they are. -/
theorem feels (hw : b.Feeling g₀ w) :
    b.Feels w.machine.segment w.machine.segment.HasSensor w.machine.faults false w.session.memory
      w.machine where
  toSound := hw.aware.2.rebase
  announces _ := rfl
  raw _ := rfl
  thermal slot available h := (hw.hasSensor slot).trans (hw.thermal slot available h)

theorem telling (hw : b.Feeling g₀ w) (hg : g₀.Telling) : w.machine.segment.Telling :=
  hg.congr hw.aware.2.knows.lasting

theorem chipsOnly (hw : b.Feeling g₀ w) (hc : g₀.ChipsOnly) : w.machine.segment.ChipsOnly :=
  hc.congr hw.aware.2.knows.lasting

/-- Work that keeps what is remembered true of the slaves as they are, and their readings. -/
theorem perform {α : Type} (hw : b.Feeling g₀ w) (work : Link → Step α) {R : α → Prop}
    (h : Lands (work b.link) w.session.memory w.machine fun a m p =>
      b.Feels w.machine.segment w.machine.segment.HasSensor w.machine.faults false m p ∧ R a) :
    b.Feeling g₀ (w.perform work).2 ∧ R (w.perform work).1 ∧
      ∀ slot, (w.perform work).2.machine.segment.raw? slot = w.machine.segment.raw? slot := by
  rw [← hw.aware.1] at h
  obtain ⟨⟨hi, hr⟩, hlink⟩ := Bench.lands_perform h
  refine ⟨⟨⟨hlink.trans hw.aware.1, ?_⟩, fun address => (hi.announces address).trans
    (hw.announces address), fun slot available ha => ?_⟩, hr, hi.raw.raw hi.knows.lasting⟩
  · rw [hi.holds.faults]
    exact hi.toSound.congr hw.aware.2.knows.lasting
  · exact (hw.hasSensor slot).symm.trans (hi.thermal slot available ha)

theorem step (hg : g₀.Telling) (hc : g₀.ChipsOnly) (hw : b.Feeling g₀ w) {move : Move}
    (hm : b.held = true ∨ move ≠ .inject .semaphoreHeld) : b.Feeling g₀ (w.step move) := by
  have haware := hw.aware.step hg hm
  cases move with
  | job job =>
      have hkept : (b.feeling w.machine.segment w.machine.faults).KeptBy (job.work b.link) :=
        feeling_job (hw.telling hg) (hw.chipsOnly hc) job
      exact (hw.perform job.work (R := fun _ => True) ((hkept _ _ _ hw.feels).mono
        fun _ _ _ h => ⟨h, trivial⟩)).1
  | inject fault =>
      refine ⟨haware, ?_, hw.thermal⟩
      change (w.machine.inject fault).segment.Agree Slave.announces g₀
      rw [Platform.segment_inject]
      exact hw.announces
  | clearFaults => exact ⟨haware, hw.announces, hw.thermal⟩
  | setTemperature slot raw =>
      exact ⟨haware, fun address =>
        (Platform.announces_setTemperature slot raw address).trans (hw.announces address),
        hw.thermal⟩

theorem after (hg : g₀.Telling) (hc : g₀.ChipsOnly) (hw : b.Feeling g₀ w) (hh : b.held = true)
    (moves : List Move) : b.Feeling g₀ (w.after moves) := by
  induction moves generalizing w with
  | nil => exact hw
  | cons move moves ih => exact ih (hw.step hg hc (.inl hh))

end Feeling

theorem exists_feeling (ha : p.Assembled) {config : Config} {w : Bench}
    (hw : w.StartedOn p config) :
    ∃ b : Binding, b.Feeling p.segment w ∧ b.held = true ∧ b.link.controller.Follows config := by
  obtain ⟨b, haware, hheld, hfollows, -, hmemory, hu⟩ :=
    exists_aware_of_laid ha.laid ha.telling.2 hw
  refine ⟨b, ⟨haware, fun address => ?_, fun slot available h => ?_⟩, hheld, hfollows⟩
  · rw [hu.segment]
  · rw [hmemory, Memory.thermal?_empty] at h
    cases h

end Binding

/-! ## What a session says -/

namespace Bench

/-- The session finds out whether the module in a slot has a sensor. -/
def sense (w : Bench) (slot : UInt8) : Except Error Bool × Bench :=
  w.perform fun link => (thermalCapability link slot).run

/-- The same with any failure taken for a no. -/
def thermalAvailable (w : Bench) (slot : UInt8) : Bool × Bench :=
  w.perform fun link => Session.thermalAvailable link slot

def temperature (w : Bench) (slot : UInt8) : Except Error Temperature × Bench :=
  w.perform fun link => (readTemperature link slot).run

/-- What it remembers of the sensor, none while this is not known. -/
def thermalKnown (w : Bench) (slot : UInt8) : Option Bool := w.session.memory.thermal? slot

variable {w v : Bench} {slot : UInt8} {e : Error}

theorem perform_eq_iff {α : Type} {work : Link → Step α} {out : α × Bench} :
    w.perform work = out ↔ Lands (work w.session.link) w.session.memory w.machine
      fun a m p => (a, ⟨⟨w.session.link, m⟩, p⟩) = out := by
  unfold perform Session.perform
  rw [Access.run_bind]
  rfl

/-- A failure to find out is the failure of everything that asks for it. -/
theorem temperature_of_sense (h : w.sense slot = (.error e, v)) :
    w.temperature slot = (.error e, v) ∧ w.thermalAvailable slot = (false, v) := by
  unfold sense at h
  rw [perform_eq_iff, completes_run] at h
  unfold temperature thermalAvailable
  constructor
  · rw [perform_eq_iff, completes_run]
    unfold readTemperature
    rw [completes_bind]
    refine (completes_again h).mono (fun g m p h => ?_) fun e' m p h => ?_
    · rw [completes_bind]
      refine h.mono (fun _ _ _ h => ?_) fun e' m p h => ?_
      · cases h
      · cases h
        rfl
    · cases h
      rfl
  · rw [perform_eq_iff]
    unfold Session.thermalAvailable
    rw [lands_bind, completes_run]
    refine h.mono (fun _ _ _ h => ?_) fun e' m p h => ?_
    · cases h
    · cases h
      rfl

end Bench

namespace Binding.Feeling

variable {b : Binding} {g₀ : Segment} {w v : Bench} {slot : UInt8} {e : Error}

/-- What asking for a temperature comes to. -/
theorem temperature (hg : g₀.Telling) (hc : g₀.ChipsOnly) (hw : b.Feeling g₀ w) (slot : UInt8) :
    match (w.temperature slot).1 with
    | .ok t => ∃ raw, w.machine.segment.raw? slot = some raw ∧ t = .ofReading raw
    | .error e =>
      (e.Unsupported → (g₀.generation? (Spd.eepromAddress slot)).isSome = true ∧
        g₀.hasSensor slot = false) ∧
      (b.Free w.machine.faults false → slot.toNat < Spd.slotCount → g₀.hasSensor slot = false) := by
  have h := @completes_readTemperature _ _ _ _ _ _ slot (hw.telling hg) (hw.chipsOnly hc) hw.feels
  rw [← hw.aware.1, hw.hasSensor, hw.aware.2.knows.generation] at h
  have hr := w.completes_perform (readTemperature · slot) h
  unfold Bench.temperature
  generalize w.perform (fun link => (readTemperature link slot).run) = out at hr ⊢
  obtain ⟨_ | _, v⟩ := out
  · exact hr.2
  · exact hr.2.2

/-- A failure to find out leaves open whether there is a sensor. -/
theorem thermalKnown_of_sense (hg : g₀.Telling) (hw : b.Feeling g₀ w)
    (h : w.sense slot = (.error e, v)) : v.thermalKnown slot = none := by
  have hi := @completes_thermalCapability _ _ _ _ _ _ slot (hw.telling hg) hw.feels
  rw [← hw.aware.1] at hi
  have hr := w.completes_perform (thermalCapability · slot) hi
  unfold Bench.sense at h
  rw [h] at hr
  exact hr.2.1

end Binding.Feeling

/-- A session is brought up on an assembled machine. After any history, a temperature is the reading
that the sensor holds, in sixteenths. It is unsupported only for a module without a sensor, and
where nothing is in the way, every sensor is read. A failure to find out whether there is one is
handed up and not remembered, and whatever is remembered of sensors is true. -/
theorem temperatures_are_readings {p : Platform} (ha : p.Assembled) {config : Config} {w : Bench}
    (hw : w.StartedOn p config) (moves : List Move) (slot : UInt8) :
    let v := w.after moves
    (∀ t, (v.temperature slot).1 = .ok t → ∃ raw, v.machine.segment.raw? slot = some raw ∧
      t.sixteenths = (raw.toBitVec.setWidth 13).toInt) ∧
    (∀ cause, (v.temperature slot).1 = .error (.unsupported cause) →
      (p.moduleAt? slot).isSome = true ∧ p.segment.hasSensor slot = false) ∧
    (config.piix4Port = 0 → (config.poll w.session.link.controller.family).retries ≠ 0 →
      v.machine.faults = [] → slot.toNat < Spd.slotCount → p.segment.hasSensor slot = true →
      ∃ t, (v.temperature slot).1 = .ok t) ∧
    (∀ e v', v.sense slot = (.error e, v') → v'.thermalKnown slot = none ∧
      v.temperature slot = (.error e, v') ∧ v.thermalAvailable slot = (false, v')) ∧
    (∀ available, v.thermalKnown slot = some available → p.segment.hasSensor slot = available) ∧
    v.machine.segment.hasSensor slot = p.segment.hasSensor slot ∧
    (p.segment.hasSensor slot = true → ∀ raw,
      (v.machine.setTemperature slot raw).segment.raw? slot = some raw) := by
  intro v
  obtain ⟨b, hfeeling, hheld, hfollows⟩ := Binding.exists_feeling ha hw
  have hg := ha.telling.1
  have hv : b.Feeling p.segment v := hfeeling.after hg ha.chipsOnly hheld moves
  have ht := hv.temperature hg ha.chipsOnly slot
  refine ⟨fun t h => ?_, fun cause h => ?_, fun hport hpoll hfaults hslot hhas => ?_,
    fun e v' h => ⟨hv.thermalKnown_of_sense hg h, Bench.temperature_of_sense h⟩, hv.thermal slot,
    hv.hasSensor slot, fun hhas => ?_⟩
  · rw [h] at ht
    obtain ⟨raw, hraw, rfl⟩ := ht
    exact ⟨raw, hraw, Temperature.ofReading_eq raw⟩
  · rw [h] at ht
    obtain ⟨hsome, hhas⟩ := ht.1 ⟨cause, rfl⟩
    obtain ⟨kind, hkind⟩ := Option.isSome_iff_exists.mp hsome
    obtain ⟨s, hs, -⟩ := Segment.slave_of_generation hkind
    refine ⟨?_, hhas⟩
    rw [Platform.moduleAt?, hs]
    rfl
  · cases hr : (v.temperature slot).1 with
    | ok t => exact ⟨t, rfl⟩
    | error e =>
        rw [hr] at ht
        rw [hfeeling.aware.1] at hpoll
        have hattends := hfollows.attends hpoll fun _ => hport
        rw [ht.2 ⟨⟨hfaults, hattends⟩, rfl⟩ hslot] at hhas
        cases hhas
  · rw [← hv.hasSensor] at hhas
    exact Platform.raw_setTemperature (hv.chipsOnly ha.chipsOnly) hhas

/-- The last reading that was set is read, here one just below zero. While the lock is refused,
nothing is found out about the sensor of a module that is known. -/
theorem temperatures_are_readings_intelSample :
    ∃ w : Bench, w.StartedOn Platform.intelSample {} ∧
      (∃ t, (((w.after [.job (.temperature 0), .inject .stall, .job (.temperature 0),
        .clearFaults]).step (.setTemperature 0 0xFFFF)).temperature 0).1 = .ok t ∧
        t.sixteenths = -1) ∧
      ∃ e v, (w.after [.job (.probe 0), .inject .lockContended]).sense 0 = (.error e, v) ∧
        v.thermalKnown 0 = none := by
  have hp := Platform.hosted_intelSample
  have hrun : (Bench.started? Platform.intelSample).any (fun w =>
      let v := w.after [.job (.probe 0), .inject .lockContended]
      w.session.link.controller.family == .ich && (v.sense 0).1.toOption.isNone) = true := by
    rw [Platform.intelSample_eq]
    decide +kernel
  have hhas : Platform.intelSample.segment.hasSensor 0 = true := by
    rw [Platform.intelSample_eq]
    decide +kernel
  obtain ⟨w, hw, hrun⟩ := (Option.any_eq_true _ _).mp hrun
  simp only [Bool.and_eq_true, beq_iff_eq] at hrun
  have hw := Bench.startedOn_of_started hw
  refine ⟨w, hw, ?_, ?_⟩
  · let past : List Move :=
      [.job (.temperature 0), .inject .stall, .job (.temperature 0), .clearFaults]
    have hpoll : ((({} : Config).poll w.session.link.controller.family).retries) ≠ 0 := by
      rw [hrun.1]
      decide
    obtain ⟨-, -, -, -, -, -, hset⟩ := temperatures_are_readings hp.assembled hw past 0
    obtain ⟨hreading, -, hread, -⟩ :=
      temperatures_are_readings hp.assembled hw (past ++ [.setTemperature 0 0xFFFF]) 0
    rw [Bench.after_concat] at hreading hread
    have hfaults : ((w.after past).step (.setTemperature 0 0xFFFF)).machine.faults = [] := by
      rw [Bench.step]
      dsimp only
      rw [Platform.setTemperature_eq]
      rfl
    obtain ⟨t, ht⟩ := hread rfl hpoll hfaults (by decide) hhas
    obtain ⟨raw, hraw, he⟩ := hreading t ht
    obtain rfl : raw = 0xFFFF := Option.some.inj (hraw.symm.trans (hset hhas 0xFFFF))
    exact ⟨t, ht, he.trans (by decide)⟩
  · obtain ⟨-, -, -, hsense, -⟩ := temperatures_are_readings hp.assembled hw
      [.job (.probe 0), .inject .lockContended] 0
    have hfails := hrun.2
    cases hr : (w.after [.job (.probe 0), .inject .lockContended]).sense 0 with
    | mk r v =>
        rw [hr] at hfails
        cases r with
        | ok available => cases hfails
        | error e => exact ⟨e, v, rfl, (hsense e v hr).1⟩

end DimmBus
