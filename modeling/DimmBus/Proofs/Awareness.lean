import DimmBus.Proofs.History
import DimmBus.Proofs.Reading

/-!
# Memories stay true

Whatever a session does, what it remembers stays true of the modules and of the page they show.
-/

namespace DimmBus

open Session Invariant

namespace Binding

variable {b : Binding} {g₀ : Segment} {faults : List Fault} {locked : Bool} {m : Memory}
  {p : Platform} {slot : UInt8}

/-- What is remembered is true. -/
def awareness (b : Binding) (g₀ : Segment) (faults : List Fault) : Invariant where
  holds locked m p := b.Sound g₀ faults locked m p
  lock hi := hi.holds.lock
  holding locked k hi := hi.holding locked k
  dropped hi := hi.toInformed.dropped

/-! ## Modules and their bytes -/

theorem aware_probe (hg : g₀.Telling) (slot : UInt8) :
    (b.awareness g₀ faults).KeptBy (probe b.link slot) := fun _ _ _ hi =>
  lands_probe hg.recognisable hi.toInformed fun _ _ _ hi' ht _ _ => hi'.sound (ht hi.trusts)

theorem aware_confirmed (hg : g₀.Telling) (slot : UInt8) :
    (b.awareness g₀ faults).Kept (confirmed b.link slot) := kept_confirmed (aware_probe hg slot)

theorem aware_readSpd (hg : g₀.Telling) (slot : UInt8) (address : UInt16) :
    (b.awareness g₀ faults).Kept (readSpd b.link slot address) := fun _ _ _ hi =>
  completes_readSpd hg hi (fun _ _ _ hi' _ _ => hi') fun _ _ _ hi' _ => hi'

/-! ## Transactions that move no page -/

theorem aware_send {tx : Transaction} (ht : tx.request.Still) :
    (b.awareness g₀ faults).Kept (send b.link tx) := fun _ _ _ hi =>
  completes_send hi.holds
    (fun _ _ h => (hi.toInformed.succeeds h).sound (hi.trusts.still (h.still ht)))
    fun _ _ h => (hi.toInformed.fails h).sound (hi.trusts.still (h.still ht))

theorem aware_readByte (slot command : UInt8) :
    (b.awareness g₀ faults).Kept (readByte b.link (Spd.eepromAddress slot) command) := by
  unfold readByte
  refine (aware_send (still_readByte slot command)).bind fun payload => ?_
  split
  · exact .pure _
  · exact .throw _

theorem still_quickSensor (slot : UInt8) :
    (Transaction.quick (Spd.sensorAddress slot) .write).request.Still :=
  ⟨Spd.isLatch_sensor slot, .inl rfl⟩

theorem still_sensorConfig (slot value : UInt8) :
    (Transaction.writeByteData (Spd.eepromAddress slot) Spd.HubRegister.sensorConfig
      value).request.Still :=
  ⟨Spd.isLatch_eeprom slot, .inr (.inr ⟨rfl, (by decide : Spd.HubRegister.sensorConfig ≠
    Spd.HubRegister.page)⟩)⟩

theorem still_reading (g : Generation) (slot : UInt8) :
    (ThermalSensor.ofModule g slot).reading.request.Still := by
  cases g with
  | ddr3 => exact ⟨Spd.isLatch_sensor slot, .inr (.inl ⟨rfl, .inr rfl⟩)⟩
  | ddr4 => exact ⟨Spd.isLatch_sensor slot, .inr (.inl ⟨rfl, .inr rfl⟩)⟩
  | ddr5 => exact ⟨Spd.isLatch_eeprom slot, .inr (.inl ⟨rfl, .inr rfl⟩)⟩

/-! ## Sensors -/

theorem aware_enableHubSensor (slot : UInt8) :
    (b.awareness g₀ faults).Kept (enableHubSensor b.link (Spd.eepromAddress slot)) := by
  unfold enableHubSensor
  refine (aware_readByte slot _).bind fun capability => ?_
  split
  · refine (aware_readByte slot _).bind fun config => ?_
    dsimp only
    split
    · exact (aware_send (still_sensorConfig slot _)).bind fun _ => .pure _
    · exact .pure _
  · exact .pure _

theorem aware_findSensor (hg : g₀.Telling) (slot : UInt8) (g : Generation) :
    (b.awareness g₀ faults).Kept (findSensor b.link slot g) := by
  have hquick : (b.awareness g₀ faults).Kept
      (send b.link (.quick (Spd.sensorAddress slot) .write)) := aware_send (still_quickSensor slot)
  cases g with
  | ddr3 => exact kept_findDiscreteSensor (aware_readSpd hg slot 32) hquick
  | ddr4 => exact kept_findDiscreteSensor (aware_readSpd hg slot 14) hquick
  | ddr5 => exact .adapt (.retrying (.locked (aware_enableHubSensor slot)))

/-- The module that gets the answer was remembered before. -/
theorem Informed.sensed (hi : b.Informed g₀ faults locked m p) {found : Module}
    (hf : m.module? slot = some found) (available : Bool) :
    b.Informed g₀ faults locked (m.setModule slot { found with thermal := some available }) p :=
  ⟨hi.holds, hi.knows.setModule _ (hi.knows.modules slot found hf) (hi.knows.codes slot found hf)⟩

theorem aware_thermalCapability (hg : g₀.Telling) (slot : UInt8) :
    (b.awareness g₀ faults).Kept (thermalCapability b.link slot) := by
  unfold thermalCapability
  refine (aware_confirmed hg slot).bind fun g => ?_
  refine Kept.get.bind fun m => ?_
  split
  · exact .pure _
  · refine (aware_findSensor hg slot g).bind fun available => ?_
    refine (Kept.step fun locked m p hi => ?_).bind fun _ => .pure _
    rw [lands_modify]
    cases hf : m.module? slot with
    | none => exact hi
    | some found => exact ⟨hi.toInformed.sensed hf available, hi.trusts⟩

/-- The page of the module that is in the slot. -/
theorem aware_selectPage {g : Generation} {page : UInt8} {locked : Bool} {m : Memory}
    {p : Platform} (hkind : g₀.generation? (Spd.eepromAddress slot) = some g)
    (hpage : PageOf g page) (hi : b.Sound g₀ faults locked m p) :
    Completes (selectPage b.link g (Spd.eepromAddress slot) page) m p
      (fun _ => b.Sound g₀ faults locked)
      fun _ m p => b.Sound g₀ faults locked m p ∧ ¬b.Calm faults := by
  cases ht : pageSelect? g (Spd.eepromAddress slot) page with
  | none =>
      unfold selectPage
      rw [ht]
      exact hi
  | some tx =>
      exact completes_selectPage hpage ht hi.toInformed (fun hl => shows_of_trusts hi ht hl)
        (fun _ _ hi₁ hl₁ hs₁ => hi₁.sound (trusts_of_shown hl₁ (hs₁ hkind)))
        fun _ _ _ hi₁ hl₁ hn => ⟨hi₁.sound (trusts_of_none hl₁), fun hc => hn hc.reaches hkind⟩

theorem aware_reading {g : Generation} (hkind : g₀.generation? (Spd.eepromAddress slot) = some g) :
    (b.awareness g₀ faults).Kept (Session.locked b.link do
      selectPage b.link g (Spd.eepromAddress slot) 0
      readWord b.link (ThermalSensor.ofModule g slot).reading) := by
  have hpage : (b.awareness g₀ faults).Kept (selectPage b.link g (Spd.eepromAddress slot) 0) :=
    fun _ _ _ hi =>
      (aware_selectPage hkind (pageOf_zero g) hi).mono (fun _ _ _ hi => hi) fun _ _ _ h => h.1
  refine .locked (hpage.bind fun _ => ?_)
  unfold readWord
  refine (aware_send (still_reading g slot)).bind fun payload => ?_
  split
  · exact .pure _
  · exact .throw _

theorem aware_readTemperature (hg : g₀.Telling) (slot : UInt8) :
    (b.awareness g₀ faults).Kept (readTemperature b.link slot) := fun locked m p hi => by
  unfold readTemperature
  rw [completes_bind]
  refine completes_confirmed hg hi (fun g m₁ p₁ hi₁ _ hkind => ?_) fun _ _ _ hi₁ _ => hi₁
  refine ((aware_thermalCapability hg slot).bind fun available => ?_) locked m₁ p₁ hi₁
  split
  · exact Kept.bind (.adapt (.retrying (aware_reading hkind))) fun _ => .pure _
  · exact .throw _

/-! ## Everything else -/

/-- Before a transaction of the user, no page is relied on any more. -/
theorem aware_transfer (tx : Transaction) :
    (b.awareness g₀ faults).Kept (transfer b.link tx) := fun locked m p hi => by
  rw [transfer, completes_bind]
  refine completes_accept (fun ha => ?_) fun _ _ => hi
  simp only [completes_bind, completes_step, lands_dropLatch]
  refine completes_locked (fun _ k => ?_) fun hfree _ k => ?_
  · have hd := (hi.holding p.lockHeld k).toInformed.dropped
    rw [hi.holds.lock] at hd ⊢
    exact hd
  · have hlocked : locked = false := hi.holds.lock.symm.trans hfree
    have hd := (hi.holding true k).toInformed.dropped
    rw [hlocked]
    refine completes_carry ha hd.holds (fun _ p' h k' => ?_) fun _ p' h k' => ?_
    · exact ((hd.toInformed.succeeds h).sound (trusts_of_none rfl)).holding false k'
    · exact ((hd.toInformed.fails h).sound (trusts_of_none rfl)).holding false k'

theorem Sound.empty (hp : b.Holds faults locked p)
    (hl : ∀ address, p.segment.lasting? address = g₀.lasting? address)
    (hpage : p.segment.page ≤ 1) :
    b.Sound g₀ faults locked .empty p := by
  have hnothing : ∀ {slot : UInt8} {found : Module}, Memory.empty.module? slot ≠ some found := by
    intro slot found hf
    rw [Memory.module?_empty] at hf
    cases hf
  exact ⟨⟨hp, hl, hpage, fun _ _ hf => absurd hf hnothing, fun _ _ hf => absurd hf hnothing⟩,
    trusts_of_none rfl⟩

/-- Only what lasts of the slaves counts. -/
theorem Sound.congr {g : Segment} (hi : b.Sound g₀ faults locked m p)
    (hl : ∀ address, g₀.lasting? address = g.lasting? address) : b.Sound g faults locked m p := by
  have hgeneration : ∀ address, g₀.generation? address = g.generation? address := fun address => by
    rw [Segment.generation?, Segment.generation?, hl]
  have hcode : ∀ slot, g₀.code? slot = g.code? slot := fun slot => by
    rw [Segment.code?, Segment.code?, hl]
  refine ⟨⟨hi.holds, fun address => (hi.knows.lasting address).trans (hl address), hi.knows.page,
    fun slot found hf => ?_, fun slot found hf => ?_⟩, hi.trusts⟩
  · rw [← hgeneration]
    exact hi.knows.modules slot found hf
  · rw [← hcode]
    exact hi.knows.codes slot found hf

/-- What is remembered is true of the slaves as they are now. -/
theorem Sound.rebase (hi : b.Sound g₀ faults locked m p) : b.Sound p.segment faults locked m p :=
  hi.congr fun address => (hi.knows.lasting address).symm

theorem Informed.empty (hi : b.Informed g₀ faults locked m p) :
    b.Sound g₀ faults locked .empty p := .empty hi.holds hi.knows.lasting hi.knows.page

theorem aware_job (hg : g₀.Telling) (job : Job) :
    (b.awareness g₀ faults).KeptBy (job.work b.link) :=
  keptBy_job (aware_probe hg) (aware_readSpd hg) (aware_thermalCapability hg)
    (aware_readTemperature hg) aware_transfer (fun _ _ _ hi => hi.toInformed.empty) job

/-! ## Whatever page is shown -/

/-- What is remembered of the modules is true. -/
def knowledge (b : Binding) (g₀ : Segment) (faults : List Fault) : Invariant where
  holds locked m p := b.Informed g₀ faults locked m p
  lock hi := hi.holds.lock
  holding locked k hi := hi.holding locked k
  dropped hi := hi.relatch none

theorem knowledge_outlasts : b.Outlasts faults (b.knowledge g₀ faults) :=
  ⟨fun hi => hi.holds, fun hi hp' hg => hi.execute hp' hg⟩

theorem knowledge_robust (hg : g₀.Recognisable) : (b.knowledge g₀ faults).Robust b.link where
  send := knowledge_outlasts.send
  transfer := knowledge_outlasts.transfer
  latch latch _ _ _ hi := hi.relatch latch
  probe _ _ _ _ hi := lands_probe hg hi fun _ _ _ hi' _ _ _ => hi'
  forget _ _ _ hi := hi.empty.toInformed

theorem knowledge_senseless : (b.knowledge g₀ faults).Senseless := fun slot available _ m _ hi => by
  rw [lands_modify]
  cases hf : m.module? slot with
  | none => exact hi
  | some found => exact hi.sensed hf available

/-! ## Histories -/

/-- Between two moves, the lock is free and what the session remembers of the modules is true. -/
def Knowing (b : Binding) (g₀ : Segment) (w : Bench) : Prop :=
  w.session.link = b.link ∧ b.Informed g₀ w.machine.faults false w.session.memory w.machine

/-- The page that it relies on is shown as well. -/
def Aware (b : Binding) (g₀ : Segment) (w : Bench) : Prop :=
  w.session.link = b.link ∧ b.Sound g₀ w.machine.faults false w.session.memory w.machine

theorem Knowing.steady {w : Bench} (hw : b.Knowing g₀ w) : b.Steady w := ⟨hw.1, hw.2.holds⟩

theorem Aware.knowing {w : Bench} (hw : b.Aware g₀ w) : b.Knowing g₀ w := ⟨hw.1, hw.2.toInformed⟩

theorem Knowing.aware {w : Bench} (hw : b.Knowing g₀ w)
    (ht : w.session.memory.Trusts w.machine.segment) : b.Aware g₀ w := ⟨hw.1, hw.2.sound ht⟩

theorem Knowing.step {w : Bench} (hg : g₀.Recognisable) (hw : b.Knowing g₀ w) {move : Move}
    (hm : b.held = true ∨ move ≠ .inject .semaphoreHeld) : b.Knowing g₀ (w.step move) := by
  obtain ⟨hl', hp'⟩ := hw.steady.step hm
  obtain ⟨hl, hi⟩ := hw
  refine ⟨hl', hp', ?_⟩
  cases move with
  | job job =>
      have hkept : (b.knowledge g₀ w.machine.faults).KeptBy (job.work b.link) :=
        (knowledge_robust hg).job knowledge_senseless job
      have hj := hkept _ w.session.memory w.machine hi
      rw [← hl] at hj
      exact (Bench.lands_perform hj).1.knows
  | inject fault =>
      change Memory.Knows g₀ w.session.memory (w.machine.inject fault).segment
      rw [Platform.segment_inject]
      exact hi.knows
  | clearFaults => exact hi.knows
  | setTemperature slot raw =>
      refine ⟨fun address => ?_, ?_, hi.knows.modules, hi.knows.codes⟩
      · exact (Platform.lasting?_setTemperature slot raw address).trans (hi.knows.lasting address)
      · change (w.machine.setTemperature slot raw).segment.page ≤ 1
        rw [Platform.page_setTemperature]
        exact hi.knows.page

theorem Knowing.after {w : Bench} (hg : g₀.Recognisable) (hw : b.Knowing g₀ w)
    (hh : b.held = true) (moves : List Move) : b.Knowing g₀ (w.after moves) := by
  induction moves generalizing w with
  | nil => exact hw
  | cons move moves ih => exact ih (hw.step hg (.inl hh))

theorem Aware.step {w : Bench} (hg : g₀.Telling) (hw : b.Aware g₀ w) {move : Move}
    (hm : b.held = true ∨ move ≠ .inject .semaphoreHeld) : b.Aware g₀ (w.step move) := by
  refine (hw.knowing.step hg.recognisable hm).aware ?_
  obtain ⟨hl, hi⟩ := hw
  cases move with
  | job job =>
      have hkept : (b.awareness g₀ w.machine.faults).KeptBy (job.work b.link) := aware_job hg job
      have hj := hkept _ w.session.memory w.machine hi
      rw [← hl] at hj
      exact (Bench.lands_perform hj).1.trusts
  | inject fault =>
      change w.session.memory.Trusts (w.machine.inject fault).segment
      rw [Platform.segment_inject]
      exact hi.trusts
  | clearFaults => exact hi.trusts
  | setTemperature slot raw => exact hi.trusts.still (Platform.shown?_setTemperature slot raw)

theorem Aware.after {w : Bench} (hg : g₀.Telling) (hw : b.Aware g₀ w) (hh : b.held = true)
    (moves : List Move) : b.Aware g₀ (w.after moves) := by
  induction moves generalizing w with
  | nil => exact hw
  | cons move moves ih => exact ih (hw.step hg (.inl hh))

/-- A session that was just brought up remembers nothing. -/
theorem exists_aware_of_laid (hl : p.Laid) (hpage : p.segment.page ≤ 1) {config : Config}
    {w : Bench} (hw : w.StartedOn p config) :
    ∃ b : Binding, b.Aware p.segment w ∧ b.held = true ∧ b.link.controller.Follows config ∧
      b.machine = p ∧ w.session.memory = .empty ∧ p.Untouched w.machine := by
  obtain ⟨b, hsteady, hb, hheld, -, hfollows, hmemory, hu⟩ := exists_steady hl hw true
  refine ⟨b, ⟨hsteady.1, ?_⟩, hheld, hfollows, hb, hmemory, hu⟩
  rw [hmemory]
  refine Sound.empty hsteady.2 (fun address => ?_) ?_
  · rw [hu.segment]
  · rw [hu.segment]
    exact hpage

/-- Whatever slaves are on the bus of an assembled machine, and where the end of a transaction is
looked for. -/
theorem exists_attending (ha : p.Assembled) {segment : Segment} (hpage : segment.page ≤ 1)
    {config : Config} {w : Bench} (hw : w.StartedOn { p with segment } config)
    (hport : config.piix4Port = 0)
    (hpoll : (config.poll w.session.link.controller.family).retries ≠ 0) :
    ∃ b : Binding, b.Aware segment w ∧ b.held = true ∧ b.link.controller.Attends := by
  obtain ⟨b, haware, hheld, hfollows, -⟩ :=
    exists_aware_of_laid (ha.laid.fill p.transport segment) hpage hw
  rw [haware.1] at hpoll
  exact ⟨b, haware, hheld, hfollows.attends hpoll fun _ => hport⟩

theorem exists_aware (ha : p.Assembled) {config : Config} {w : Bench} (hw : w.StartedOn p config) :
    ∃ b : Binding, b.Aware p.segment w ∧ b.held = true ∧ b.link.controller.Follows config ∧
      b.machine = p := by
  obtain ⟨b, haware, hheld, hfollows, hb, -⟩ := exists_aware_of_laid ha.laid ha.telling.2 hw
  exact ⟨b, haware, hheld, hfollows, hb⟩

end Binding

end DimmBus
