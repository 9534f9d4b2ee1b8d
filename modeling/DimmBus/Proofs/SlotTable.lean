import DimmBus.Proofs.Hosted
import DimmBus.Proofs.Refusals
import DimmBus.Proofs.Tenets

/-!
# The table of slots

What a session knows of its slots agrees with itself on every machine, whatever is answered. What
it has learned of a slot stays until everything is forgotten, and work on one slot teaches nothing
about another.
-/

namespace DimmBus

open Session

/-! ## Learning -/

namespace Memory

/-- The generation of the module in a slot is known. -/
def Has (slot : UInt8) (g : Generation) (m : Memory) : Prop :=
  (m.module? slot).map (·.generation) = some g

/-- Nothing is known about a temperature sensor. -/
def Unsensed (slot : UInt8) (m : Memory) : Prop := (m.module? slot).bind (·.thermal) = none

/-- A condition that outlives the changes of the page, and a module that is found where none was
known. -/
structure Stable (slot : UInt8) (P : Memory → Prop) : Prop where
  dropped : ∀ {m}, P m → P { m with latch := none }
  selected : ∀ {m slot' page}, page ≤ 7 → P m →
    P { m with latch := some ⟨Spd.eepromAddress slot', page⟩ }
  found : ∀ {m g code}, slot.toNat < Spd.slotCount → m.module? slot = none →
    Generation.ofMemoryType? code = some g → P m → P (m.setModule slot ⟨g, code, none⟩)

/-- It also outlives the first answer about the sensor. -/
structure Enduring (slot : UInt8) (P : Memory → Prop) : Prop extends Stable slot P where
  sensed : ∀ {m found} available, m.module? slot = some found → found.thermal = none → P m →
    P (m.setModule slot { found with thermal := some available })

variable {m m' : Memory} {slot : UInt8} {g : Generation} {P Q : Memory → Prop}

theorem module?_congr (h : m.slots = m'.slots) (slot : UInt8) :
    m.module? slot = m'.module? slot := by
  rw [module?, module?, h]

theorem module?_setModule_self (hs : slot.toNat < Spd.slotCount) (found : Module) :
    (m.setModule slot found).module? slot = some found := by
  rw [module?_setModule, if_pos ⟨rfl, hs⟩]

theorem Stable.and (hP : Stable slot P) (hQ : Stable slot Q) : Stable slot fun m => P m ∧ Q m where
  dropped h := ⟨hP.dropped h.1, hQ.dropped h.2⟩
  selected hp h := ⟨hP.selected hp h.1, hQ.selected hp h.2⟩
  found hs hn hc h := ⟨hP.found hs hn hc h.1, hQ.found hs hn hc h.2⟩

theorem stable_has (slot : UInt8) (g : Generation) : Stable slot (Has slot g) where
  dropped h := h
  selected _ h := h
  found _ hn _ h := by
    unfold Has at h
    rw [hn] at h
    cases h

theorem stable_unsensed (slot : UInt8) : Stable slot (Unsensed slot) where
  dropped h := h
  selected _ h := h
  found hs _ _ _ := by rw [Unsensed, module?_setModule_self hs]; rfl

theorem Enduring.has (hP : Enduring slot P) : Enduring slot fun m => P m ∧ Has slot g m where
  toStable := hP.toStable.and (stable_has slot g)
  sensed available hf ht h := by
    refine ⟨hP.sensed available hf ht h.1, ?_⟩
    have hg := h.2
    unfold Has at hg ⊢
    rw [hf] at hg
    rw [module?_setModule_self (slot_lt_of_module? hf)]
    exact hg

end Memory

namespace Session

open Memory

variable {α : Type} {link : Link} {slot : UInt8} {g : Generation} {P : Memory → Prop}

/-- A stage at which only what is remembered counts. -/
abbrev Stage.of (P : Memory → Prop) : Stage := fun m _ => P m

/-- The work keeps a condition, whatever comes of its transactions. -/
abbrev Keeps (link : Link) (P : Memory → Prop) (x : Operation α) : Prop :=
  Planned link.controller anything false false (.of P) x (fun _ => .of P) fun _ => .of P

/-- The work may be followed from each state apart. -/
theorem Planned.each {c : Controller} {may : List Exchange → Transaction → Prop}
    {last held : Bool} {pre : Stage} {x : Operation α} {ok : α → Stage} {bad : Error → Stage}
    (h : ∀ m₀, Planned c may last held (fun m past => m = m₀ ∧ pre m past) x ok bad) :
    Planned c may last held pre x ok bad := fun m => by
  obtain ⟨script, hperform, hmeets⟩ := h m m
  exact ⟨script, hperform, fun past hp => hmeets past ⟨rfl, hp⟩⟩

/-- Under the lock no module is found or lost. -/
def still (hP : Stable slot P) (known : Memory) : Tenet known where
  holds m _ := m.slots = known.slots ∧ P m
  vouches h hf hd := .inl (by rw [← module?_congr h.1, hf]; exact congrArg some hd)
  handed h := h
  dropped h := ⟨h.1, hP.dropped h.2⟩
  selected hp h := ⟨h.1, hP.selected hp h.2⟩

theorem allowed {known : Memory} {slot : UInt8} : ∀ past tx, Asked known slot past tx →
    anything past tx := fun _ _ _ => trivial

theorem keeps_locked {body : Operation α} (hP : Stable slot P)
    (hbody : ∀ known, (still hP known).Keeps link anything true body) :
    Keeps link P (locked link body) :=
  Planned.each fun m₀ => Planned.locked (fun _ _ _ h => h.2)
    (fun _ _ h => ⟨congrArg Memory.slots h.1, h.2⟩)
    ((hbody m₀).mono (fun _ _ h => h) (fun _ _ _ h => h.2) fun _ _ _ h => h.2)

theorem keeps_retrying {body : Operation α} (hP : Stable slot P) (hbody : Keeps link P body) :
    Keeps link P (retrying link body) :=
  Planned.retryingWithin _ (hbody.mono (fun _ _ h => h) (fun _ _ _ h => h)
    fun _ _ _ h => ⟨hP.dropped h, hP.dropped h⟩)

/-! ## Modules -/

theorem scripted_probe (hP : Stable slot P) :
    Scripted link.controller anything false false (.of P) (probe link slot)
      fun g? => .of fun m => P m ∧ ∀ g, g? = some g → m.Has slot g := by
  unfold probe
  split
  · rename_i hs
    refine Scripted.get.bind fun m => ?_
    split
    · rename_i found hfound
      refine .pure fun m' past h => ⟨h.2, fun g hg => ?_⟩
      rw [Has, ← h.1, hfound]
      exact hg
    · rename_i hnone
      -- What is found under the lock is found in a slot where still nothing is known.
      have hlocked : Planned link.controller anything false false (fun m' _ => m = m' ∧ P m')
          (locked link (step (probeSlot link slot))) ((still hP m).Found slot)
          fun _ => (still hP m).holds := by
        have hstart : ∀ m' past, m = m' ∧ P m' → (still hP m).holds m' past :=
          fun _ _ h => ⟨congrArg Memory.slots h.1.symm, h.2⟩
        refine Planned.locked (fun _ m' past h => hstart m' past h)
          (fun m' past h => hstart m' (past ++ [.locked]) h) ?_
        refine (Planned.step (Tenet.scripted_probeSlot allowed)).mono (fun _ _ h => h)
          (fun found? m' past h => ?_) fun _ _ _ h => h
        exact ⟨h.1, fun g code hf => Evidence.lasting slot g code _ _ (h.2 g code hf)⟩
      refine Scripted.bind hlocked fun r => ?_
      match r with
      | .ok (some (g, code)) =>
          refine Scripted.bind (Scripted.modify fun m' past h => ?_) fun _ => .pure fun _ _ h => h
          have hnone' : m'.module? slot = none := (module?_congr h.1.1 slot).trans hnone
          refine ⟨hP.found hs hnone' (h.2 g code rfl).family h.1.2, fun g' hg => ?_⟩
          rw [Has, module?_setModule_self hs]
          exact hg
      | .ok none => exact .pure fun _ _ h => ⟨h.1.2, nofun⟩
      | .error e => exact .pure fun _ _ h => ⟨h.2, nofun⟩
  · exact .pure fun _ _ h => ⟨h, nofun⟩

theorem planned_confirmed (hP : Stable slot P) :
    Planned link.controller anything false false (.of P) (confirmed link slot)
      (fun g => .of fun m => P m ∧ m.Has slot g) fun _ => .of P := by
  unfold confirmed
  split
  · refine (Planned.step (scripted_probe hP)).bind fun g? => ?_
    split
    · exact .pure fun _ _ h => ⟨h.1, h.2 _ rfl⟩
    · exact .throw fun _ _ h => h.1
  · exact .throw fun _ _ h => h

/-- Under the lock, the generation that was found is that of the slot. -/
theorem keeps_selectPage (hP : Stable slot fun m => P m ∧ m.Has slot g) {page : UInt8}
    (hp : Binding.PageOf g page) (known : Memory) :
    (still hP known).Keeps link anything true
      (selectPage link g (Spd.eepromAddress slot) page) := by
  refine Tenet.keeps_selectPage allowed hp fun m past h hg => ?_
  have hhas := h.2.2
  unfold Has at hhas
  rw [module?_congr h.1, hg] at hhas
  exact .inl (.inl hhas)

theorem keeps_readByte (hP : Stable slot P) (known : Memory) (command : UInt8) :
    (still hP known).Keeps link anything true
      (readByte link (Spd.eepromAddress slot) command) :=
  (Tenet.planned_readByte allowed command).mono (fun _ _ h => h) (fun _ _ _ h => h.1)
    fun _ _ _ h => h

theorem keeps_readSpd (hP : Stable slot P) (address : UInt16) :
    Keeps link P (readSpd link slot address) := by
  unfold readSpd
  refine (planned_confirmed hP).bind fun g => ?_
  have hPg := hP.and (stable_has slot g)
  suffices h : Keeps link (fun m => P m ∧ m.Has slot g) (do
      let location ← Session.ofExcept (locate g address)
      ExceptT.adapt (·.atSpd slot address .byteData)
        (retrying link (readAttempt link g (Spd.eepromAddress slot) location))) from
    h.mono (fun _ _ h => h) (fun _ _ _ h => h.1) fun _ _ _ h => h.1
  refine Planned.bind_ofExcept (fun location hl => ?_) fun _ _ _ h => h
  have hpage : Binding.PageOf g location.page := by
    unfold locate at hl
    split at hl
    · rename_i hlocated
      cases hl
      exact Binding.pageOf_location hlocated
    · cases hl
  exact Planned.adapt (keeps_retrying hPg (keeps_locked hPg fun known =>
    (keeps_selectPage hPg hpage known).bind fun _ => keeps_readByte hPg known _))

theorem keeps_readAll (hP : Stable slot P) (entries : Array (UInt16 × UInt8))
    (addresses : List UInt16) : Keeps link P (readAll link slot entries addresses) := by
  induction addresses generalizing entries with
  | nil => exact Planned.pure fun _ _ h => h
  | cons address rest ih => exact (keeps_readSpd hP address).bind fun _ => ih _

theorem keeps_dump (hP : Stable slot P) (mode : DumpMode) : Keeps link P (dump link slot mode) := by
  unfold dump
  refine (planned_confirmed hP).bind fun g => ?_
  exact ((keeps_readAll hP _ _).mono (fun _ _ h => h.1) (fun _ _ _ h => h)
    fun _ _ _ h => h).bind fun _ => .pure fun _ _ h => h

/-! ## Sensors -/

theorem keeps_findDiscreteSensor (hP : Stable slot P) (address : UInt16) :
    Keeps link P (findDiscreteSensor link slot address) := by
  unfold findDiscreteSensor
  refine (keeps_readSpd hP address).bind fun announced => ?_
  split
  · refine (keeps_retrying hP (keeps_locked hP fun known =>
      Tenet.keeps_send fun _ _ _ => trivial)).outcome.bind fun r => ?_
    match r with
    | .ok _ => exact .pure fun _ _ h => h
    | .error e =>
        dsimp only
        split
        · exact .pure fun _ _ h => h
        · exact .throw fun _ _ h => h
  · exact .pure fun _ _ h => h

theorem keeps_findSensor (hP : Stable slot P) (hg : ∀ m, P m → m.Has slot g) :
    Keeps link P (findSensor link slot g) := by
  cases g with
  | ddr3 => exact keeps_findDiscreteSensor hP 32
  | ddr4 => exact keeps_findDiscreteSensor hP 14
  | ddr5 =>
      refine Planned.adapt (keeps_retrying hP (keeps_locked hP fun known =>
        Tenet.keeps_enableHubSensor allowed fun m past h => ?_))
      have hhas := hg m h.2
      unfold Has at hhas
      rw [module?_congr h.1] at hhas
      exact .inl hhas

/-- An answer about the sensor is remembered with the module that it is about. -/
theorem planned_thermalCapability (hP : Enduring slot P) :
    Planned link.controller anything false false (.of P) (thermalCapability link slot)
      (fun answer => .of fun m => P m ∧ (m.module? slot).bind (·.thermal) = some answer)
      fun _ => .of P := by
  unfold thermalCapability
  refine (planned_confirmed hP.toStable).bind fun g => ?_
  have hPg := hP.has (g := g)
  refine Planned.get.bind fun m => ?_
  split
  · rename_i known hknown
    exact .pure fun m' past h => ⟨h.2.1, h.1 ▸ hknown⟩
  · rename_i hunknown
    have hall := (hPg.toStable.and (stable_unsensed slot))
    refine ((keeps_findSensor hall fun m h => h.1.2).mono ?_ (fun _ _ _ h => h)
      fun _ _ _ h => h.1.1).bind fun available => ?_
    · rintro m' past ⟨rfl, h⟩
      exact ⟨h, hunknown⟩
    · refine (Planned.step (Scripted.modify fun m past h => ?_)).bind fun _ => .pure fun _ _ h => h
      obtain ⟨⟨hm, hhas⟩, hnone⟩ := h
      unfold Has at hhas
      unfold Unsensed at hnone
      cases hf : m.module? slot with
      | none =>
          rw [hf] at hhas
          cases hhas
      | some found =>
          rw [hf] at hnone
          refine ⟨hP.sensed available hf hnone hm, ?_⟩
          rw [module?_setModule_self (slot_lt_of_module? hf)]
          rfl

theorem keeps_thermalAvailable (hP : Enduring slot P) :
    Scripted link.controller anything false false (.of P) (thermalAvailable link slot)
      fun _ => .of P := by
  unfold thermalAvailable
  refine (Planned.run (planned_thermalCapability hP)).bind fun r => ?_
  cases r with
  | ok available => exact .pure fun _ _ h => h.1
  | error e => exact .pure fun _ _ h => h

theorem keeps_readTemperature (hP : Enduring slot P) :
    Keeps link P (readTemperature link slot) := by
  unfold readTemperature
  refine (planned_confirmed hP.toStable).bind fun g => ?_
  have hPg := hP.has (g := g)
  refine ((planned_thermalCapability hPg).mono (fun _ _ h => h) (fun _ _ _ h => h.1)
    fun _ _ _ h => h.1).bind fun available => ?_
  split
  · refine Planned.bind (Planned.adapt ((keeps_retrying hPg.toStable
      (keeps_locked hPg.toStable fun known => ?_)).mono (fun _ _ h => h) (fun _ _ _ h => h)
        fun _ _ _ h => h.1)) fun word => Planned.pure fun _ _ h => h.1
    refine (keeps_selectPage hPg.toStable (Binding.pageOf_zero g) known).bind fun _ => ?_
    unfold readWord
    refine (Tenet.keeps_send fun _ _ _ => trivial).bind fun payload => ?_
    split
    · exact .pure fun _ _ h => h
    · exact .throw fun _ _ h => h
  · exact .throw fun _ _ h => h.1

/-- A transaction of the user's own drops the page and touches nothing else. -/
theorem keeps_transfer (hdropped : ∀ m, P m → P { m with latch := none }) (tx : Transaction) :
    Keeps link P (transfer link tx) := by
  unfold transfer
  refine (Planned.accept fun _ _ _ h => h).bind fun _ => ?_
  have hdrop : Scripted link.controller anything false false (.of P) dropLatch fun _ => .of P :=
    Scripted.dropLatch fun m _ h => hdropped m h
  refine (Planned.step hdrop).bind fun _ => ?_
  exact Planned.locked (fun _ _ _ h => h) (fun _ _ h => h)
    (Planned.hand (fun _ _ _ => trivial) (fun _ _ _ h => h) fun _ _ _ h => h)

end Session

/-! ## Jobs -/

/-- The slot that a job is about. -/
def Job.slot? : Job → Option UInt8
  | .probe slot | .read slot _ | .dump slot _ | .thermalAvailable slot | .temperature slot =>
    some slot
  | .transfer _ | .forget => none

/-- The condition outlives the job. -/
structure Memory.Outlives (P : Memory → Prop) (job : Job) : Prop where
  dropped : ∀ m, P m → P { m with latch := none }
  slot : ∀ slot, job.slot? = some slot → Enduring slot P
  forget : job = .forget → P .empty

open Memory

variable {link : Link} {P : Memory → Prop} {σ : Type}

theorem Session.keeps_job {job : Job} (h : Outlives P job) :
    Scripted link.controller anything false false (.of P) (job.work link) fun _ => .of P := by
  have hdone : ∀ {α : Type} {x : Operation α}, Keeps link P x →
      Scripted link.controller anything false false (.of P) (do let _ ← x.run) fun _ => .of P := by
    intro α x hx
    refine (Planned.run hx).bind fun r => .pure fun _ _ h => ?_
    cases r <;> exact h
  cases job with
  | probe slot =>
      exact (scripted_probe (h.slot slot rfl).toStable).bind fun _ => .pure fun _ _ h => h.1
  | read slot address => exact hdone (keeps_readSpd (h.slot slot rfl).toStable address)
  | dump slot mode => exact hdone (keeps_dump (h.slot slot rfl).toStable mode)
  | thermalAvailable slot =>
      exact (keeps_thermalAvailable (h.slot slot rfl)).bind fun _ => .pure fun _ _ h => h
  | temperature slot => exact hdone (keeps_readTemperature (h.slot slot rfl))
  | transfer tx => exact hdone (keeps_transfer h.dropped tx)
  | forget => exact .set fun _ _ _ => h.forget rfl

/-- Whatever a controller answers, the script ends as it has to. -/
theorem Script.Meets.yields {α : Type} {c : Controller} {last held : Bool}
    {may : List Exchange → Transaction → Prop} {post : α → List Exchange → Prop}
    {script : Script α last held} {past : List Exchange} (h : script.Meets may post past) :
    (script.perform c).Yields fun a => ∃ past, post a past := by
  induction script generalizing past with
  | done value => exact ⟨past, h⟩
  | lock timeoutUs refused granted ihr ihg =>
      simp only [perform]
      intro answer
      cases answer with
      | ok _ => exact ihg h.2
      | error e => exact ihr e (h.1 e)
  | unlock next ih =>
      simp only [perform]
      exact fun _ => ih h
  | hand tx next ih =>
      simp only [perform]
      exact Access.Yields.bind (Q := fun _ => True) (.always (fun _ => trivial) _) fun answer _ =>
        ih answer (h.2 answer)

theorem Session.Scripted.yields {α : Type} {c : Controller} {last held : Bool}
    {may : List Exchange → Transaction → Prop} {x : Step α} {Q : α → Memory → Prop} {m : Memory}
    (hx : Scripted c may last held (.of P) x fun a => .of (Q a)) (hm : P m) :
    (x.run m).Yields fun r => Q r.1 r.2 := by
  obtain ⟨script, hperform, hmeets⟩ := hx m
  rw [← hperform]
  exact (hmeets [] hm).yields.mono fun r ⟨_, hr⟩ => hr

namespace Session

variable (step : (request : Request) → σ → request.Answer × σ)

/-- A session and its machine after a job. -/
def serve (w : Session × σ) (job : Job) : Session × σ :=
  let ((_, session), machine) := (w.1.perform job.work).run step w.2
  (session, machine)

def serveAll (w : Session × σ) (jobs : List Job) : Session × σ := jobs.foldl (serve step) w

variable {step} {w : Session × σ}

theorem serve_keeps {job : Job} (h : Outlives P job) (hw : P w.1.memory) :
    P (serve step w job).1.memory := by
  have hyields : (w.1.perform job.work).Yields fun r => P r.2.memory :=
    (Scripted.yields (keeps_job h) hw).bind fun _ hr => hr
  exact hyields.run step w.2

theorem serveAll_keeps {jobs : List Job} (h : ∀ job ∈ jobs, Outlives P job) (hw : P w.1.memory) :
    P (serveAll step w jobs).1.memory := by
  induction jobs generalizing w with
  | nil => exact hw
  | cons job jobs ih =>
      exact ih (fun later hl => h later (List.mem_cons_of_mem _ hl))
        (serve_keeps (h job List.mem_cons_self) hw)

end Session

/-! ## What outlives the jobs -/

/-- The same module; what was unknown of its sensor may be known. -/
structure Module.Kept (found later : Module) : Prop where
  generation : later.generation = found.generation
  memoryType : later.memoryType = found.memoryType
  thermal : ∀ answer, found.thermal = some answer → later.thermal = some answer

namespace Memory

/-- What is remembered agrees with itself. -/
structure Consistent (m : Memory) : Prop where
  family : ∀ slot found, m.module? slot = some found →
    Generation.ofMemoryType? found.memoryType = some found.generation
  latch : ∀ latch, m.latch = some latch → 0x50 ≤ latch.slave ∧ latch.slave ≤ 0x57 ∧ latch.page ≤ 7

/-- The module is remembered. -/
def Remembers (slot : UInt8) (found : Module) (m : Memory) : Prop :=
  ∃ later, m.module? slot = some later ∧ found.Kept later

variable {m : Memory} {slot slot' : UInt8} {found : Module}

theorem consistent_empty : Consistent empty where
  family slot found h := by
    rw [module?_empty] at h
    cases h
  latch _ h := by cases h

theorem Consistent.setModule (h : m.Consistent)
    (hf : Generation.ofMemoryType? found.memoryType = some found.generation) :
    (m.setModule slot found).Consistent where
  family slot' found' h' := by
    rw [module?_setModule] at h'
    split at h'
    · cases h'
      exact hf
    · exact h.family slot' found' h'
  latch := h.latch

theorem enduring_consistent (slot : UInt8) : Enduring slot Consistent where
  dropped h := ⟨h.family, nofun⟩
  selected {m slot' page} hp h := by
    have hrange : ∀ slot : UInt8,
        0x50 ≤ Spd.eepromAddress slot ∧ Spd.eepromAddress slot ≤ 0x57 :=
      forall_byte (by decide +kernel)
    refine ⟨h.family, fun latch hl => ?_⟩
    cases hl
    exact ⟨(hrange slot').1, (hrange slot').2, hp⟩
  found _ _ hc h := h.setModule hc
  sensed {m found} _ hf _ h := by
    have hfamily := h.family slot found hf
    exact h.setModule hfamily

/-- Nothing is learned of another slot. -/
theorem enduring_other (hne : slot ≠ slot') (known : Option Module) :
    Enduring slot fun m => m.module? slot' = known where
  dropped h := h
  selected _ h := h
  found _ _ _ h := by rwa [module?_setModule, if_neg fun hs => hne hs.1]
  sensed _ _ _ h := by rwa [module?_setModule, if_neg fun hs => hne hs.1]

theorem enduring_true (slot : UInt8) : Enduring slot fun _ => True :=
  ⟨⟨fun _ => trivial, fun _ _ => trivial, fun _ _ _ _ => trivial⟩, fun _ _ _ _ => trivial⟩

theorem enduring_remembers (slot slot' : UInt8) (found : Module) :
    Enduring slot (Remembers slot' found) where
  dropped h := h
  selected _ h := h
  found {m g code} _ hn _ h := by
    obtain ⟨later, hl, hk⟩ := h
    refine ⟨later, ?_, hk⟩
    rw [module?_setModule, if_neg, hl]
    rintro ⟨rfl, -⟩
    rw [hn] at hl
    cases hl
  sensed {m known} available hf ht h := by
    obtain ⟨later, hl, hk⟩ := h
    unfold Remembers
    rw [module?_setModule]
    split
    · rename_i hs
      obtain ⟨rfl, -⟩ := hs
      obtain rfl := Option.some.inj (hf.symm.trans hl)
      refine ⟨_, rfl, hk.generation, hk.memoryType, fun answer ha => ?_⟩
      rw [hk.thermal answer ha] at ht
      cases ht
    · exact ⟨later, hl, hk⟩

end Memory

namespace Session

theorem outlives_consistent (job : Job) : Outlives Consistent job where
  dropped _ h := ⟨h.family, nofun⟩
  slot slot _ := enduring_consistent slot
  forget _ := consistent_empty

theorem outlives_other {job : Job} {slot : UInt8} (hf : job ≠ .forget)
    (hslot : job.slot? ≠ some slot) (known : Option Module) :
    Outlives (fun m => m.module? slot = known) job where
  dropped _ h := h
  slot _ hs := enduring_other (fun he => hslot (hs.trans (congrArg some he))) known
  forget h := absurd h hf

theorem outlives_remembers {job : Job} (hf : job ≠ .forget) (slot : UInt8) (found : Module) :
    Outlives (Remembers slot found) job where
  dropped _ h := h
  slot _ _ := enduring_remembers _ slot found
  forget h := absurd h hf

theorem yields_thermalCapability (s : Session) (slot : UInt8) :
    (s.run (thermalCapability · slot)).Yields fun r =>
      ∀ answer, r.1 = .ok answer → (r.2.module? slot).bind (·.thermal) = some answer := by
  have hscripted : Scripted s.link.controller anything false false (.of fun _ => True)
      (thermalCapability s.link slot).run fun r => .of fun m =>
        ∀ answer, r = .ok answer → (m.module? slot).bind (·.thermal) = some answer := by
    refine (planned_thermalCapability (enduring_true slot)).run.mono (fun _ _ h => h)
      fun r m past h => ?_
    rintro answer rfl
    exact h.2
  exact (hscripted.yields trivial).bind fun _ hr => hr

/-- A session that was brought up remembers nothing. -/
theorem yields_bringUp (transport : Transport) (config : Config) :
    (bringUp transport config).Yields fun s? => ∀ s, s? = some s → s.memory = .empty := by
  have hprobe : (Controller.probe transport config).Yields fun _ => True :=
    .always (fun _ => trivial) _
  refine hprobe.bind fun c? _ => ?_
  cases c? with
  | some controller =>
      intro s hs
      cases hs
      rfl
  | none =>
      intro s hs
      cases hs

end Session

open Session

/-- On every machine and after every run of jobs: what is remembered agrees with itself; an answer
about a sensor is remembered with its module; a job on one slot leaves what is known of the others;
what is known of a module stays until all is forgotten; and a module that is known is found again
without any access. -/
theorem slot_table_consistent {σ : Type} {step : (request : Request) → σ → request.Answer × σ}
    {transport : Transport} {config : Config} {machine₀ machine : σ} {s : Session}
    (hs : (bringUp transport config).run step machine₀ = (some s, machine)) (jobs : List Job) :
    let w := serveAll step (s, machine) jobs
    w.1.memory.Consistent ∧
    (∀ slot answer (v : Session × σ),
      (w.1.run (thermalCapability · slot)).run step w.2 = ((.ok answer, v.1), v.2) →
      (v.1.module? slot).bind (·.thermal) = some answer) ∧
    (∀ job slot, job ≠ .forget → job.slot? ≠ some slot →
      (serve step w job).1.module? slot = w.1.module? slot) ∧
    (∀ more, .forget ∉ more → ∀ slot found, w.1.module? slot = some found →
      ∃ later, (serveAll step w more).1.module? slot = some later ∧ found.Kept later) ∧
    ∀ slot found, w.1.module? slot = some found →
      w.1.perform (probe · slot) = pure (some found.generation, w.1) := by
  have hempty : s.memory = .empty := by
    have hyields := (yields_bringUp transport config).run step machine₀
    rw [hs] at hyields
    exact hyields s rfl
  intro w
  refine ⟨?_, fun slot answer v hv => ?_, fun job slot hf hslot => ?_,
    fun more hmore slot found hfound => ?_, fun slot found hfound => ?_⟩
  · exact serveAll_keeps (fun job _ => outlives_consistent job)
      (show Consistent s.memory from hempty ▸ consistent_empty)
  · have hrun := (yields_thermalCapability w.1 slot).run step w.2
    rw [hv] at hrun
    exact hrun answer rfl
  · exact serve_keeps (outlives_other hf hslot _) rfl
  · exact serveAll_keeps (fun job hj => outlives_remembers (fun he => hmore (he ▸ hj)) slot found)
      ⟨found, hfound, rfl, rfl, fun _ h => h⟩
  · exact perform_pure (probe_known hfound)

theorem exists_of_toOption {α : Type} {r : (Except Error α × Session) × σ} {a : α}
    (h : r.1.1.toOption = some a) : ∃ v : Session × σ, r = ((.ok a, v.1), v.2) :=
  ⟨(r.1.2, r.2), Prod.ext (Prod.ext (Bench.eq_ok_of_toOption h) rfl) rfl⟩

theorem slot_table_consistent_intelSample : ∃ s machine,
    (bringUp Platform.intelSample.transport {}).run Platform.answer Platform.intelSample =
      (some s, machine) ∧
    let w := serveAll Platform.answer (s, machine) [.probe 0]
    w.1.memory.Consistent ∧ w.1.module? 0 = some ⟨.ddr4, 0x0C, none⟩ ∧
    (∃ v : Session × Platform,
      (w.1.run (thermalCapability · 0)).run Platform.answer w.2 = ((.ok true, v.1), v.2) ∧
      (v.1.module? 0).bind (·.thermal) = some true) ∧
    (serve Platform.answer w (.probe 1)).1.module? 0 = w.1.module? 0 ∧
    (∃ later, (serveAll Platform.answer w [.thermalAvailable 0, .read 0 2]).1.module? 0 =
      some later ∧ Module.Kept ⟨.ddr4, 0x0C, none⟩ later) ∧
    w.1.perform (probe · 0) = pure (some .ddr4, w.1) := by
  have hrun : (Bench.started? Platform.intelSample).any (fun b =>
      let w := serveAll Platform.answer (b.session, b.machine) [.probe 0]
      w.1.module? 0 == some ⟨.ddr4, 0x0C, none⟩ &&
        ((w.1.run (thermalCapability · 0)).run Platform.answer w.2).1.1.toOption == some true) =
      true := by
    rw [Platform.intelSample_eq]
    decide +kernel
  obtain ⟨b, hb, hrun⟩ := (Option.any_eq_true _ _).mp hrun
  simp only [Bool.and_eq_true, beq_iff_eq] at hrun
  obtain ⟨hmodule, hanswer⟩ := hrun
  have hs : (bringUp Platform.intelSample.transport {}).run Platform.answer Platform.intelSample =
      (some b.session, b.machine) := Bench.startedOn_of_started hb
  obtain ⟨hconsistent, hsensed, hother, hkept, hknown⟩ := slot_table_consistent hs [.probe 0]
  obtain ⟨v, hv⟩ := exists_of_toOption hanswer
  exact ⟨b.session, b.machine, hs, hconsistent, hmodule, ⟨v, hv, hsensed 0 true v hv⟩,
    hother (.probe 1) 0 nofun (by decide), hkept _ (by simp) 0 _ hmodule, hknown 0 _ hmodule⟩

end DimmBus
