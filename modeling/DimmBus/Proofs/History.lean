import DimmBus.Proofs.BringUp
import DimmBus.Proofs.Rest

/-!
# Histories

A session on its machine, and everything that can happen to the two in any order: work of the
session, faults that come and go, and modules that grow warm.
-/

namespace DimmBus

open Platform Session Invariant

/-- A piece of work of a session. Its result is of no interest here. -/
inductive Job where
  | probe (slot : UInt8)
  | read (slot : UInt8) (address : UInt16)
  | dump (slot : UInt8) (mode : DumpMode)
  | thermalAvailable (slot : UInt8)
  | temperature (slot : UInt8)
  | transfer (tx : Transaction)
  | forget

def Job.work : Job → Link → Step Unit
  | .probe slot, link => do
    let _ ← Session.probe link slot
  | .read slot address, link => do
    let _ ← (readSpd link slot address).run
  | .dump slot mode, link => do
    let _ ← (Session.dump link slot mode).run
  | .thermalAvailable slot, link => do
    let _ ← Session.thermalAvailable link slot
  | .temperature slot, link => do
    let _ ← (readTemperature link slot).run
  | .transfer tx, link => do
    let _ ← (Session.transfer link tx).run
  | .forget, _ => forgetModules

namespace Invariant

variable {I : Invariant} {link : Link}

/-- Jobs keep what their parts keep. -/
theorem keptBy_job (hprobe : ∀ slot, I.KeptBy (probe link slot))
    (hread : ∀ slot address, I.Kept (readSpd link slot address))
    (hcapability : ∀ slot, I.Kept (thermalCapability link slot))
    (htemperature : ∀ slot, I.Kept (readTemperature link slot))
    (htransfer : ∀ tx, I.Kept (transfer link tx)) (hforget : I.KeptBy forgetModules) (job : Job) :
    I.KeptBy (job.work link) := by
  cases job with
  | probe slot => exact (hprobe slot).bind fun _ => .pure _
  | read slot address => exact (keptBy_run.mpr (hread slot address)).bind fun _ => .pure _
  | dump slot mode =>
      have hdump := kept_dump (kept_confirmed (hprobe slot)) (hread slot) mode
      exact (keptBy_run.mpr hdump).bind fun _ => .pure _
  | thermalAvailable slot =>
      exact (kept_thermalAvailable (hcapability slot)).bind fun _ => .pure _
  | temperature slot => exact (keptBy_run.mpr (htemperature slot)).bind fun _ => .pure _
  | transfer tx => exact (keptBy_run.mpr (htransfer tx)).bind fun _ => .pure _
  | forget => exact hforget

theorem Robust.job (h : I.Robust link) (hs : I.Senseless) (job : Job) : I.KeptBy (job.work link) :=
  keptBy_job h.probe h.readSpd (fun slot => h.thermalCapability slot hs)
    (fun slot => h.readTemperature slot hs) h.transfer h.forget job

end Invariant

/-- What happens next. -/
inductive Move where
  | job (job : Job)
  | inject (fault : Fault)
  | clearFaults
  | setTemperature (slot : UInt8) (raw : UInt16)

/-- A session and the machine under it. -/
structure Bench where
  session : Session
  machine : Platform

namespace Bench

/-- The bench after a piece of work, and what came of the work. -/
def perform (w : Bench) (work : Link → Step α) : α × Bench :=
  let ((value, session), machine) := (w.session.perform work).run answer w.machine
  (value, ⟨session, machine⟩)

def step (w : Bench) : Move → Bench
  | .job job => (w.perform job.work).2
  | .inject fault => { w with machine := w.machine.inject fault }
  | .clearFaults => { w with machine := w.machine.clearFaults }
  | .setTemperature slot raw => { w with machine := w.machine.setTemperature slot raw }

/-- The bench after a history. -/
def after (w : Bench) (moves : List Move) : Bench := moves.foldl step w

theorem after_concat (w : Bench) (moves : List Move) (move : Move) :
    w.after (moves ++ [move]) = (w.after moves).step move := by
  rw [after, after, List.foldl_append, List.foldl_cons, List.foldl_nil]

/-- The session is brought up on the machine. -/
def StartedOn (w : Bench) (p : Platform) (config : Config) : Prop :=
  (Session.bringUp p.transport config).run answer p = (some w.session, w.machine)

theorem lands_perform {α : Type} {w : Bench} {work : Link → Step α}
    {Q : α → Memory → Platform → Prop}
    (h : Lands (work w.session.link) w.session.memory w.machine Q) :
    Q (w.perform work).1 (w.perform work).2.session.memory (w.perform work).2.machine ∧
      (w.perform work).2.session.link = w.session.link := by
  unfold perform Session.perform
  rw [Access.run_bind]
  exact ⟨h, rfl⟩

theorem completes_perform {α : Type} (w : Bench) (work : Link → Operation α)
    {ok : α → Memory → Platform → Prop} {bad : Error → Memory → Platform → Prop}
    (h : Completes (work w.session.link) w.session.memory w.machine ok bad) :
    match w.perform fun link => (work link).run with
    | (.ok a, v) => ok a v.session.memory v.machine
    | (.error e, v) => bad e v.session.memory v.machine := by
  have hr := (@lands_perform _ w (fun link => (work link).run) _ h).1
  generalize w.perform (fun link => (work link).run) = out at hr
  obtain ⟨_ | _, v⟩ := out <;> exact hr

/-- What the work does on another link does not matter. -/
theorem perform_congr {α : Type} {w : Bench} {work work' : Link → Step α}
    (h : work w.session.link = work' w.session.link) : w.perform work = w.perform work' := by
  unfold perform Session.perform
  rw [h]

end Bench

/-! ## Faults and temperatures -/

namespace Platform

variable {p : Platform} {held : Bool} {fault : Fault}

theorem stands_inject (p : Platform) (fault : Fault) : p.Stands (p.inject fault) := by
  unfold inject
  split <;> exact ⟨rfl, rfl, rfl, rfl, rfl⟩

theorem segment_inject (p : Platform) (fault : Fault) : (p.inject fault).segment = p.segment := by
  unfold inject
  split <;> rfl

theorem stands_clearFaults (p : Platform) : p.Stands p.clearFaults := by
  refine ⟨rfl, ?_, ?_, rfl, rfl⟩
  · simp only [clearFaults, Option.map_map]
    rfl
  · simp only [clearFaults, Option.map_map]
    rfl

theorem jammed_inject (h : p.jammed = true) : (p.inject fault).jammed = true := by
  unfold inject
  split
  · exact h
  · simp only [jammed, has, Bool.or_eq_true, List.contains_cons] at h ⊢
    obtain h | h := h
    · exact .inl (.inr h)
    · exact .inr (.inr h)

theorem Tidy.inject (ht : p.Tidy held) (hf : held = true ∨ fault ≠ .semaphoreHeld) :
    (p.inject fault).Tidy held := by
  have hich : (p.inject fault).ich = p.ich := by unfold Platform.inject; split <;> rfl
  have hpiix4 : (p.inject fault).piix4 = p.piix4 := by unfold Platform.inject; split <;> rfl
  have hmailbox : (p.inject fault).mailbox = p.mailbox := by unfold Platform.inject; split <;> rfl
  refine ⟨?_, ?_, fun hheld => ⟨?_, ?_⟩, ?_⟩
  · rw [hich]
    exact ht.ich
  · rw [hpiix4]
    intro h hh
    obtain ⟨⟨hs, hj⟩, hr⟩ := ht.piix4 h hh
    exact ⟨⟨hs, fun hst => jammed_inject (hj hst)⟩, hr⟩
  · obtain hf | hf := hf
    · rw [hheld] at hf
      cases hf
    · have hfree := (ht.free hheld).1
      unfold Platform.inject
      split
      · exact hfree
      · simp only [has, List.contains_cons, Bool.or_eq_false_iff] at hfree ⊢
        exact ⟨beq_eq_false_iff_ne.mpr hf.symm, hfree⟩
  · rw [hpiix4]
    exact (ht.free hheld).2
  · rw [hmailbox]
    exact ht.awake

theorem Tidy.clearFaults (ht : p.Tidy held) : p.clearFaults.Tidy held := by
  refine ⟨fun h hh => ?_, fun h hh => ?_, fun hheld => ⟨rfl, fun h hh => ?_⟩, ht.awake⟩
  · obtain ⟨h₀, hh₀, rfl⟩ := Option.map_eq_some_iff.mp hh
    obtain ⟨hs, hi, -, ha⟩ := ht.ich h₀ hh₀
    exact ⟨hs, hi, rfl, ha⟩
  · obtain ⟨h₀, hh₀, rfl⟩ := Option.map_eq_some_iff.mp hh
    obtain ⟨⟨hs, -⟩, hr⟩ := ht.piix4 h₀ hh₀
    exact ⟨⟨hs, fun hst => by cases hst⟩, hr⟩
  · obtain ⟨h₀, hh₀, rfl⟩ := Option.map_eq_some_iff.mp hh
    exact (ht.free hheld).2 h₀ hh₀

theorem setTemperature_eq (p : Platform) (slot : UInt8) (raw : UInt16) :
    p.setTemperature slot raw = { p with segment := (p.setTemperature slot raw).segment } := by
  unfold setTemperature
  rw [change_eq, change_eq p]

/-- Nothing of a machine but its hosts, its board and its faults counts. -/
theorem Tidy.aside (ht : p.Tidy held) (segment : Segment) (lockHeld : Bool) :
    ({ p with segment, lockHeld } : Platform).Tidy held :=
  ⟨ht.ich, ht.piix4, ht.free, ht.awake⟩

theorem stands_aside (p : Platform) (segment : Segment) (lockHeld : Bool) :
    p.Stands { p with segment, lockHeld } := ⟨rfl, rfl, rfl, rfl, rfl⟩

end Platform

namespace Binding

variable {b : Binding} {p : Platform}

/-! ## Steps -/

/-- Between two moves, the lock is free and the machine as transactions leave it. -/
def Steady (b : Binding) (w : Bench) : Prop :=
  w.session.link = b.link ∧ b.Holds w.machine.faults false w.machine

theorem Steady.step {w : Bench} (hw : b.Steady w) {move : Move}
    (hm : b.held = true ∨ move ≠ .inject .semaphoreHeld) : b.Steady (w.step move) := by
  obtain ⟨hl, hp⟩ := hw
  cases move with
  | job job =>
      have hkept : (b.rest w.machine.faults).KeptBy (job.work b.link) :=
        rest_robust.job rest_senseless job
      have hj := hkept _ w.session.memory w.machine hp
      rw [← hl] at hj
      obtain ⟨hp', hl'⟩ := Bench.lands_perform hj
      refine ⟨hl'.trans hl, ?_⟩
      rw [← hp'.faults] at hp'
      exact hp'
  | inject fault =>
      refine ⟨hl, ⟨hp.stands.trans (stands_inject _ _), hp.tidy.inject ?_, rfl, ?_⟩⟩
      · refine hm.imp id fun hne hf => hne ?_
        rw [hf]
      · unfold Bench.step inject
        dsimp only
        split <;> exact hp.lock
  | clearFaults =>
      exact ⟨hl, ⟨hp.stands.trans (stands_clearFaults _), hp.tidy.clearFaults, rfl, hp.lock⟩⟩
  | setTemperature slot raw =>
      refine ⟨hl, ?_⟩
      unfold Bench.step
      dsimp only
      rw [setTemperature_eq]
      exact ⟨hp.stands.trans (stands_aside _ _ _), hp.tidy.aside _ _, rfl, hp.lock⟩

theorem Steady.after {w : Bench} (hw : b.Steady w) {moves : List Move}
    (hm : b.held = true ∨ Move.inject .semaphoreHeld ∉ moves) : b.Steady (w.after moves) := by
  induction moves generalizing w with
  | nil => exact hw
  | cons move moves ih =>
      refine ih (hw.step (hm.imp id fun hn he => ?_)) (hm.imp id fun hn he => ?_)
      · exact hn (he ▸ List.mem_cons_self)
      · exact hn (List.mem_cons_of_mem _ he)

/-! ## The beginning -/

/-- A session that was brought up is tied to the machine. -/
theorem exists_steady (hl : p.Laid) {config : Config} {w : Bench}
    (hw : w.StartedOn p config) (held : Bool) :
    ∃ b : Binding, b.Steady w ∧ b.machine = p ∧ b.held = held ∧ b.link.config = config ∧
      b.link.controller.Follows config ∧ w.session.memory = .empty ∧ p.Untouched w.machine := by
  have h := Session.bringUp_ends config
    (Q := fun s? p' => ∀ s, s? = some s → s.link.controller.Fits p ∧
      s.link.controller.Follows config ∧ s.link.config = config ∧ s.memory = .empty ∧
      p.Untouched p') hl
    (fun c p' hfits hfollows hu s hs => by
      rw [← Option.some.inj hs]
      exact ⟨hfits, hfollows, rfl, rfl, hu⟩)
    fun p' _ _ _ s hs => by cases hs
  unfold Bench.StartedOn at hw
  rw [hw] at h
  obtain ⟨hfits, hfollows, hconfig, hmemory, hu⟩ := h w.session rfl
  refine ⟨⟨w.session.link, p, held, hl.wired, hfits⟩, ⟨rfl, hu.stands, ?_, rfl, ?_⟩, rfl, rfl,
    hconfig, hfollows, hmemory, hu⟩
  · exact (hl.tidy held).untouched hu
  · exact hu.lock.trans hl.lock

end Binding

end DimmBus
