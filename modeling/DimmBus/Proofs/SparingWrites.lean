import DimmBus.Proofs.History
import DimmBus.Proofs.Tenets

/-!
# Writes are sparing

Whatever the bus answers, a session's work on a slot only asks for the transactions on a short list.
Of a module it writes nothing but the page and the sensor bit of a hub that has shown itself.
-/

namespace DimmBus

open Session

/-- The transactions that a job may hand over in the light of all steps so far. `known` is what was
remembered at the beginning. -/
def Job.Permits (known : Memory) : Job → (past : List Exchange) → Transaction → Prop
  | .probe slot, past, tx | .read slot _, past, tx | .dump slot _, past, tx
  | .thermalAvailable slot, past, tx | .temperature slot, past, tx =>
    slot.toNat < Spd.slotCount ∧ Asked known slot past tx
  | .transfer own, _, tx => tx = own
  | .forget, _, _ => False

/-- Job after job, whatever comes of their steps, each hands over only what it may. -/
def InTurn (link : Link) (may : Job → List Exchange → Transaction → Prop) :
    List Job → Memory → (past : List Exchange) → Prop
  | [], _, _ => True
  | job :: jobs, m, past => ∃ script : Script (Unit × Memory) false false,
      script.perform link.controller = (job.work link).run m ∧
      script.Meets (may job) (fun r past => InTurn link may jobs r.2 past) past

variable {known : Memory} {link : Link}

theorem scripted_job (job : Job) : Scripted link.controller (job.Permits known) false false
    (Tenet.vouched known).holds (job.work link) fun _ => (Tenet.vouched known).holds := by
  have hT := Tenet.vouched_lasts known
  have hdone : ∀ {α : Type} {may : List Exchange → Transaction → Prop} {x : Operation α},
      (Tenet.vouched known).Keeps link may false x →
      Scripted link.controller may false false (Tenet.vouched known).holds
        (do let _ ← x.run) fun _ => (Tenet.vouched known).holds := fun hx =>
    (Planned.run hx).bind fun r => .pure fun _ _ h => by cases r <;> exact h
  cases job with
  | probe slot =>
      exact (Tenet.scripted_probe hT fun hs _ _ h => ⟨hs, h⟩).bind fun _ => .pure fun _ _ h => h.1
  | read slot address => exact hdone (Tenet.keeps_readSpd hT (fun hs _ _ h => ⟨hs, h⟩) address)
  | dump slot mode => exact hdone (Tenet.keeps_dump hT (fun hs _ _ h => ⟨hs, h⟩) mode)
  | thermalAvailable slot =>
      exact (Tenet.keeps_thermalAvailable hT fun hs _ _ h => ⟨hs, h⟩).bind fun _ =>
        .pure fun _ _ h => h
  | temperature slot => exact hdone (Tenet.keeps_readTemperature hT fun hs _ _ h => ⟨hs, h⟩)
  | transfer own => exact hdone (Tenet.keeps_transfer hT fun _ => rfl)
  | forget =>
      refine Scripted.set fun _ past _ slot found hf => ?_
      rw [Memory.module?_empty] at hf
      cases hf

theorem inTurn_of_vouched (jobs : List Job) {m : Memory} {past : List Exchange}
    (h : (Tenet.vouched known).holds m past) :
    InTurn link (fun job => job.Permits known) jobs m past := by
  induction jobs generalizing m past with
  | nil => trivial
  | cons job jobs ih =>
      have hscripted : Scripted link.controller (job.Permits known) _ _ _ (job.work link) _ :=
        scripted_job job
      obtain ⟨script, hperform, hmeets⟩ := hscripted m
      exact ⟨script, hperform, (hmeets past h).mono fun r past h => ih h⟩

/-- In any state and in any order, the jobs of a session hand over only what each of them may,
whatever comes of the transactions. -/
theorem writes_sparingly (link : Link) (known : Memory) (jobs : List Job) :
    InTurn link (fun job => job.Permits known) jobs known [] :=
  inTurn_of_vouched jobs (Tenet.vouched_start known)

end DimmBus
