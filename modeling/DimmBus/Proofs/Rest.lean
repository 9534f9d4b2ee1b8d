import DimmBus.Proofs.Binding
import DimmBus.Proofs.Invariants

/-!
# The machine at rest

Whatever a session does and however it fails, the machine is afterwards as transactions leave it,
and the lock is as it was.
-/

namespace DimmBus.Binding

open Session Invariant

variable {b : Binding} {faults : List Fault}

/-- An invariant that is about machines at rest, and outlasts whatever happens on their bus. -/
structure Outlasts (b : Binding) (faults : List Fault) (I : Invariant) : Prop where
  holds : ∀ {locked m p}, I.holds locked m p → b.Holds faults locked p
  execute : ∀ {locked m p p'} {t : Transfer}, I.holds locked m p → b.Holds faults locked p' →
    (p'.segment = p.segment ∨ p'.segment = (p.segment.execute t).2) → I.holds locked m p'

namespace Outlasts

variable {I : Invariant} (h : b.Outlasts faults I)

include h

theorem send (tx : Transaction) : I.Kept (send b.link tx) := fun _ _ _ hi =>
  completes_send (h.holds hi) (fun _ _ ht => h.execute hi ht.holds (.inr ht.segment))
    fun _ _ ht => h.execute hi ht.holds ht.segment

/-- The user's own transactions are no exception. -/
theorem transfer (tx : Transaction) : I.Kept (transfer b.link tx) := fun locked m p hi => by
  rw [Session.transfer, completes_bind]
  refine completes_accept (fun ha => ?_) fun _ _ => hi
  have hcarry : I.Kept (access (b.link.controller.transfer tx)) := fun _ _ _ hi =>
    completes_carry ha (h.holds hi) (fun _ _ ht => h.execute hi ht.holds (.inr ht.segment))
      fun _ _ ht => h.execute hi ht.holds ht.segment
  have hdrop : I.Kept (step dropLatch) := .step fun _ _ _ hi => I.dropped hi
  exact (hdrop.bind fun _ => hcarry.locked) locked m p hi

end Outlasts

/-- The machine is as transactions leave it. -/
def rest (b : Binding) (faults : List Fault) : Invariant where
  holds locked _ p := b.Holds faults locked p
  lock hp := hp.lock
  holding locked k hp := hp.holding locked k
  dropped hp := hp

theorem rest_outlasts : b.Outlasts faults (b.rest faults) := ⟨fun hp => hp, fun _ hp' _ => hp'⟩

theorem rest_modify (f : Memory → Memory) : (b.rest faults).KeptBy (modify f) :=
  fun _ _ _ hp => hp

theorem rest_robust : (b.rest faults).Robust b.link where
  send := rest_outlasts.send
  transfer := rest_outlasts.transfer
  latch _ := rest_modify _
  probe := keptBy_probe rest_outlasts.send (fun _ => rest_modify _) fun _ _ _ => rest_modify _
  forget _ _ _ hp := hp

theorem rest_senseless : (b.rest faults).Senseless := fun _ _ => rest_modify _

end DimmBus.Binding
