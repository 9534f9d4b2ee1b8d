import DimmBus.Proofs.HostAccess
import DimmBus.Session.Thermal

/-!
# Runs of a session's work

A session's work is judged by what holds after its run, of what is remembered and of the machine.
Each way of putting work together has its rule.
-/

namespace DimmBus

/-- The machine with the bus lock taken or free. -/
def Platform.holding (p : Platform) (lockHeld : Bool) (counters : Counters) : Platform :=
  { p with lockHeld, counters }

namespace Memory

variable {m : Memory} {slot : UInt8}

theorem module?_beyond (hs : ¬slot.toNat < Spd.slotCount) : m.module? slot = none := by
  have hnone : m.slots[slot.toNat]? = none := Vector.getElem?_eq_none (Nat.le_of_not_lt hs)
  rw [module?, hnone]
  rfl

theorem slot_lt_of_module? {found : Module} (h : m.module? slot = some found) :
    slot.toNat < Spd.slotCount := by
  refine Decidable.byContradiction fun hs => ?_
  rw [module?_beyond hs] at h
  cases h

end Memory

namespace Session

open Platform

variable {α β : Type} {m : Memory} {p : Platform}

/-! ## Work that cannot fail -/

/-- A run ends in `Q`. -/
def Lands (x : Step α) (m : Memory) (p : Platform) (Q : α → Memory → Platform → Prop) : Prop :=
  Q ((x.run m).run answer p).1.1 ((x.run m).run answer p).1.2 ((x.run m).run answer p).2

section

variable {Q Q' : α → Memory → Platform → Prop}

theorem Lands.mono {x : Step α} (h : Lands x m p Q) (hq : ∀ a m p, Q a m p → Q' a m p) :
    Lands x m p Q' := hq _ _ _ h

@[simp]
theorem lands_pure {a : α} : Lands (pure a) m p Q ↔ Q a m p := Iff.rfl

@[simp]
theorem lands_bind {x : Step β} {f : β → Step α} :
    Lands (x >>= f) m p Q ↔ Lands x m p fun b m p => Lands (f b) m p Q := by
  unfold Lands
  rw [StateT.run_bind, Access.run_bind]

@[simp]
theorem lands_get {Q : Memory → Memory → Platform → Prop} : Lands get m p Q ↔ Q m m p := Iff.rfl

@[simp]
theorem lands_modify {f : Memory → Memory} {Q : Unit → Memory → Platform → Prop} :
    Lands (modify f) m p Q ↔ Q () (f m) p := Iff.rfl

@[simp]
theorem lands_dropLatch {Q : Unit → Memory → Platform → Prop} :
    Lands dropLatch m p Q ↔ Q () { m with latch := none } p := Iff.rfl

@[simp]
theorem lands_setLatch {slave page : UInt8} {Q : Unit → Memory → Platform → Prop} :
    Lands (setLatch slave page) m p Q ↔ Q () { m with latch := some ⟨slave, page⟩ } p := Iff.rfl

end

/-! ## Work that can fail -/

/-- A run ends in success and `ok`, or in failure and `bad`. -/
def Completes (x : Operation α) (m : Memory) (p : Platform) (ok : α → Memory → Platform → Prop)
    (bad : Error → Memory → Platform → Prop) : Prop :=
  Lands x.run m p fun r m p =>
    match r with
    | .ok a => ok a m p
    | .error e => bad e m p

variable {ok ok' : α → Memory → Platform → Prop} {bad bad' : Error → Memory → Platform → Prop}

theorem completes_run {x : Operation α} {Q : Except Error α → Memory → Platform → Prop} :
    Lands x.run m p Q ↔
      Completes x m p (fun a => Q (.ok a)) (fun e => Q (.error e)) := by
  unfold Completes Lands
  rcases ((x.run.run m).run answer p) with ⟨⟨e | a, m'⟩, p'⟩ <;> rfl

theorem Completes.mono {x : Operation α} (h : Completes x m p ok bad)
    (hok : ∀ a m p, ok a m p → ok' a m p) (hbad : ∀ e m p, bad e m p → bad' e m p) :
    Completes x m p ok' bad' := by
  revert h
  unfold Completes Lands
  rcases ((x.run.run m).run answer p) with ⟨⟨e | a, m'⟩, p'⟩
  · exact hbad e m' p'
  · exact hok a m' p'

@[simp]
theorem completes_pure {a : α} : Completes (pure a) m p ok bad ↔ ok a m p := Iff.rfl

@[simp]
theorem completes_bind {x : Operation β} {f : β → Operation α} :
    Completes (x >>= f) m p ok bad ↔
      Completes x m p (fun b m p => Completes (f b) m p ok bad) bad := by
  unfold Completes
  rw [ExceptT.run_bind, lands_bind]
  unfold Lands
  rcases ((x.run.run m).run answer p) with ⟨⟨e | b, m'⟩, p'⟩ <;> rfl

@[simp]
theorem completes_get {ok : Memory → Memory → Platform → Prop} :
    Completes get m p ok bad ↔ ok m m p := Iff.rfl

@[simp]
theorem completes_step {x : Step α} : Completes (step x) m p ok bad ↔ Lands x m p ok := by
  unfold Completes step
  rw [ExceptT.run_lift, map_eq_pure_bind, lands_bind]
  rfl

@[simp]
theorem completes_outcome {x : Operation α} {ok : Except Error α → Memory → Platform → Prop} :
    Completes (outcome x) m p ok bad ↔
      Completes x m p (fun a => ok (.ok a)) (fun e => ok (.error e)) := by
  unfold outcome
  rw [← completes_run]
  exact completes_step

@[simp]
theorem completes_ofExcept_ok {a : α} : Completes (ofExcept (.ok a)) m p ok bad ↔ ok a m p :=
  Iff.rfl

@[simp]
theorem completes_adapt {x : Operation α} {f : Error → Error} :
    Completes (ExceptT.adapt f x) m p ok bad ↔ Completes x m p ok (fun e => bad (f e)) := by
  unfold Completes
  change Lands (Except.mapError f <$> x.run) m p _ ↔ _
  rw [map_eq_pure_bind, lands_bind]
  unfold Lands
  rcases ((x.run.run m).run answer p) with ⟨⟨e | a, m'⟩, p'⟩ <;> rfl

/-- What is remembered has no part in accesses to the machine. -/
@[simp]
theorem completes_access {x : Attempt α} :
    Completes (access x) m p ok bad ↔
      Attempt.Ends answer x p (fun a p => ok a m p) (fun e p => bad e m p) := by
  unfold Completes Lands access Attempt.Ends
  have hrun : ((ExceptT.mk (StateT.lift x.run) : Operation α).run.run m).run answer p =
      (((x.run.run answer p).1, m), (x.run.run answer p).2) := by
    change ((StateT.lift x.run : Step (Except Error α)).run m).run answer p = _
    rw [StateT.run_lift, Access.run_bind]
    rfl
  rw [hrun]
  rcases x.run.run answer p with ⟨e | a, p'⟩ <;> rfl

theorem completes_ofExcept_post {r : Except Error α} {Q : Except Error α → Memory → Platform → Prop}
    (h : Q r m p) : Completes (ofExcept r) m p (fun a => Q (.ok a)) (fun e => Q (.error e)) := by
  cases r <;> exact h

theorem lands_of_forall {x : Step α} {Q : α → Memory → Platform → Prop}
    (h : ∀ a m p, Q a m p) : Lands x m p Q := h _ _ _

theorem completes_of_forall {x : Operation α} (hok : ∀ a m p, ok a m p)
    (hbad : ∀ e m p, bad e m p) : Completes x m p ok bad := by
  unfold Completes Lands
  rcases ((x.run.run m).run answer p) with ⟨⟨e | a, m'⟩, p'⟩
  · exact hbad e m' p'
  · exact hok a m' p'

/-- Two judgements of one run. -/
theorem Completes.and {x : Operation α} (h : Completes x m p ok bad)
    (h' : Completes x m p ok' bad') :
    Completes x m p (fun a m p => ok a m p ∧ ok' a m p) (fun e m p => bad e m p ∧ bad' e m p) := by
  revert h h'
  unfold Completes Lands
  rcases ((x.run.run m).run answer p) with ⟨⟨e | a, m'⟩, p'⟩ <;> exact And.intro

/-! ## Under the lock, and again -/

/-- The lock is taken for the work and given back after it, whether the work fails or not. Neither
is a transaction. -/
theorem completes_locked_logged {link : Link} {body : Operation α}
    (hbusy : p.lockHeld = true ∨ p.has .lockContended = true →
      ∀ k, k.log = p.counters.log → bad (.busy 0) m (p.holding p.lockHeld k))
    (hbody : p.lockHeld = false → p.has .lockContended = false → ∀ k, k.log = p.counters.log →
      Completes body m (p.holding true k)
        (fun a m p => ∀ k, k.log = p.counters.log → ok a m (p.holding false k))
        (fun e m p => ∀ k, k.log = p.counters.log → bad e m (p.holding false k))) :
    Completes (locked link body) m p ok bad := by
  rw [locked, completes_bind, completes_access]
  have hlock : Attempt.Ends answer (Access.lock link.config.lockTimeoutUs) p
      (fun _ p' => p.lockHeld = false ∧ p.has .lockContended = false ∧
        ∃ k, p' = p.holding true k ∧ k.log = p.counters.log)
      (fun e p' => (p.lockHeld = true ∨ p.has .lockContended = true) ∧ e = .busy 0 ∧
        ∃ k, p' = p.holding p.lockHeld k ∧ k.log = p.counters.log) := by
    have hrun : (Access.lock link.config.lockTimeoutUs).run.run answer p = p.counted.takeLock := rfl
    have hlock : p.counted.lockHeld = p.lockHeld := rfl
    have hhas : p.counted.has .lockContended = p.has .lockContended := rfl
    unfold Attempt.Ends
    rw [hrun]
    unfold takeLock
    rw [hlock, hhas]
    cases hl : p.lockHeld <;> cases hc : p.has .lockContended
    · exact ⟨rfl, rfl, _, rfl, rfl⟩
    · exact ⟨.inr rfl, rfl, p.counted.counters, by rw [holding, ← hl]; rfl, rfl⟩
    · exact ⟨.inl rfl, rfl, p.counted.counters, by rw [holding, ← hl]; rfl, rfl⟩
    · exact ⟨.inl rfl, rfl, p.counted.counters, by rw [holding, ← hl]; rfl, rfl⟩
  refine hlock.mono ?_ ?_
  · rintro _ _ ⟨hl, hc, k, rfl, hk⟩
    rw [completes_bind, completes_outcome]
    refine (hbody hl hc k hk).mono (fun a m p h => ?_) (fun e m p h => ?_)
    · rw [completes_bind, completes_outcome, completes_access]
      exact h p.counters.called rfl
    · rw [completes_bind, completes_outcome, completes_access]
      exact h p.counters.called rfl
  · rintro _ _ ⟨hwhy, rfl, k, rfl, hk⟩
    exact hbusy hwhy k hk

/-- The same where the transactions do not count. -/
theorem completes_locked {link : Link} {body : Operation α}
    (hbusy : p.lockHeld = true ∨ p.has .lockContended = true →
      ∀ k, bad (.busy 0) m (p.holding p.lockHeld k))
    (hbody : p.lockHeld = false → p.has .lockContended = false → ∀ k,
      Completes body m (p.holding true k) (fun a m p => ∀ k, ok a m (p.holding false k))
        (fun e m p => ∀ k, bad e m (p.holding false k))) :
    Completes (locked link body) m p ok bad :=
  completes_locked_logged (fun hwhy k _ => hbusy hwhy k) fun hl hc k _ =>
    (hbody hl hc k).mono (fun _ _ _ h k _ => h k) fun _ _ _ h k _ => h k

/-- Work is repeated from whatever a failure leaves, without a page to rely on. -/
theorem completes_retryingWithin {body : Operation α} {I : Memory → Platform → Prop} (n : Nat)
    (hbody : ∀ m p, I m p → Completes body m p ok fun e m p =>
      I { m with latch := none } p ∧ bad e { m with latch := none } p) (h : I m p) :
    Completes (retryingWithin body n) m p ok bad := by
  induction n generalizing m p with
  | zero =>
      rw [retryingWithin, completes_bind, completes_outcome]
      refine (hbody m p h).mono (fun a m p ha => ha) fun e m p he => ?_
      simp only [completes_bind, completes_step, lands_dropLatch]
      exact he.2
  | succ n ih =>
      rw [retryingWithin, completes_bind, completes_outcome]
      refine (hbody m p h).mono (fun a m p ha => ha) fun e m p he => ?_
      simp only [completes_bind, completes_step, lands_dropLatch]
      split
      · exact ih he.1
      · exact he.2

/-! ## Modules that are known -/

/-- A module that is known is found again without any access. -/
theorem probe_known {link : Link} {m : Memory} {slot : UInt8} {found : Module}
    (h : m.module? slot = some found) :
    (probe link slot).run m = pure (some found.generation, m) := by
  unfold probe
  rw [if_pos (Memory.slot_lt_of_module? h), StateT.run_bind, StateT.run_get, pure_bind]
  dsimp only
  rw [h]
  rfl

theorem confirmed_known {link : Link} {m : Memory} {slot : UInt8} {found : Module}
    (h : m.module? slot = some found) :
    (confirmed link slot).run.run m = pure (.ok found.generation, m) := by
  unfold confirmed step
  rw [if_pos (Memory.slot_lt_of_module? h), ExceptT.run_bind, ExceptT.run_lift, StateT.run_bind,
    StateT.run_map, probe_known h]
  rfl

theorem completes_known {link : Link} {slot : UInt8} {found : Module}
    {next : Generation → Operation α} (h : m.module? slot = some found) :
    Completes (confirmed link slot >>= next) m p ok bad ↔
      Completes (next found.generation) m p ok bad := by
  unfold Completes Lands
  rw [ExceptT.run_bind, StateT.run_bind, confirmed_known h]
  rfl

end Session

end DimmBus
