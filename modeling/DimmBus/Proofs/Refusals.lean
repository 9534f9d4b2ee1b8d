import DimmBus.Proofs.CleanCompletion
import DimmBus.Proofs.Operations
import DimmBus.Session

/-!
# Requests that are refused

A transaction that is malformed or beyond the controller, a slot that does not exist, an address
past the end of a module: all are refused before the bus lock is asked for and before anything that
is remembered changes. The program that is left makes no request at all.
-/

namespace DimmBus

open Session

/-- The request was wrong, or asks for what is not offered. -/
def Error.isRefusal : Error → Bool
  | .param _ | .unsupported _ => true
  | _ => false

/-- What a transaction has to pass before anything is done for it. -/
def Link.admission (link : Link) (tx : Transaction) : Except Error Unit := do
  tx.validate
  link.controller.check tx

variable {link : Link} {m : Memory} {s : Session} {tx : Transaction} {slot : UInt8} {e : Error}

/-! ## Transactions -/

theorem Transaction.refusal_of_validate (h : tx.validate = .error e) : e.isRefusal = true := by
  unfold validate at h
  split at h
  · cases h
    rfl
  · split at h
    · split at h
      · split at h <;> cases h
        rfl
      · cases h
    · cases h
      rfl

theorem Controller.refusal_of_check {c : Controller} (h : c.check tx = .error e) :
    e.isRefusal = true := by
  cases c with
  | ich c =>
      simp only [check, Ich.check] at h
      split at h
      · cases h
        rfl
      · split at h
        · cases h
          rfl
        · split at h <;> cases h
          rfl
  | piix4 c =>
      simp only [check, Piix4.check] at h
      split at h
      · cases h
        rfl
      · split at h <;> cases h
        rfl

theorem Link.refusal_of_admission (h : link.admission tx = .error e) : e.isRefusal = true := by
  cases hv : tx.validate with
  | error e' =>
      rw [admission, hv] at h
      cases h
      exact Transaction.refusal_of_validate hv
  | ok _ =>
      rw [admission, hv] at h
      exact Controller.refusal_of_check h

/-- An access to the machine under the bus lock. -/
def Attempt.underLock {α : Type} (timeoutUs : Nat) (x : Attempt α) : Attempt α := do
  Access.lock timeoutUs
  let r ← x.outcome
  let _ ← Access.unlock.outcome
  Attempt.ofExcept r

namespace Session

section

variable {α β : Type}

theorem access_bind (x : Attempt β) (f : β → Attempt α) :
    access (x >>= f) = access x >>= fun b => access (f b) := by
  apply ExceptT.ext
  apply StateT.ext
  intro m
  change (x >>= f).run.bind (fun r => .done (r, m)) = _
  rw [ExceptT.run_bind, ExceptT.run_bind, StateT.run_bind]
  change (x.run.bind _).bind _ = (x.run.bind _).bind _
  rw [Access.bind_assoc, Access.bind_assoc]
  congr 1
  funext r
  cases r <;> rfl

theorem access_outcome (x : Attempt α) : access x.outcome = outcome (access x) := by
  apply ExceptT.ext
  apply StateT.ext
  intro m
  unfold Attempt.outcome outcome access
  rw [ExceptT.run_lift, ExceptT.run_lift, ExceptT.run_mk, ExceptT.run_mk]
  change (x.run.bind _).bind _ = (x.run.bind _).bind _
  rw [Access.bind_assoc, Access.bind_assoc]
  rfl

theorem locked_access (x : Attempt α) :
    locked link (access x) = access (x.underLock link.config.lockTimeoutUs) := by
  unfold locked Attempt.underLock
  simp only [access_bind, access_outcome]
  rfl

end

theorem accept_eq_ofExcept : accept link tx = ofExcept (link.admission tx) := by
  unfold accept Link.admission
  cases tx.validate <;> rfl

theorem transfer_refused (h : link.admission tx = .error e) :
    (transfer link tx).run.run m = pure (.error e, m) := by
  unfold transfer
  rw [accept_eq_ofExcept, h]
  rfl

/-- A transaction that is admitted loses the page that is relied on and runs under the lock. -/
theorem run_transfer_admitted (h : s.link.admission tx = .ok ()) : s.run (transfer · tx) =
    (·, ⟨s.link, { s.memory with latch := none }⟩) <$>
      ((s.link.controller.transfer tx).underLock s.link.config.lockTimeoutUs).run := by
  have htransfer : (transfer s.link tx).run.run s.memory =
      (·, { s.memory with latch := none }) <$>
        ((s.link.controller.transfer tx).underLock s.link.config.lockTimeoutUs).run := by
    unfold transfer
    rw [accept_eq_ofExcept, h, locked_access]
    rfl
  unfold Session.run Session.perform
  rw [htransfer, bind_map_left, map_eq_pure_bind]

/-! ## Slots and addresses -/

theorem probe_beyond (hs : ¬slot.toNat < Spd.slotCount) :
    (probe link slot).run m = pure (none, m) := by
  unfold probe
  rw [if_neg hs]
  rfl

/-- Work on the module of a slot that does not exist ends before it begins. -/
theorem confirmed_beyond {α : Type} (hs : ¬slot.toNat < Spd.slotCount)
    (next : Generation → Operation α) :
    confirmed link slot >>= next = throw (.param (.slot slot)) := by
  unfold confirmed
  rw [if_neg hs]
  rfl

theorem locate_beyond {g : Generation} {address : UInt16} (h : g.size ≤ address) :
    locate g address = .error (.param (.spdAddress g address)) := by
  unfold locate Generation.locate?
  rw [if_neg (UInt16.not_lt.mpr h)]

theorem readSpd_beyond {found : Module} {address : UInt16} (h : m.module? slot = some found)
    (ha : found.generation.size ≤ address) : (readSpd link slot address).run.run m =
      pure (.error (.param (.spdAddress found.generation address)), m) := by
  unfold readSpd
  rw [ExceptT.run_bind, StateT.run_bind, confirmed_known h, pure_bind]
  dsimp only
  rw [locate_beyond ha]
  rfl

/-- Work that is over at once leaves the session as it is. -/
theorem perform_pure {α : Type} {work : Link → Step α} {a : α}
    (h : (work s.link).run s.memory = pure (a, s.memory)) : s.perform work = pure (a, s) := by
  unfold perform
  rw [h]
  rfl

theorem run_throw {α : Type} {work : Link → Operation α} (h : work s.link = throw e) :
    s.run work = pure (.error e, s) := by
  apply perform_pure
  rw [h]
  rfl

/-- Nothing is done for a slot that does not exist, and nothing is known of it. -/
structure NoSlot (s : Session) (slot : UInt8) : Prop where
  known : s.module? slot = none
  probe : s.perform (probe · slot) = pure (none, s)
  read : ∀ address, s.run (readSpd · slot address) = pure (.error (.param (.slot slot)), s)
  dump : ∀ mode, s.run (dump · slot mode) = pure (.error (.param (.slot slot)), s)
  thermalAvailable : s.perform (thermalAvailable · slot) = pure (false, s)
  temperature : s.run (readTemperature · slot) = pure (.error (.param (.slot slot)), s)

theorem noSlot (s : Session) (hs : ¬slot.toNat < Spd.slotCount) : NoSlot s slot where
  known := Memory.module?_beyond hs
  probe := perform_pure (probe_beyond hs)
  read _ := run_throw (confirmed_beyond hs _)
  dump _ := run_throw (confirmed_beyond hs _)
  thermalAvailable := by
    have hcapability : thermalCapability s.link slot = throw (.param (.slot slot)) :=
      confirmed_beyond hs _
    apply perform_pure
    rw [Session.thermalAvailable, hcapability]
    rfl
  temperature := run_throw (confirmed_beyond hs _)

end Session

/-- A request that is refused is refused without any access to the machine and leaves the session,
whatever its state, exactly as it was. A transaction is refused so if and only if it is malformed or
beyond the controller; every other transaction asks for the bus lock first. -/
theorem refusals_touch_nothing (s : Session) :
    (∀ tx e, s.run (transfer · tx) = pure (.error e, s) ↔ s.link.admission tx = .error e) ∧
    (∀ tx e, s.link.admission tx = .error e → e.isRefusal = true) ∧
    (∀ slot, ¬slot.toNat < Spd.slotCount → NoSlot s slot) ∧
    ∀ slot found address, s.module? slot = some found → found.generation.size ≤ address →
      s.run (readSpd · slot address) =
        pure (.error (.param (.spdAddress found.generation address)), s) := by
  refine ⟨fun tx e => ⟨fun h => ?_, fun h => perform_pure (transfer_refused h)⟩,
    fun tx e => Link.refusal_of_admission, fun slot => noSlot s,
    fun slot found address h ha => perform_pure (readSpd_beyond h ha)⟩
  cases hadmit : s.link.admission tx with
  | error e' =>
      rw [Session.run, perform_pure (transfer_refused hadmit)] at h
      cases h
      rfl
  | ok _ =>
      rw [run_transfer_admitted hadmit] at h
      cases h

/-- A session that knows of a flat module in its first slot. -/
def Session.flat : Session := ⟨default, Memory.empty.setModule 0 ⟨.ddr3, 0x0B, none⟩⟩

theorem refusals_touch_nothing_flat :
    Session.flat.run (transfer · (.writeBlock 0x50 0 (List.replicate 33 0))) =
      pure (.error (.param (.blockLength 33)), .flat) ∧
    Session.flat.run (transfer · (.readBlock 0x50 0)) =
      pure (.error (.unsupported (.blockBuffer "")), .flat) ∧
    (Error.unsupported (.blockBuffer "")).isRefusal = true ∧
    NoSlot .flat 8 ∧
    Session.flat.run (readSpd · 0 256) = pure (.error (.param (.spdAddress .ddr3 256)), .flat) := by
  have h := refusals_touch_nothing .flat
  exact ⟨(h.1 _ _).mpr rfl, (h.1 _ _).mpr rfl, h.2.1 (.readBlock 0x50 0) _ rfl,
    h.2.2.1 8 (by decide), h.2.2.2 0 ⟨.ddr3, 0x0B, none⟩ 256 (by decide) (by decide)⟩

end DimmBus
