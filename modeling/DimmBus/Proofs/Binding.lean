import DimmBus.Proofs.Operations
import DimmBus.Proofs.Transfers

/-!
# A session and its machine

What a session's work may rely on between two transactions, and the rule for a transaction that is
part of it.
-/

namespace DimmBus

open Platform Session

/-- A session's link with the machine that it was brought up on. Firmware may hold the semaphore
only if `held`. -/
structure Binding where
  link : Link
  machine : Platform
  held : Bool
  wired : machine.Wired
  fits : link.controller.Fits machine

namespace Binding

/-- The machine is as transactions leave it, under these faults, and the lock is taken or free. -/
structure Holds (b : Binding) (faults : List Fault) (locked : Bool) (p : Platform) : Prop where
  stands : b.machine.Stands p
  tidy : p.Tidy b.held
  faults : p.faults = faults
  lock : p.lockHeld = locked

variable {b : Binding} {faults : List Fault} {locked : Bool} {p : Platform} {m : Memory}
  {tx : Transaction}

theorem Holds.holding (hp : b.Holds faults locked p) (locked' : Bool) (k : Counters) :
    b.Holds faults locked' (p.holding locked' k) where
  stands := ⟨hp.stands.transport, hp.stands.ich, hp.stands.piix4, hp.stands.pm, hp.stands.mailbox⟩
  tidy := ⟨hp.tidy.ich, hp.tidy.piix4, hp.tidy.free, hp.tidy.awake⟩
  faults := hp.faults
  lock := rfl

/-- Nothing is in the way of a transaction. -/
def Calm (b : Binding) (faults : List Fault) : Prop :=
  faults = [] ∧ b.link.controller.Attends

/-- A transaction that every controller carries. -/
structure Plain (tx : Transaction) : Prop where
  valid : tx.validate = .ok ()
  protocol : tx.protocol.isBlock = false ∧ tx.protocol ≠ .procCall
  pec : tx.pec = false

theorem check_of_plain (c : Controller) (ht : Plain tx) : c.check tx = .ok () := by
  obtain ⟨-, ⟨hb, hc⟩, hp⟩ := ht
  have hblock : tx.protocol ≠ .blockData ∧ tx.protocol ≠ .blockProcCall := by
    constructor <;> intro h <;> rw [h] at hb <;> cases hb
  cases c with
  | ich c => simp [Controller.check, Ich.check, hblock, hp]
  | piix4 c => simp [Controller.check, Piix4.check, hblock, hc, hp]

theorem callsLatch_of_plain (ht : Plain tx) : tx.callsLatch = false := by
  obtain ⟨-, ⟨hb, hc⟩, -⟩ := ht
  have hblock : tx.protocol ≠ .blockProcCall := by
    intro h
    rw [h] at hb
    cases hb
  simp [Transaction.callsLatch, hc, hblock]

/-- A plain transaction that is reported as a failure was not acknowledged. -/
theorem unanswered {pecError : Bool} {reply? : Option Reply} {e : Error} (ht : Plain tx)
    (hr : tx.Reported pecError reply? (.error e)) : reply? = none ∧ e.isNak = true := by
  cases reply? with
  | none =>
      obtain ⟨fault, status, he, hfault⟩ := hr
      rw [Except.error.inj he, hfault ht.pec]
      exact ⟨rfl, rfl⟩
  | some reply =>
      rw [Transaction.Reported, ht.pec, Bool.false_and, if_neg Bool.false_ne_true] at hr
      cases hr (callsLatch_of_plain ht)

/-- The session takes a transaction on. -/
def Accepts (b : Binding) (tx : Transaction) : Prop :=
  tx.validate = .ok () ∧ b.link.controller.check tx = .ok ()

theorem accepts_of_plain (ht : Plain tx) : b.Accepts tx := ⟨ht.valid, check_of_plain _ ht⟩

theorem completes_accept {ok : Unit → Memory → Platform → Prop}
    {bad : Error → Memory → Platform → Prop} (hok : b.Accepts tx → ok () m p)
    (hbad : ∀ e, ¬b.Accepts tx → bad e m p) : Completes (accept b.link tx) m p ok bad := by
  rw [accept, completes_bind]
  cases hv : tx.validate with
  | error e =>
      refine hbad e fun ha => ?_
      rw [ha.1] at hv
      cases hv
  | ok u =>
      rw [completes_ofExcept_ok]
      cases hc : b.link.controller.check tx with
      | error e =>
          refine hbad e fun ha => ?_
          rw [ha.2] at hc
          cases hc
      | ok u => exact hok ⟨hv, hc⟩

/-- Nothing keeps a transaction from the bus, and its end is looked for. -/
def Reaches (b : Binding) (faults : List Fault) : Prop :=
  b.link.controller.kept { b.machine with faults } = false ∧ b.link.controller.unwatched = false

theorem Calm.reaches (h : b.Calm faults) : b.Reaches faults :=
  ⟨Controller.kept_of_faults ⟨b.wired.ich, b.wired.piix4, b.wired.connected⟩ h.1 h.2,
    Controller.unwatched_of_attends h.2⟩

theorem Holds.kept (hp : b.Holds faults locked p) :
    b.link.controller.kept p = b.link.controller.kept { b.machine with faults } :=
  Controller.kept_congr hp.faults hp.stands.connected

/-- How a transaction succeeds: it has reached the bus, which has executed its operation, and it
brings the reply. -/
structure Succeeds (b : Binding) (faults : List Fault) (locked : Bool) (tx : Transaction)
    (p : Platform) (payload : Payload) (p' : Platform) : Prop where
  holds : b.Holds faults locked p'
  reaches : b.Reaches faults
  segment : p'.segment = (p.segment.execute tx.request).2
  reply : tx.callsLatch = false → ∃ reply, (p.segment.execute tx.request).1 = some reply ∧
    payload = reply.payload

/-- How it fails: the bus may have executed its operation or not. Where it reaches the bus, only the
lack of an acknowledgement makes a plain one fail, which is reported as such. -/
structure Fails (b : Binding) (faults : List Fault) (locked : Bool) (tx : Transaction)
    (p : Platform) (e : Error) (p' : Platform) : Prop where
  holds : b.Holds faults locked p'
  segment : p'.segment = p.segment ∨ p'.segment = (p.segment.execute tx.request).2
  unanswered : b.Reaches faults → Plain tx →
    (p.segment.execute tx.request).1 = none ∧ e.isNak = true

section

variable {p' : Platform} {payload : Payload} {e : Error}

theorem Succeeds.replied (h : b.Succeeds faults locked tx p payload p') (ht : Plain tx) :
    ∃ reply, (p.segment.execute tx.request).1 = some reply ∧ payload = reply.payload :=
  h.reply (callsLatch_of_plain ht)

theorem Fails.unacknowledged (h : b.Fails faults locked tx p e p') (hr : b.Reaches faults)
    (ht : Plain tx) : (p.segment.execute tx.request).1 = none := (h.unanswered hr ht).1

end

section

variable {ok : Payload → Memory → Platform → Prop} {bad : Error → Memory → Platform → Prop}

/-- A transaction that was taken on is carried out. -/
theorem completes_carry (ha : b.Accepts tx) (hp : b.Holds faults locked p)
    (hok : ∀ payload p', b.Succeeds faults locked tx p payload p' → ok payload m p')
    (hbad : ∀ e p', b.Fails faults locked tx p e p' → bad e m p') :
    Completes (access (b.link.controller.transfer tx)) m p ok bad := by
  rw [completes_access, Attempt.Ends]
  have hh := Controller.handled (b.wired.stands hp.stands) (b.fits.stands hp.stands) hp.tidy
    ha.1 ha.2
  generalize (b.link.controller.transfer tx).run.run answer p = out at hh ⊢
  obtain ⟨r, p'⟩ := out
  have hp' : b.Holds faults locked p' :=
    ⟨hp.stands.trans hh.stands, hh.tidy, hh.faults.trans hp.faults, hh.lock.trans hp.lock⟩
  have hfate := hh.fate
  have hcarried := hh.carried
  rw [hp.kept] at hfate
  have hnone : ∀ e, r = .error e → b.Reaches faults → Plain tx →
      (p.segment.execute tx.request).1 = none ∧ e.isNak = true := fun e he hreach ht => by
    rw [he, hreach.1, hreach.2] at hfate
    exact unanswered ht hfate.reports
  have hreaches : ∀ payload, r = .ok payload → b.Reaches faults := fun payload he => by
    rw [he] at hfate
    exact hfate.reached
  generalize hg' : p'.segment = g' at hcarried
  cases hcarried with
  | refused e => exact hbad e p' ⟨hp', .inl hg', hnone e rfl⟩
  | executed _ hreply =>
      cases r with
      | error e => exact hbad e p' ⟨hp', .inr hg', hnone e rfl⟩
      | ok payload => exact hok payload p' ⟨hp', hreaches payload rfl, hg', hreply payload rfl⟩

/-- A transaction as part of a longer operation. -/
theorem completes_send (hp : b.Holds faults locked p)
    (hok : ∀ payload p', b.Succeeds faults locked tx p payload p' → ok payload m p')
    (hbad : ∀ e p', b.Fails faults locked tx p e p' → bad e m p') :
    Completes (send b.link tx) m p ok bad := by
  rw [send, completes_bind]
  refine completes_accept (fun ha => completes_carry ha hp hok hbad) fun e hn => ?_
  exact hbad e p ⟨hp, .inl rfl, fun _ ht => absurd (accepts_of_plain ht) hn⟩

end

end Binding

end DimmBus
