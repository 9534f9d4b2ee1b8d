import DimmBus.Proofs.Hosted

/-!
# Packet error codes

A host that checks packet error codes itself reports the wrong ones. The routines that transactions
are delegated to are never told that a code is wanted, so that no wrong one is missed.
-/

namespace DimmBus

open Platform Session

variable {tx : Transaction}

/-! ## What a wrong code comes to -/

namespace Transaction

variable {reply? : Option Reply} {r : Except Error Payload}

theorem Reported.fails (h : tx.Reported true reply? r) (hpec : tx.pec = true) :
    ∃ e, r = .error e := by
  cases reply? with
  | none =>
      obtain ⟨fault, status, he, -⟩ := h
      exact ⟨_, he⟩
  | some reply =>
      rw [Reported, hpec, Bool.and_self, if_pos rfl] at h
      obtain ⟨status, he⟩ := h
      exact ⟨_, he⟩

/-- The fault that is reported is the wrong code, if a slave acknowledges. -/
theorem Reported.names_pec (h : tx.Reported true reply? r) (hpec : tx.pec = true)
    (hreply : reply?.isSome = true) :
    ∃ status, r = .error (.bus tx.slave tx.protocol .pec status) := by
  obtain ⟨reply, rfl⟩ := Option.isSome_iff_exists.mp hreply
  rw [Reported, hpec, Bool.and_self, if_pos rfl] at h
  exact h

end Transaction

namespace Controller

variable {c : Controller} {p : Platform}

/-- Only Intel hosts take a transaction with a code. -/
theorem exists_ich_of_check (hc : c.check tx = .ok ()) (hpec : tx.pec = true) :
    ∃ i : Ich, c = .ich i := by
  cases c with
  | ich i => exact ⟨i, rfl⟩
  | piix4 c =>
      obtain ⟨-, -, hplain⟩ := Piix4.plain_of_check hc
      rw [hpec] at hplain
      cases hplain

end Controller

/-! ## Through the registers -/

namespace Binding

variable {b : Binding} {faults : List Fault} {p : Platform} {m : Memory}

/-- Of the faults, only those of the host can keep a transaction with a code from the bus. -/
theorem reaches_of_check {config : Config} (hf : b.link.controller.Follows config)
    (hc : b.link.controller.check tx = .ok ()) (hpec : tx.pec = true)
    (hpoll : config.ichPoll.retries ≠ 0)
    (hjam : ({ b.machine with faults } : Platform).jammed = false) : b.Reaches faults := by
  obtain ⟨i, hi⟩ := Controller.exists_ich_of_check hc hpec
  unfold Reaches
  rw [hi] at hf ⊢
  have hpoll' : i.poll.retries ≠ 0 := by
    rw [show i.poll = config.ichPoll from hf]
    exact hpoll
  exact ⟨by simp [Controller.kept, blocked, hjam, connected],
    Controller.unwatched_of_attends hpoll'⟩

/-- No transaction with a code succeeds while all codes are wrong. -/
theorem completes_transfer_pecError (hp : b.Holds faults false p)
    (hd : b.link.controller.info.transport = .direct) (hpec : tx.pec = true)
    (herror : p.has .pecError = true) :
    Completes (transfer b.link tx) m p (fun _ _ _ => False) fun e _ _ =>
      b.Accepts tx → b.Reaches faults → p.has .lockContended = false →
      (p.segment.execute tx.request).1.isSome = true →
      ∃ status, e = .bus tx.slave tx.protocol .pec status := by
  rw [transfer, completes_bind]
  refine completes_accept (fun ha => ?_) fun e hn ha => absurd ha hn
  rw [completes_bind, completes_step, lands_dropLatch]
  refine completes_locked (fun hbusy k _ _ hfree _ => ?_) fun _ _ k => ?_
  · rw [hp.lock, hfree] at hbusy
    obtain h | h := hbusy <;> cases h
  · rw [completes_access]
    have hp' := hp.holding true k
    have hh := Controller.handled (b.wired.stands hp'.stands) (b.fits.stands hp'.stands) hp'.tidy
      ha.1 ha.2
    obtain ⟨i, hi⟩ := Controller.exists_ich_of_check ha.2 hpec
    have hbad : b.link.controller.badPec (p.holding true k) = true := by
      rw [hi] at hd ⊢
      have hi' : i.info.transport = .direct := hd
      have herror' : (p.holding true k).has .pecError = true := herror
      simp [Controller.badPec, hi', herror']
    have hfate := hh.fate
    rw [hbad, hp'.kept] at hfate
    unfold Attempt.Ends
    generalize (b.link.controller.transfer tx).run.run answer (p.holding true k) = out at hfate ⊢
    obtain ⟨r, p'⟩ := out
    cases r with
    | ok payload =>
        have hreached := hfate.reached
        rw [hreached.1, hreached.2] at hfate
        obtain ⟨e, he⟩ := hfate.reports.fails hpec
        cases he
    | error e =>
        intro _ _ hreaches _ hreply
        rw [hreaches.1, hreaches.2] at hfate
        obtain ⟨status, he⟩ := hfate.reports.names_pec hpec hreply
        exact ⟨status, Except.error.inj he⟩

end Binding

/-! ## Through a routine -/

namespace Transaction

/-- The same transaction without a packet error code. -/
def withoutPec (tx : Transaction) : Transaction := { tx with pec := false }

@[simp]
theorem withoutPec_protocol (tx : Transaction) : tx.withoutPec.protocol = tx.protocol := rfl

@[simp]
theorem withoutPec_pec (tx : Transaction) : tx.withoutPec.pec = false := rfl

end Transaction

namespace Controller

variable {c : Controller}

theorem check_withoutPec (hc : c.check tx = .ok ()) : c.check tx.withoutPec = .ok () := by
  cases c with
  | ich c =>
      change c.check tx = .ok () at hc
      change c.check tx.withoutPec = .ok ()
      unfold Ich.check at hc ⊢
      dsimp only at hc
      split at hc
      · cases hc
      · rename_i hblock
        split at hc
        · cases hc
        · rename_i hproc
          rw [Transaction.withoutPec_protocol, if_neg hblock, if_neg hproc]
          simp
  | piix4 c =>
      change c.check tx = .ok () at hc
      change c.check tx.withoutPec = .ok ()
      unfold Piix4.check at hc ⊢
      dsimp only at hc
      split at hc
      · cases hc
      · rename_i hproc
        simp [hproc]

/-- The words of a delegated transaction have no place for the code. -/
theorem transfer_withoutPec (hd : c.info.transport = .delegated) :
    c.transfer tx.withoutPec = c.transfer tx := by
  cases c with
  | ich c =>
      change c.info.transport = .delegated at hd
      change c.transfer tx.withoutPec = c.transfer tx
      unfold Ich.transfer
      rw [hd]
      rfl
  | piix4 c =>
      change c.info.transport = .delegated at hd
      change c.transfer tx.withoutPec = c.transfer tx
      unfold Piix4.transfer
      rw [hd]
      rfl

end Controller

theorem Session.transfer_withoutPec {link : Link}
    (hd : link.controller.info.transport = .delegated) (hc : link.controller.check tx = .ok ()) :
    transfer link tx.withoutPec = transfer link tx := by
  have haccept : accept link tx.withoutPec = accept link tx := by
    unfold accept
    rw [hc, Controller.check_withoutPec hc]
    rfl
  unfold transfer
  rw [haccept, Controller.transfer_withoutPec hd]

/-! ## Sessions -/

namespace Bench

/-- A transaction of the user. -/
def transfer (w : Bench) (tx : Transaction) : Except Error Payload × Bench :=
  w.perform fun link => (Session.transfer link tx).run

/-- The bench with other slaves on its bus. -/
def facing (w : Bench) (segment : Segment) : Bench :=
  { w with machine := { w.machine with segment } }

theorem facing_has (w : Bench) (segment : Segment) (fault : Fault) :
    (w.facing segment).machine.has fault = w.machine.has fault := rfl

theorem facing_jammed (w : Bench) (segment : Segment) :
    (w.facing segment).machine.jammed = w.machine.jammed := rfl

end Bench

namespace Binding

variable {b : Binding} {w : Bench}

theorem Steady.facing (hw : b.Steady w) (segment : Segment) : b.Steady (w.facing segment) :=
  ⟨hw.1, hw.2.stands.trans (stands_aside _ _ _), hw.2.tidy.aside _ _, hw.2.faults, hw.2.lock⟩

end Binding

/-- A delegated transaction that wants a code is answered as if it wanted none, although every code
is wrong. -/
theorem wrong_code_accepted_intelSample : ∃ w : Bench, w.StartedOn intelSample.delegated {} ∧
    w.session.link.controller.info.capabilities.pec = true ∧
    let v := w.after [.inject .pecError]
    let tx := (Transaction.readByteData 0x50 2).withPec
    tx.validate = .ok () ∧ v.session.link.controller.check tx = .ok () ∧
      v.machine.has .pecError = true ∧ (v.machine.segment.execute tx.request).1.isSome = true ∧
      (v.transfer tx).1 = .ok (.byte 0x0C) := by
  have hrun : (Bench.started? intelSample.delegated).any (fun w =>
      let v := w.after [.inject .pecError]
      let tx := (Transaction.readByteData 0x50 2).withPec
      w.session.link.controller.info.capabilities.pec &&
        (v.session.link.controller.check tx).toOption == some () && v.machine.has .pecError &&
        (v.machine.segment.execute tx.request).1.isSome &&
        (v.transfer tx).1.toOption == some (.byte 0x0C)) = true := by
    rw [intelSample_eq]
    decide +kernel
  obtain ⟨w, hw, hrun⟩ := (Option.any_eq_true _ _).mp hrun
  simp only [Bool.and_eq_true, beq_iff_eq] at hrun
  obtain ⟨⟨⟨⟨hpec, hcheck⟩, herror⟩, hreply⟩, hresult⟩ := hrun
  exact ⟨w, Bench.startedOn_of_started hw, hpec, rfl, Bench.eq_ok_of_toOption hcheck, herror,
    hreply, Bench.eq_ok_of_toOption hresult⟩

/-- A session is brought up on an assembled machine. After any history, and whatever slaves are then
on the bus, no transaction through the registers that wants a packet error code succeeds while all
codes are wrong, and if nothing else is in its way, the code is what it fails for. Through a routine
it makes no difference that the code is wanted. -/
theorem wrong_code_reported_if_direct {p : Platform} (ha : p.Assembled) {config : Config}
    {w : Bench} (hw : w.StartedOn p config) (moves : List Move) (segment : Segment)
    (hpec : tx.pec = true) :
    let v := (w.after moves).facing segment
    (p.transport = .direct → v.machine.has .pecError = true →
      (∀ payload, (v.transfer tx).1 ≠ .ok payload) ∧
      (tx.validate = .ok () → v.session.link.controller.check tx = .ok () →
        config.ichPoll.retries ≠ 0 → v.machine.jammed = false →
        v.machine.has .lockContended = false → (segment.execute tx.request).1.isSome = true →
        ∃ status, (v.transfer tx).1 = .error (.bus tx.slave tx.protocol .pec status))) ∧
    (p.transport = .delegated → v.session.link.controller.check tx = .ok () →
      v.transfer tx = v.transfer tx.withoutPec) := by
  intro v
  obtain ⟨b, hsteady, rfl, hheld, -, hfollows, -, -⟩ := Binding.exists_steady ha.laid hw true
  have hv : b.Steady v := (hsteady.after (.inl hheld)).facing segment
  have htransport : b.link.controller.info.transport = b.machine.transport := b.fits.transport
  refine ⟨fun hd herror => ?_, fun hd hc => ?_⟩
  · have h := @Binding.completes_transfer_pecError tx _ _ _ v.session.memory hv.2
      (htransport.trans hd) hpec herror
    rw [← hv.1] at h
    have hr := v.completes_perform (Session.transfer · tx) h
    unfold Bench.transfer
    generalize v.perform (fun link => (Session.transfer link tx).run) = out at hr ⊢
    obtain ⟨e | payload, v'⟩ := out
    · refine ⟨nofun, fun hvalid hcheck hpoll hjam hfree hreply => ?_⟩
      rw [hv.1] at hcheck
      have hreaches : b.Reaches v.machine.faults :=
        Binding.reaches_of_check hfollows hcheck hpec hpoll hjam
      obtain ⟨status, he⟩ := hr ⟨hvalid, hcheck⟩ hreaches hfree hreply
      exact ⟨status, congrArg Except.error he⟩
    · exact hr.elim
  · refine Bench.perform_congr (congrArg ExceptT.run ?_)
    rw [hv.1] at hc ⊢
    exact (Session.transfer_withoutPec (htransport.trans hd) hc).symm

theorem wrong_code_reported_intelSample : ∃ w : Bench, w.StartedOn intelSample {} ∧
    ∃ status, (((w.after [.inject .pecError]).facing intelSample.segment).transfer
      (Transaction.readByteData 0x50 2).withPec).1 = .error (.bus 0x50 .byteData .pec status) := by
  let tx := (Transaction.readByteData 0x50 2).withPec
  have hrun : (Bench.started? intelSample).any (fun w =>
      let machine := (w.after [.inject .pecError]).machine
      (w.session.link.controller.check tx).toOption == some () && machine.has .pecError &&
        machine.jammed == false && machine.has .lockContended == false) = true := by
    rw [intelSample_eq]
    decide +kernel
  have hreply : (intelSample.segment.execute tx.request).1.isSome = true := by
    rw [intelSample_eq]
    decide +kernel
  obtain ⟨w, hw, hrun⟩ := (Option.any_eq_true _ _).mp hrun
  simp only [Bool.and_eq_true, beq_iff_eq] at hrun
  obtain ⟨⟨⟨hcheck, herror⟩, hjam⟩, hfree⟩ := hrun
  rw [← Bench.facing_has _ intelSample.segment] at herror hfree
  rw [← Bench.facing_jammed _ intelSample.segment] at hjam
  have hw := Bench.startedOn_of_started hw
  exact ⟨w, hw, ((wrong_code_reported_if_direct hosted_intelSample.assembled hw
    [.inject .pecError] intelSample.segment rfl).1 rfl herror).2 rfl
      (Bench.eq_ok_of_toOption hcheck) (by decide) hjam hfree hreply⟩

end DimmBus
