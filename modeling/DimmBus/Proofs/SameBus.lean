import DimmBus.Proofs.Hosted

/-!
# One bus behind every controller

Whatever the host, the transport and the past of a machine, a transaction does to the slaves what
its operation does on the bare bus, and hands up the reply of that operation.
-/

namespace DimmBus

open Access Attempt Platform

/-! ## The bare bus -/

/-- What a transaction comes to, given the reply of the bus and the status that the host shows. -/
def Transaction.result (tx : Transaction) (status : UInt8) : Option Reply → Except Error Payload
  | none => .error (.bus tx.slave tx.protocol .nak status)
  | some reply => .ok reply.payload

/-- What transactions come to one after another on a bus that has no host and no status. -/
def Segment.executeAll (g : Segment) : List Transaction → List (Except Error Payload) × Segment
  | [] => ([], g)
  | tx :: txs =>
    let (reply?, g) := g.execute tx.request
    let (results, g) := g.executeAll txs
    (tx.result 0 reply? :: results, g)

/-- The failure without the status that the host showed. -/
def Error.withoutStatus : Error → Error
  | .bus slave protocol fault _ => .bus slave protocol fault 0
  | e => e

theorem Transaction.result_withoutStatus (tx : Transaction) (status : UInt8)
    (reply? : Option Reply) :
    (tx.result status reply?).mapError Error.withoutStatus = tx.result 0 reply? := by
  cases reply? <;> rfl

theorem Transaction.Reported.exists_result {tx : Transaction} {reply? : Option Reply}
    {r : Except Error Payload} (h : tx.Reported false reply? r) (hpec : tx.pec = false)
    (hlatch : tx.callsLatch = false) : ∃ status, r = tx.result status reply? := by
  cases reply? with
  | none =>
      obtain ⟨fault, status, rfl, hfault⟩ := h
      exact ⟨status, by rw [hfault hpec]; rfl⟩
  | some reply =>
      rw [Reported, hpec, Bool.false_and, if_neg Bool.false_ne_true] at h
      exact ⟨0, h hlatch⟩

/-! ## Machines in use -/

/-- The states of a machine between two transactions: after transactions of any controllers that
were brought up on it, under any faults, with any slaves and whether the lock is held or not. -/
inductive Platform.Reached (p : Platform) : Platform → Prop
  | broughtUp (config : Config) :
      Reached p ((Controller.probe p.transport config).run answer p).2
  | transferred {q : Platform} (hq : Reached p q) {c : Controller} {config : Config}
      (hc : ((Controller.probe p.transport config).run answer p).1 = some c) {tx : Transaction}
      (hv : tx.validate = .ok ()) (hcheck : c.check tx = .ok ()) :
      Reached p ((c.transfer tx).run.run answer q).2
  | inject {q : Platform} (hq : Reached p q) (fault : Fault) : Reached p (q.inject fault)
  | clearFaults {q : Platform} (hq : Reached p q) : Reached p q.clearFaults
  | aside {q : Platform} (hq : Reached p q) (segment : Segment) (lockHeld : Bool) :
      Reached p { q with segment, lockHeld }

namespace Controller

variable {c : Controller} {p q : Platform} {config : Config} {tx : Transaction}
  {txs : List Transaction}

theorem fits_of_probe (hl : p.Laid)
    (hc : ((probe p.transport config).run answer p).1 = some c) :
    c.Fits p ∧ c.Follows config := by
  have h := probe_ends config
    (Q := fun c? _ => ∀ c, c? = some c → c.Fits p ∧ c.Follows config) hl
    (fun c' _ hfits hfollows _ c he => by
      cases he
      exact ⟨hfits, hfollows⟩)
    fun _ _ _ _ c he => by cases he
  exact h c hc

end Controller

/-- What stands of the machine, and that it is left tidy, survives everything. -/
theorem Platform.Reached.stands {p q : Platform} (hl : p.Laid) (hq : p.Reached q) :
    p.Stands q ∧ q.Tidy true := by
  induction hq with
  | broughtUp config =>
      refine Controller.probe_ends config
        (Q := fun _ q => p.Stands q ∧ q.Tidy true) hl (fun _ _ _ _ hu => ?_) fun _ hu _ _ => ?_
      · exact ⟨hu.stands, (hl.tidy true).untouched hu⟩
      · exact ⟨hu.stands, (hl.tidy true).untouched hu⟩
  | @transferred q _ c config hc tx hv hcheck ih =>
      obtain ⟨hs, ht⟩ := ih
      have hfits := (Controller.fits_of_probe hl hc).1
      have h := Controller.handled (hl.wired.stands hs) (hfits.stands hs) ht hv hcheck
      exact ⟨hs.trans h.stands, h.tidy⟩
  | inject _ fault ih => exact ⟨ih.1.trans (stands_inject _ _), ih.2.inject (.inl rfl)⟩
  | clearFaults _ ih => exact ⟨ih.1.trans (stands_clearFaults _), ih.2.clearFaults⟩
  | aside _ segment lockHeld ih =>
      exact ⟨ih.1.trans (stands_aside _ _ _), ih.2.aside segment lockHeld⟩

namespace Controller

variable {c : Controller} {p q : Platform} {config : Config} {tx : Transaction}
  {txs : List Transaction}

/-- The controller is in use on a machine that has no faults: it was brought up there, looks for the
end of a transaction at least once, and has the modules at its output of the multiplexer. -/
structure Serves (c : Controller) (q : Platform) : Prop where
  faults : q.faults = []
  inUse : ∃ p config, p.Assembled ∧ ((probe p.transport config).run answer p).1 = some c ∧
    (config.poll c.family).retries ≠ 0 ∧ (c.family = .piix4 → config.piix4Port = 0) ∧ p.Reached q

/-- A transaction that the controller takes, without a packet error code, and that does not wait for
an answer of the page latches. -/
structure Takes (c : Controller) (tx : Transaction) : Prop where
  valid : tx.validate = .ok ()
  checked : c.check tx = .ok ()
  pec : tx.pec = false
  latch : tx.callsLatch = false

/-- Runs transactions one after another. -/
def transferAll (c : Controller) : List Transaction → Access (List (Except Error Payload))
  | [] => return []
  | tx :: txs => do
    let result ← (c.transfer tx).run
    let results ← c.transferAll txs
    return result :: results

/-- A transaction is answered by the bus, and the controller stays in use. -/
theorem Serves.transfer (hs : c.Serves q) (ht : c.Takes tx) :
    (∃ status, ((c.transfer tx).run.run answer q).1 =
      tx.result status (q.segment.execute tx.request).1) ∧
    ((c.transfer tx).run.run answer q).2.segment = (q.segment.execute tx.request).2 ∧
    c.Serves ((c.transfer tx).run.run answer q).2 := by
  obtain ⟨hfaults, p, config, ha, hc, hpoll, hport, hreached⟩ := hs
  have hl := ha.laid
  obtain ⟨hfits, hfollows⟩ := fits_of_probe hl hc
  obtain ⟨hstands, htidy⟩ := hreached.stands hl
  have hwired := hl.wired.stands hstands
  have h := handled hwired (hfits.stands hstands) htidy ht.valid ht.checked
  have hanswered := h.answered hwired hfaults (hfollows.attends hpoll hport)
  refine ⟨hanswered.reported.exists_result ht.pec ht.latch, hanswered.segment, ?_⟩
  exact ⟨h.faults.trans hfaults, p, config, ha, hc, hpoll, hport,
    .transferred hreached hc ht.valid ht.checked⟩

/-- So is any number of them. -/
theorem Serves.transferAll (hs : c.Serves q) (ht : ∀ tx ∈ txs, c.Takes tx) :
    ((c.transferAll txs).run answer q).1.map (·.mapError Error.withoutStatus) =
        (q.segment.executeAll txs).1 ∧
      ((c.transferAll txs).run answer q).2.segment = (q.segment.executeAll txs).2 := by
  induction txs generalizing q with
  | nil => exact ⟨rfl, rfl⟩
  | cons tx txs ih =>
      obtain ⟨⟨status, hresult⟩, hsegment, hnext⟩ := hs.transfer (ht tx List.mem_cons_self)
      obtain ⟨hresults, hend⟩ := ih hnext fun tx' hm => ht tx' (List.mem_cons_of_mem _ hm)
      rw [hsegment] at hresults hend
      simp only [Controller.transferAll, Access.run_bind, Segment.executeAll]
      refine ⟨?_, hend⟩
      rw [← hresults, ← Transaction.result_withoutStatus tx status, ← hresult]
      rfl

end Controller

/-- Bring-up finds a controller on every machine with a host of a known part. In whatever state
earlier transactions have left its machine, a controller in use does to the slaves what the bare bus
does, and hands up its reply. Whatever the slaves, all controllers give the same results for the
same transactions, and leave the same behind. -/
theorem controllers_execute_alike :
    (∀ family p config, p.Hosted family → (family = .piix4 → config.piix4Port = 0) →
      ∃ c : Controller, c.family = family ∧ c.info.transport = p.transport ∧
        ((Controller.probe p.transport config).run answer p).1 = some c ∧
        ((config.poll family).retries ≠ 0 → ∀ g : Segment, ∃ q, c.Serves q ∧ q.segment = g)) ∧
    (∀ (c : Controller) q tx (t : Transfer), c.Serves q → c.Takes tx → t.Carries tx →
      (∃ status, ((c.transfer tx).run.run answer q).1 =
        tx.result status (q.segment.execute t).1) ∧
      ((c.transfer tx).run.run answer q).2.segment = (q.segment.execute t).2 ∧
      c.Serves ((c.transfer tx).run.run answer q).2) ∧
    (∀ (c c' : Controller) q q' txs, c.Serves q → c'.Serves q' → q.segment = q'.segment →
      (∀ tx ∈ txs, c.Takes tx ∧ c'.Takes tx) →
      ((c.transferAll txs).run answer q).1.map (·.mapError Error.withoutStatus) =
          ((c'.transferAll txs).run answer q').1.map (·.mapError Error.withoutStatus) ∧
        ((c.transferAll txs).run answer q).2.segment =
          ((c'.transferAll txs).run answer q').2.segment) := by
  refine ⟨fun family p config hp hport => ?_, fun c q tx t hs ht hcarries => ?_,
    fun c c' q q' txs hs hs' hg ht => ?_⟩
  · obtain ⟨c, hc, hfits, rfl⟩ := Controller.probe_of_hosted hp hport
    refine ⟨c, rfl, hfits.transport, hc, fun hpoll g => ?_⟩
    let up := ((Controller.probe p.transport config).run answer p).2
    refine ⟨{ up.clearFaults with segment := g, lockHeld := false }, ⟨rfl, p, config,
      hp.assembled, hc, hpoll, hport, .aside (.clearFaults (.broughtUp config)) g false⟩, rfl⟩
  · rw [Segment.execute_congr _ (Transaction.fits_of_validate ht.valid) hcarries]
    exact hs.transfer ht
  · obtain ⟨hresults, hend⟩ := hs.transferAll fun tx hm => (ht tx hm).1
    obtain ⟨hresults', hend'⟩ := hs'.transferAll fun tx hm => (ht tx hm).2
    rw [hresults, hresults', hend, hend', hg]
    exact ⟨rfl, rfl⟩

theorem controllers_execute_alike_samples :
    ∃ (c c' : Controller) (q q' : Platform), c.info.transport = .direct ∧
      c'.info.transport = .delegated ∧ q.segment = intelSample.segment ∧
      q'.segment = intelSample.segment ∧
      let txs : List Transaction :=
        [.readByteData 0x50 2, .readWordData 0x18 5, .readByteData 0x57 0]
      ((c.transferAll txs).run answer q).1.map (·.mapError Error.withoutStatus) =
        ((c'.transferAll txs).run answer q').1.map (·.mapError Error.withoutStatus) := by
  obtain ⟨hup, -, hsame⟩ := controllers_execute_alike
  obtain ⟨c, -, htransport, -, hserves⟩ := hup _ _ {} hosted_intelSample fun _ => rfl
  obtain ⟨c', -, htransport', -, hserves'⟩ := hup _ _ {} hosted_amdSample.delegated fun _ => rfl
  obtain ⟨q, hq, hg⟩ := hserves (by decide) intelSample.segment
  obtain ⟨q', hq', hg'⟩ := hserves' (by decide) intelSample.segment
  refine ⟨c, c', q, q', htransport, htransport', hg, hg', ?_⟩
  refine (hsame c c' q q' _ hq hq' (hg.trans hg'.symm) fun tx hm => ?_).1
  have hplain : Binding.Plain tx := by
    simp only [List.mem_cons, List.not_mem_nil, or_false] at hm
    obtain rfl | rfl | rfl := hm <;> exact ⟨rfl, by decide, rfl⟩
  have hlatch := Binding.callsLatch_of_plain hplain
  exact ⟨⟨hplain.valid, Binding.check_of_plain c hplain, hplain.pec, hlatch⟩,
    ⟨hplain.valid, Binding.check_of_plain c' hplain, hplain.pec, hlatch⟩⟩

end DimmBus
