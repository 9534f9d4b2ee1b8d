import DimmBus.Controller.Piix4
import DimmBus.Proofs.HostData

/-!
# Transactions of a PIIX4-compatible host

There is no kill: a transaction that does not come to its end leaves the host in the middle of it,
and the next one is refused as long as it is.
-/

namespace DimmBus

open Access Attempt Platform

/-- The status shows nothing that cannot be cleared, and only a fault keeps the host busy. -/
structure Host.Clearable (h : Host) (jammed : Bool) : Prop where
  status : h.status &&& (Status.hostBusy ||| Status.inUse) = 0
  stalled : h.stalled = true → jammed = true

namespace Piix4

variable {c : Piix4} {p : Platform} {h : Host} {g : Segment} {k : Counters} {tx : Transaction}
  {bad : Error → Platform → Prop}

theorem read_status (hm : h.model = .piix4) (stuck held : Bool) :
    h.read stuck held HostRegister.status =
      (h.status ||| (if h.stalled || stuck then Status.hostBusy else 0), h) := by
  have hp : h.isPiix4 = true := by simp [Host.isPiix4, hm]
  simp only [Host.read, hp, if_true]

theorem read_status_idle {stuck : Bool} (hm : h.model = .piix4) (held : Bool)
    (hs : h.stalled = false) (hstuck : stuck = false) :
    h.read stuck held HostRegister.status = (h.status, h) := by
  rw [read_status hm, hs, hstuck]
  simp

/-- Writing a status back clears all of it that can be cleared. -/
theorem write_shown {status shown : UInt8} (hs : status &&& (Status.hostBusy ||| Status.inUse) = 0)
    (hshown : shown = status ∨ shown = status ||| Status.hostBusy) :
    h.status = status → h.write HostRegister.status shown = ({ h with status := 0 }, .none) := by
  intro hst
  have hall : ∀ status : UInt8, status &&& (Status.hostBusy ||| Status.inUse) = 0 →
      (status &&& ~~~(status &&& ~~~Status.hostBusy &&& ~~~Status.inUse) = 0 ∧
        hasAny status Status.inUse = false) ∧
      status &&& ~~~((status ||| Status.hostBusy) &&& ~~~Status.hostBusy &&& ~~~Status.inUse) = 0 ∧
        hasAny (status ||| Status.hostBusy) Status.inUse = false :=
    forall_byte (by decide +kernel)
  obtain ⟨⟨h₁, h₂⟩, h₃, h₄⟩ := hall status hs
  rw [Host.write_status, hst]
  obtain rfl | rfl := hshown
  · rw [h₁, h₂, Bool.not_false, Bool.and_true]
  · rw [h₃, h₄, Bool.not_false, Bool.and_true]

theorem ends_clearStatus {ok : Unit → Platform → Prop} (hx : p.Exposes .piix4 c.info.base)
    (hh : h.Is .piix4 c.info.base) (hc : h.Clearable p.jammed)
    (hok : ∀ k', k'.log = k.log → h.stalled = false → p.has .stuckBusy = false →
      ok () (p.put { h with status := 0 } g k'))
    (hbad : ∀ e k', k'.log = k.log → p.jammed = true →
      bad e (p.put { h with status := 0 } g k')) :
    Ends answer c.clearStatus (p.put h g k) ok bad := by
  have hread := read_status hh.1 (p.has .stuckBusy) (p.has .semaphoreHeld)
  rw [clearStatus, ends_bind]
  refine ends_readIo8 hx hh (by decide) hread hh ?_
  cases hbusy : h.stalled || p.has .stuckBusy with
  | true =>
      have hj : p.jammed = true := by
        obtain hs | hs := Bool.or_eq_true_iff.mp hbusy
        · exact hc.stalled hs
        · rw [jammed, hs, Bool.or_true]
      have hne : ∀ status : UInt8, ¬status ||| Status.hostBusy = 0 :=
        forall_byte (by decide +kernel)
      simp only [if_true]
      rw [if_neg (hne _), ends_bind]
      refine ends_writeIo8 hx hh (by decide) (write_shown hc.status (.inr rfl) rfl) hh ?_
      rw [ends_bind]
      have hread' := read_status (h := { h with status := 0 }) hh.1
      refine ends_readIo8 hx hh (by decide) (hread' ..) hh ?_
      simp only [hbusy, if_true]
      rw [if_neg (hne _)]
      exact hbad _ _ rfl hj
  | false =>
      obtain ⟨hs, hstuck⟩ := Bool.or_eq_false_iff.mp hbusy
      simp only [Bool.false_eq_true, if_false, UInt8.or_zero]
      split
      · rename_i hz
        have hk := hok k.called rfl hs hstuck
        rw [← hz] at hk
        exact hk
      · rw [ends_bind]
        refine ends_writeIo8 hx hh (by decide) (write_shown hc.status (.inl rfl) rfl) hh ?_
        rw [ends_bind]
        have hread' := read_status (h := { h with status := 0 }) hh.1
        refine ends_readIo8 hx hh (by decide) (hread' ..) hh ?_
        simp only [hbusy, Bool.false_eq_true, if_false]
        rw [if_pos (by decide)]
        exact hok _ rfl hs hstuck

/-- What the family can carry. -/
def Plain (tx : Transaction) : Prop :=
  tx.protocol ≠ .procCall ∧ tx.protocol ≠ .blockProcCall ∧ tx.pec = false

theorem plain_of_check (h : c.check tx = .ok ()) : Plain tx := by
  unfold check at h
  simp only at h
  split at h
  · cases h
  · rename_i hproc
    split at h
    · cases h
    · rename_i hpec
      exact ⟨fun hp => hproc (.inl hp), fun hp => hproc (.inr hp), by simpa using hpec⟩

theorem ends_loadCommand {ok : Unit → Platform → Prop} (hx : p.Exposes .piix4 c.info.base)
    (hh : h.Is .piix4 c.info.base)
    (hok : ∀ command k', k'.log = k.log → (tx.hasCommand → command = tx.command) →
      ok () (p.put { h with command } g k')) :
    Ends answer (c.loadCommand tx) (p.put h g k) ok bad := by
  obtain ⟨slave, direction, command, protocol, payload, pec⟩ := tx
  have hcommand : Ends answer (writeIo8 (c.register HostRegister.command) command) (p.put h g k)
      ok bad :=
    ends_writeIo8 hx hh (by decide) (Host.write_command ..) hh (hok _ _ rfl fun _ => rfl)
  unfold loadCommand
  cases protocol with
  | quick => exact hok h.command k rfl fun hc => by cases direction <;> cases hc
  | byte =>
      cases direction with
      | write => exact hcommand
      | read => exact hok h.command k rfl fun hc => by cases hc
  | byteData | wordData | procCall | blockData | blockProcCall => exact hcommand

theorem ends_program {ok : Unit → Platform → Prop} (hx : p.Exposes .piix4 c.info.base)
    (hh : h.Is .piix4 c.info.base) (hv : tx.validate = .ok ())
    (hok : ∀ h' k', k'.log = k.log → h'.Loaded tx → h'.Is .piix4 c.info.base →
      h'.status = h.status → h'.stalled = h.stalled → h'.slaveControl = h.slaveControl →
      ok () (p.put h' g k')) :
    Ends answer (c.program tx) (p.put h g k) ok bad := by
  simp only [program, ends_bind]
  refine ends_writeIo8 hx hh (by decide) (Host.write_address ..) hh ?_
  refine ends_loadCommand hx hh fun command k' hlog hc => ?_
  cases hp : tx.payload with
  | none =>
      refine hok _ k' hlog ⟨rfl, hc, ?_, ?_, ?_⟩ hh rfl rfl rfl <;>
        · intro value hd
          rw [hp] at hd
          cases hd
  | byte value =>
      refine ends_writeIo8 hx hh (by decide) (Host.write_data0 ..) hh ?_
      refine hok _ _ hlog ⟨rfl, hc, ?_, ?_, ?_⟩ hh rfl rfl rfl <;>
        · intro value hd
          rw [hp] at hd
          cases hd <;> rfl
  | word value =>
      refine ends_loadWord hx hh (hok _ _ hlog ⟨rfl, hc, ?_, ?_, ?_⟩ hh rfl rfl rfl) <;>
        · intro value hd
          rw [hp] at hd
          cases hd <;> exact ⟨rfl, rfl⟩
  | block data =>
      have hmax := (Transaction.length_of_validate hv hp).2
      refine ends_loadBlock hx hh hmax fun block n k'' htake hlog' => ?_
      refine hok _ k'' (hlog'.trans hlog) ⟨rfl, hc, ?_, ?_, ?_⟩ hh rfl rfl rfl
      · intro value hd; rw [hp] at hd; cases hd
      · intro value hd; rw [hp] at hd; cases hd
      · intro data' hd
        rw [hp] at hd
        cases hd
        exact ⟨rfl, hmax, htake⟩

/-! ## Running -/

/-- The control value that starts a transaction. -/
def startValue (tx : Transaction) : UInt8 := kind tx.protocol &&& ~~~Control.start ||| Control.start

theorem protocol_startValue (hm : h.model = .piix4) (ht : Plain tx)
    (hc : h.control = startValue tx) : h.protocol? = some tx.protocol := by
  obtain ⟨hproc, hblock, -⟩ := ht
  have hp : h.isPiix4 = true := by simp [Host.isPiix4, hm]
  unfold Host.protocol? startValue at *
  rw [hp, hc]
  cases hk : tx.protocol <;> first | decide | contradiction

theorem startValue_control (tx : Transaction) :
    (hasAny (kind tx.protocol) Control.kill = false ∧
      hasAny (kind tx.protocol) Control.start = false) ∧
      hasAny (startValue tx) Control.kill = false ∧
    hasAny (startValue tx) Control.start = true := by
  unfold startValue
  cases tx.protocol <;> decide

/-- The start bit is set on top of the kind of transaction. -/
theorem ends_start {ok : Unit → Platform → Prop} (hx : p.Exposes .piix4 c.info.base)
    (hh : h.Is .piix4 c.info.base) (hl : h.Loaded tx) (hv : tx.validate = .ok ()) (ht : Plain tx)
    (hjam : ∀ h' k', p.jammed = true → k'.log = k.log → h'.Is .piix4 c.info.base →
      h'.status = h.status → h'.stalled = true → h'.slaveControl = h.slaveControl →
      ok () (p.put h' g k'))
    (hrun : ∀ h' t k', p.jammed = false → k'.log = k.log.push t.entry → t.Carries tx → h.Kept h' →
      h'.status = h.status →
      ok () (p.put (h'.complete (p.has .pecError) (p.deliver true g t).1) (p.deliver true g t).2
        k')) :
    Ends answer (c.start tx) (p.put h g k) ok bad := by
  obtain ⟨⟨hkill, hstart⟩, hkill', hstart'⟩ := startValue_control tx
  have hkind : h.write HostRegister.control (kind tx.protocol) =
      ({ h with control := kind tx.protocol }, .none) := by
    rw [Host.write_control, Host.writeControl]
    simp only [hkill, hstart, Bool.false_eq_true, if_false]
  have hgo : { h with control := kind tx.protocol, blockIndex := 0 }.write HostRegister.control
      (startValue tx) = ({ h with control := startValue tx, blockIndex := 0 }, .start) := by
    rw [Host.write_control, Host.writeControl]
    simp only [hkill', hstart', Bool.false_eq_true, if_false, if_true]
  simp only [start, ends_bind]
  refine ends_writeIo8 hx hh (by decide) hkind hh ?_
  refine ends_readIo8 hx hh (by decide) (Host.read_control ..) hh ?_
  refine ends_writeIo8_event hx hh (by decide) hgo ?_
  rw [follow]
  have hm : { h with control := startValue tx, blockIndex := 0 }.model =
    { h with control := kind tx.protocol, blockIndex := 0 }.model := rfl
  cases hj : p.jammed with
  | true =>
      rw [start_jammed hm hj]
      exact ends_sleep (hjam _ _ hj rfl hh rfl rfl rfl)
  | false =>
      have hpi : { h with control := startValue tx, blockIndex := 0 }.isPiix4 = true := by
        simp [Host.isPiix4, hh.1]
      rw [start_put hm hj (protocol_startValue hh.1 ht rfl), hpi]
      refine ends_sleep (hrun _ _ _ hj rfl ?_ ⟨rfl, rfl, rfl, rfl, rfl, rfl⟩ rfl)
      exact Host.Loaded.carries ⟨hl.address, hl.command, hl.byte, hl.word, hl.block⟩
        (Transaction.slave_le_of_validate hv)

/-- A wait that is not rewarded leaves the host as busy as it was. -/
theorem ends_awaitWithin_stalled {ok : UInt8 → Platform → Prop} {n : Nat} {last : UInt8}
    (hx : p.Exposes .piix4 c.info.base) (hh : h.Is .piix4 c.info.base) (hs : h.stalled = true)
    (hst : h.status = 0) (hlast : hasAny last Status.inUse = false)
    (hbad : ∀ e k', k'.log = k.log → bad e (p.put h g k')) :
    Ends answer (c.awaitWithin n last) (p.put h g k) ok bad := by
  induction n generalizing k last with
  | zero =>
      have hwrite : h.write HostRegister.status last = (h, .none) := by
        rw [Host.write_status, hst, hlast, UInt8.zero_and, Bool.not_false, Bool.and_true, ← hst]
      rw [awaitWithin, ends_bind]
      exact ends_writeIo8 hx hh (by decide) hwrite hh (hbad _ _ rfl)
  | succ n ih =>
      have hread : ∀ stuck held, h.read stuck held HostRegister.status = (Status.hostBusy, h) := by
        intro stuck held
        rw [read_status hh.1, hs, hst]
        cases stuck <;> rfl
      simp only [awaitWithin, ends_bind]
      refine ends_sleep (ends_readIo8 hx hh (by decide) (hread ..) hh ?_)
      rw [if_neg (by decide)]
      exact ih (by decide) fun e k' hlog => hbad e k' hlog

/-- A host that has something to report is looked at once. -/
theorem ends_await {status : UInt8} {ok : UInt8 → Platform → Prop}
    (hx : p.Exposes .piix4 c.info.base) (hh : h.Is .piix4 c.info.base) (hn : c.poll.retries ≠ 0)
    (hs : h.stalled = false) (hstuck : p.has .stuckBusy = false) (hst : h.status = status)
    (hf : Status.isFinal status = true)
    (hok : ∀ k', k'.log = k.log → ok status (p.put h g k')) :
    Ends answer c.await (p.put h g k) ok bad := by
  have hread := read_status_idle hh.1 (p.has .semaphoreHeld) hs hstuck
  rw [hst] at hread
  obtain ⟨n, hn⟩ : ∃ n, c.poll.retries.toNat = n + 1 :=
    Nat.exists_eq_succ_of_ne_zero fun hz => hn (UInt32.toNat_inj.mp hz)
  unfold await
  rw [hn]
  simp only [awaitWithin, ends_bind]
  refine ends_sleep (ends_readIo8 hx hh (by decide) hread hh ?_)
  rw [if_pos hf]
  exact hok _ rfl

/-- The status that was looked at is written back, and read again. -/
theorem ends_acknowledge {status : UInt8} {ok : UInt8 → Platform → Prop}
    (hx : p.Exposes .piix4 c.info.base) (hh : h.Is .piix4 c.info.base) (hs : h.stalled = false)
    (hstuck : p.has .stuckBusy = false) (hst : h.status = status)
    (hclear : status &&& (Status.hostBusy ||| Status.inUse) = 0)
    (hok : ∀ k', k'.log = k.log → ok 0 (p.put { h with status := 0 } g k')) :
    Ends answer (writeIo8 (c.register HostRegister.status) status) (p.put h g k)
      (fun _ s => Ends answer (readIo8 (c.register HostRegister.status)) s ok bad) bad := by
  refine ends_writeIo8 hx hh (by decide) (write_shown hclear (.inl rfl) hst) hh ?_
  have hread := read_status_idle (h := { h with status := 0 }) hh.1 (p.has .semaphoreHeld) hs
    hstuck
  exact ends_readIo8 hx hh (by decide) hread hh (hok _ rfl)

theorem ends_conclude {Q : Except Error Payload → Platform → Prop} {reply? : Option Reply}
    (hx : p.Exposes .piix4 c.info.base) (hh : h.Is .piix4 c.info.base) (hst : h.status = 0)
    (hs : h.stalled = false) (hn : c.poll.retries ≠ 0) (hstuck : p.has .stuckBusy = false)
    (hpec : tx.pec = false)
    (hreply : ∀ reply, reply? = some reply → tx.callsLatch = false → tx.Expects reply)
    (hQ : ∀ r h' k', k'.log = k.log → h.Kept h' → h'.status = 0 →
      tx.Reported false reply? r → Q r (p.put h' g k')) :
    Ends answer (c.conclude tx) (p.put (h.complete (p.has .pecError) reply?) g k)
      (fun a => Q (.ok a)) (fun e => Q (.error e)) := by
  have hk := h.complete_kept (p.has .pecError) reply?
  have hh' := hk.is hh
  have hs' := hk.stalled.trans hs
  have hwants : (h.wantsPec && p.has .pecError) = false := by
    simp [Host.wantsPec, Host.isPiix4, hh.1]
  simp only [conclude, ends_bind]
  cases reply? with
  | none =>
      have hd := Host.complete_none hst (p.has .pecError)
      refine ends_await hx hh' hn hs' hstuck hd (by decide) fun k₁ hlog₁ => ?_
      refine ends_acknowledge hx hh' hs' hstuck hd (by decide) fun k₂ hlog₂ => ?_
      refine hQ _ _ _ (hlog₂.trans hlog₁) ⟨hk.model, hk.base, hk.auxControl, hk.slaveControl,
        hk.inUse, hk.stalled⟩ rfl ?_
      exact ⟨.nak, _, rfl, fun _ => rfl⟩
  | some reply =>
      obtain ⟨hd, hholds⟩ := Host.complete_reply hst reply hwants
      refine ends_await hx hh' hn hs' hstuck hd (by decide) fun k₁ hlog₁ => ?_
      refine ends_acknowledge hx hh' hs' hstuck hd (by decide) fun k₂ hlog₂ => ?_
      refine ends_collect_reply hx hh' (hholds tx) (hreply reply rfl) fun r n k₃ hlog₃ hr => ?_
      refine hQ r _ _ (hlog₃.trans (hlog₂.trans hlog₁)) ⟨hk.model, hk.base, hk.auxControl,
        hk.slaveControl, hk.inUse, hk.stalled⟩ rfl ?_
      rw [Transaction.Reported, if_neg (by rw [hpec]; decide)]
      exact hr

/-- A wait that is to look no single time fails, and writes nothing of effect. -/
theorem ends_conclude_unwatched {ok : Payload → Platform → Prop}
    (hx : p.Exposes .piix4 c.info.base) (hh : h.Is .piix4 c.info.base) (hn : c.poll.retries = 0)
    (hbad : ∀ e k', k'.log = k.log → bad e (p.put h g k')) :
    Ends answer (c.conclude tx) (p.put h g k) ok bad := by
  have hwrite : h.write HostRegister.status 0 = (h, .none) := by
    rw [Host.write_status]
    simp [hasAny]
  rw [conclude, ends_bind, await, hn, UInt32.toNat_zero, awaitWithin, ends_bind]
  exact ends_writeIo8 hx hh (by decide) hwrite hh (hbad _ _ rfl)

/-- What a transaction makes of the host and of the bus. -/
structure Settled (c : Piix4) (tx : Transaction) (jammed blocked : Bool) (h : Host) (g : Segment)
    (log : Array LoggedTransfer) (r : Except Error Payload) (h' : Host) (g' : Segment)
    (log' : Array LoggedTransfer) : Prop where
  is : h'.Is .piix4 c.info.base
  clearable : h'.Clearable jammed
  slaveControl : h'.slaveControl = h.slaveControl
  fate : tx.Fate blocked (c.poll.retries = 0) false g log r g' log'

theorem ends_transact {Q : Except Error Payload → Platform → Prop}
    (hx : p.Exposes .piix4 c.info.base) (hh : h.Is .piix4 c.info.base) (ht : Plain tx)
    (hv : tx.validate = .ok ()) (hc : h.Clearable p.jammed)
    (hQ : ∀ r h' g' k', Settled c tx p.jammed (p.blocked true) h g k.log r h' g' k'.log →
      Q r (p.put h' g' k')) :
    Ends answer (c.transact tx) (p.put h g k) (fun a => Q (.ok a)) (fun e => Q (.error e)) := by
  have hfits := Transaction.fits_of_validate hv
  rw [transact_eq]
  simp only [ends_bind]
  refine ends_clearStatus hx hh hc (fun k₁ hlog₁ hs₁ hstuck => ?_) fun e k₁ hlog₁ hj => ?_
  · refine ends_program hx hh hv fun h₂ k₂ hlog₂ hl₂ hh₂ hst₂ hs₂ hsc₂ => ?_
    refine ends_start hx hh₂ hl₂ hv ht (fun h₃ k₃ hj hlog₃ hh₃ hst₃ hs₃ hsc₃ => ?_)
      fun h₃ t k₃ hj hlog₃ hcarries hk₃ hst₃ => ?_
    · have hst : h₃.status = 0 := hst₃.trans hst₂
      rw [conclude, ends_bind]
      refine ends_awaitWithin_stalled hx hh₃ hs₃ hst (by decide) fun e k₄ hlog₄ => ?_
      exact hQ _ h₃ g k₄ ⟨hh₃, ⟨by rw [hst, UInt8.zero_and], fun _ => hj⟩, hsc₃.trans hsc₂,
        .refused _ _ (blocked_of_jammed true hj)⟩
    · have hst : h₃.status = 0 := hst₃.trans hst₂
      have hs : h₃.stalled = false := hk₃.stalled.trans (hs₂.trans hs₁)
      have hlog : k₃.log = k.log.push t.entry := by rw [hlog₃, hlog₂, hlog₁]
      have hsettled : ∀ r h₄ (k₄ : Counters), h₃.Kept h₄ →
          h₄.status &&& (Status.hostBusy ||| Status.inUse) = 0 → k₄.log = k₃.log →
          ((decide (c.poll.retries = 0)) = true → ∃ e, r = .error e) →
          ((decide (c.poll.retries = 0)) = false → tx.Reported false (p.deliver true g t).1 r) →
          Settled c tx p.jammed (p.blocked true) h g k.log r h₄ (p.deliver true g t).2 k₄.log := by
        intro r h₄ k₄ hk₄ hst₄ hlog₄ hlate hr
        refine ⟨hk₄.is (hk₃.is hh₂), ⟨hst₄, fun hs₄ => ?_⟩,
          hk₄.slaveControl.trans (hk₃.slaveControl.trans hsc₂), ?_⟩
        · cases (hk₄.stalled.trans hs).symm.trans hs₄
        · rw [hlog₄, hlog]
          exact fate_of_delivered hfits hcarries hj hlate hr
      by_cases hn : c.poll.retries = 0
      · have hk := h₃.complete_kept (p.has .pecError) (p.deliver true g t).1
        have hz : (h₃.complete (p.has .pecError) (p.deliver true g t).1).status &&&
            (Status.hostBusy ||| Status.inUse) = 0 := by
          obtain hd | hd := Host.complete_status hst (p.has .pecError) (p.deliver true g t).1 <;>
            rw [hd] <;> decide
        refine ends_conclude_unwatched hx (hk.is (hk₃.is hh₂)) hn fun e k₄ hlog₄ => ?_
        exact hQ _ _ _ _ (hsettled _ _ _ hk hz hlog₄ (fun _ => ⟨_, rfl⟩)
          fun hz => absurd hn (of_decide_eq_false hz))
      · refine ends_conclude hx (hk₃.is hh₂) hst hs hn hstuck ht.2.2
          (fun reply hr hl => deliver_expected hfits hcarries hr hl)
          fun r h₄ k₄ hlog₄ hk₄ hst₄ hr => ?_
        exact hQ r h₄ _ k₄ (hsettled r h₄ k₄ hk₄ (by rw [hst₄, UInt8.zero_and]) hlog₄
          (fun hz => absurd (of_decide_eq_true hz) hn) fun _ => hr)
  · exact hQ _ _ g k₁ ⟨hh, ⟨by simp only [UInt8.zero_and], hc.stalled⟩, rfl,
      .refused _ _ (blocked_of_jammed true hj)⟩

end Piix4

end DimmBus
