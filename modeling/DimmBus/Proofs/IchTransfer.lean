import DimmBus.Controller.Ich
import DimmBus.Proofs.HostData

/-!
# Transactions of an Intel host

From a host at rest a transaction ends with the host at rest, whatever faults are switched on.
Unless a fault keeps it from the bus, the bus executes its operation.
-/

namespace DimmBus

open Access Attempt Platform

/-- Nothing is going on in an Intel host, and nothing is left over. -/
structure Host.AtRest (h : Host) : Prop where
  status : h.status = 0
  inUse : h.inUse = false
  stalled : h.stalled = false
  auxControl : h.auxControl = 0

namespace Ich

variable {c : Ich} {p : Platform} {h : Host} {g : Segment} {k : Counters} {f : Features}
  {tx : Transaction} {bad : Error → Platform → Prop}

/-! ## Loading -/

theorem ends_loadCommand {ok : Unit → Platform → Prop} (hx : p.Exposes (.ich f) c.info.base)
    (hh : h.Is (.ich f) c.info.base) (hf : tx.fits = true)
    (hok : ∀ command data0 data1 k', k'.log = k.log →
      (tx.hasCommand → command = tx.command) →
      (∀ value, tx.payload = .byte value → data0 = value) →
      (∀ value, tx.payload = .word value →
        data0 = LittleEndian.low value ∧ data1 = LittleEndian.high value) →
      ok () (p.put { h with command, data0, data1 } g k')) :
    Ends answer (c.loadCommand tx) (p.put h g k) ok bad := by
  obtain ⟨slave, direction, command, protocol, payload, pec⟩ := tx
  have hcommand : ∀ {ok : Unit → Platform → Prop},
      ok () (p.put { h with command } g k.called) →
      Ends answer (writeIo8 (c.register HostRegister.command) command) (p.put h g k) ok bad :=
    fun hok => ends_writeIo8 hx hh (by decide) (Host.write_command ..) hh hok
  have hdone := hok command h.data0 h.data1 k.called rfl (fun _ => rfl)
  unfold loadCommand
  cases protocol <;> cases direction <;> cases payload <;>
    simp only [Transaction.fits, Bool.false_eq_true] at hf
  case quick.write.none | quick.read.none | byte.read.none =>
    exact hok h.command h.data0 h.data1 k rfl (fun hc => by cases hc) (fun _ hv => by cases hv)
      (fun _ hv => by cases hv)
  case byte.write.none | blockData.read.none | blockData.write.block | blockProcCall.write.block =>
    exact hcommand (hdone (fun _ hv => by cases hv) (fun _ hv => by cases hv))
  case byteData.read.none | wordData.read.none =>
    rw [ends_bind]
    exact hcommand (hdone (fun _ hv => by cases hv) (fun _ hv => by cases hv))
  case byteData.write.byte value =>
    rw [ends_bind]
    refine hcommand (ends_writeIo8 hx hh (by decide) (Host.write_data0 ..) hh ?_)
    exact hok command value h.data1 _ rfl (fun _ => rfl) (fun _ hv => by cases hv; rfl)
      (fun _ hv => by cases hv)
  case wordData.write.word value | procCall.write.word value =>
    rw [ends_bind]
    refine hcommand (ends_loadWord hx hh ?_)
    exact hok command _ _ _ rfl (fun _ => rfl) (fun _ hv => by cases hv)
      (fun _ hv => by cases hv; exact ⟨rfl, rfl⟩)

/-- The part has all that a transaction needs. -/
def Features.Carry (f : Features) (tx : Transaction) : Prop :=
  (tx.protocol.isBlock = true → f.blockBuffer = true) ∧ (tx.pec = true → f.pec = true)

theorem carry_of_check (hc : c.info.capabilities = capabilities f)
    (hf : f.blockProcCall = true → f.blockBuffer = true) (h : c.check tx = .ok ()) :
    f.Carry tx := by
  unfold check at h
  simp only [hc, capabilities] at h
  split at h
  · cases h
  · rename_i hblock
    split at h
    · cases h
    · rename_i hproc
      split at h
      · cases h
      · rename_i hpec
        refine ⟨fun hb => ?_, fun hp => by simpa [hp] using hpec⟩
        cases hp : tx.protocol <;> simp_all [Protocol.isBlock]

theorem auxFor_masked (hf : f.Carry tx) : auxFor tx &&& Host.auxMask (.ich f) = auxFor tx := by
  obtain ⟨hblock, hpec⟩ := hf
  unfold auxFor Host.auxMask
  cases hb : tx.protocol.isBlock <;> cases hp : tx.pec <;> cases hfb : f.blockBuffer <;>
    cases hfp : f.pec <;> simp_all <;> decide

theorem auxFor_block (hb : tx.protocol.isBlock = true) :
    hasAny (auxFor tx) AuxControl.blockBuffer = true := by
  unfold auxFor
  cases tx.pec <;> simp only [hb] <;> decide

theorem ends_enableAux {ok : Unit → Platform → Prop} (hx : p.Exposes (.ich f) c.info.base)
    (hh : h.Is (.ich f) c.info.base) (hf : f.Carry tx) (ha : h.auxControl = 0)
    (hok : ∀ k', k'.log = k.log → ok () (p.put { h with auxControl := auxFor tx } g k')) :
    Ends answer (c.enableAux tx (auxFor tx)) (p.put h g k) ok bad := by
  have hset : (0 ||| auxFor tx) &&& Host.auxMask h.model = auxFor tx := by
    rw [hh.1, UInt8.zero_or, auxFor_masked hf]
  unfold enableAux
  split
  · simp only [ends_bind]
    refine ends_readIo8 hx hh (by decide) (Host.read_auxControl ..) hh ?_
    refine ends_writeIo8 hx hh (by decide) (Host.write_auxControl ..) hh ?_
    rw [ha, hset]
    split
    · rename_i hb
      rw [ends_bind]
      refine ends_readIo8 hx hh (by decide) (Host.read_auxControl ..) hh ?_
      rw [if_pos (auxFor_block hb)]
      exact hok _ rfl
    · exact hok _ rfl
  · rename_i hz
    have hz : auxFor tx = 0 := by simpa using hz
    have hk := hok k rfl
    rw [hz, ← ha] at hk
    exact hk

theorem ends_program {ok : Unit → Platform → Prop} (hx : p.Exposes (.ich f) c.info.base)
    (hh : h.Is (.ich f) c.info.base) (hf : f.Carry tx) (hv : tx.validate = .ok ())
    (ha : h.auxControl = 0)
    (hok : ∀ h' k', k'.log = k.log → h'.Loaded tx → h'.Is (.ich f) c.info.base →
      h'.status = h.status → h'.stalled = h.stalled → h'.inUse = h.inUse →
      h'.auxControl = auxFor tx → ok () (p.put h' g k')) :
    Ends answer (c.program tx) (p.put h g k) ok bad := by
  have hfits := Transaction.fits_of_validate hv
  simp only [program, ends_bind]
  refine ends_writeIo8 hx hh (by decide) (Host.write_address ..) hh ?_
  refine ends_loadCommand hx hh hfits fun command data0 data1 k' hlog hc hb hw => ?_
  refine ends_enableAux hx hh hf ha fun k' hlog' => ?_
  have hk := hlog'.trans hlog
  cases hp : tx.payload with
  | none | byte _ | word _ =>
      refine hok _ k' hk ⟨rfl, hc, hb, hw, ?_⟩ hh rfl rfl rfl rfl
      intro data hd
      rw [hp] at hd
      cases hd
  | block data =>
      have hmax := (Transaction.length_of_validate hv hp).2
      refine ends_loadBlock hx hh hmax fun block n k'' htake hlog'' => ?_
      refine hok _ k'' (hlog''.trans hk) ⟨rfl, hc, ?_, ?_, ?_⟩ hh rfl rfl rfl rfl
      · intro value hd; rw [hp] at hd; cases hd
      · intro value hd; rw [hp] at hd; cases hd
      · intro data' hd
        rw [hp] at hd
        cases hd
        exact ⟨rfl, hmax, htake⟩

/-! ## Running -/

theorem startValue_control (tx : Transaction) :
    hasAny (startValue tx) Control.kill = false ∧ hasAny (startValue tx) Control.start = true := by
  unfold startValue
  cases tx.protocol <;> cases tx.pec <;> decide

theorem protocol_startValue (hm : h.model = .ich f) (hc : h.control = startValue tx) :
    h.protocol? = some tx.protocol := by
  have hp : h.isPiix4 = false := by simp [Host.isPiix4, hm]
  unfold Host.protocol? startValue at *
  rw [hp, hc]
  cases tx.protocol <;> cases tx.pec <;> decide

theorem wantsPec_startValue (hm : h.model = .ich f) (hc : h.control = startValue tx) :
    h.wantsPec = tx.pec := by
  have hp : h.isPiix4 = false := by simp [Host.isPiix4, hm]
  unfold Host.wantsPec startValue at *
  rw [hp, hc]
  cases tx.protocol <;> cases tx.pec <;> decide

/-- What a status read shows of an Intel host, and what it sets. -/
theorem read_status (hm : h.model = .ich f) (stuck held : Bool) :
    h.read stuck held HostRegister.status =
      (h.status ||| (if h.stalled || stuck then Status.hostBusy else 0) |||
        (if h.inUse then Status.inUse else 0), { h with inUse := true }) := by
  have hp : h.isPiix4 = false := by simp [Host.isPiix4, hm]
  simp only [Host.read, hp, if_true]
  rfl

/-- A stalled host is looked at until the budget is used up. -/
theorem ends_awaitWithin_stalled {ok : UInt8 → Platform → Prop} {n : Nat}
    (hx : p.Exposes (.ich f) c.info.base) (hh : h.Is (.ich f) c.info.base) (hs : h.stalled = true)
    (hst : h.status = 0) (hu : h.inUse = true)
    (hbad : ∀ k', k'.log = k.log → bad (.timeout c.poll.retries c.poll.quantumUs) (p.put h g k')) :
    Ends answer (c.awaitWithin n) (p.put h g k) ok bad := by
  have hread : ∀ stuck held, h.read stuck held HostRegister.status =
      (Status.hostBusy ||| Status.inUse, h) := by
    intro stuck held
    have hn : { h with inUse := true } = h := by rw [← hu]
    rw [read_status hh.1, hn, hs, hst, hu]
    cases stuck <;> rfl
  induction n generalizing k with
  | zero => exact hbad k rfl
  | succ n ih =>
      simp only [awaitWithin, ends_bind]
      refine ends_sleep (ends_readIo8 hx hh (by decide) (hread ..) hh ?_)
      rw [if_neg (by decide)]
      exact ih fun k' hlog => hbad k' hlog

/-- A host that has something to report is looked at once. -/
theorem ends_await {status : UInt8} {ok : UInt8 → Platform → Prop}
    (hx : p.Exposes (.ich f) c.info.base) (hh : h.Is (.ich f) c.info.base)
    (hn : c.poll.retries ≠ 0) (hs : h.stalled = false) (hstuck : p.has .stuckBusy = false)
    (hu : h.inUse = true) (hst : h.status = status)
    (hf : Status.isFinal (status ||| Status.inUse) = true)
    (hok : ∀ k', k'.log = k.log → ok (status ||| Status.inUse) (p.put h g k')) :
    Ends answer c.await (p.put h g k) ok bad := by
  have hread : h.read (p.has .stuckBusy) (p.has .semaphoreHeld) HostRegister.status =
      (status ||| Status.inUse, h) := by
    have hn : { h with inUse := true } = h := by rw [← hu]
    rw [read_status hh.1, hn, hs, hstuck, hu, hst]
    simp
  obtain ⟨n, hn⟩ : ∃ n, c.poll.retries.toNat = n + 1 :=
    Nat.exists_eq_succ_of_ne_zero fun hz => hn (UInt32.toNat_inj.mp hz)
  unfold await
  rw [hn]
  simp only [awaitWithin, ends_bind]
  refine ends_sleep (ends_readIo8 hx hh (by decide) hread hh ?_)
  rw [if_pos hf]
  exact hok _ rfl

/-- What a transaction leaves in a host before the host is tidied up. -/
structure Spent (c : Ich) (f : Features) (aux : UInt8) (r : Except Error Payload) (h : Host) :
    Prop where
  is : h.Is (.ich f) c.info.base
  status : h.status &&& ~~~Status.flags = 0
  auxControl : h.auxControl = aux
  stalled : h.stalled = true → ∃ retries quantumUs, r = .error (.timeout retries quantumUs)

/-- A device error is a wrong packet error code where one was asked for and found wrong, and
otherwise a missing acknowledgement. -/
theorem ends_checkStatus_device {ok : Unit → Platform → Prop}
    (hx : p.Exposes (.ich f) c.info.base) (hh : h.Is (.ich f) c.info.base)
    (hbad : ∀ fault status auxStatus k', k'.log = k.log → (tx.pec = false → fault = .nak) →
      (tx.pec = true → hasAny h.auxStatus crcError = true → fault = .pec) →
      bad (.bus tx.slave tx.protocol fault status) (p.put { h with auxStatus } g k')) :
    Ends answer (c.checkStatus tx (Status.deviceError ||| Status.inUse)) (p.put h g k) ok bad := by
  unfold checkStatus
  rw [if_neg (by decide), if_pos (by decide), ends_bind]
  unfold deviceFault
  split
  · rename_i hpec
    rw [ends_bind]
    refine ends_readIo8 hx hh (by decide) (Host.read_auxStatus ..) hh ?_
    split
    · rw [ends_bind]
      refine ends_writeIo8 hx hh (by decide) (Host.write_auxStatus ..) hh ?_
      exact hbad .pec _ _ _ rfl (by simp [hpec]) fun _ _ => rfl
    · rename_i hcrc
      exact hbad .nak _ h.auxStatus _ rfl (fun _ => rfl) fun _ h => absurd h hcrc
  · rename_i hpec
    exact hbad .nak _ h.auxStatus _ rfl (fun _ => rfl) fun h => absurd h hpec

section Finish

variable {Q : Except Error Payload → Platform → Prop}

theorem spent_of_idle {r : Except Error Payload} (hh : h.Is (.ich f) c.info.base)
    (hst : h.status &&& ~~~Status.flags = 0) (hs : h.stalled = false) :
    Spent c f h.auxControl r h :=
  ⟨hh, hst, rfl, fun ht => by cases hs.symm.trans ht⟩

/-- A host that shows a device error is looked at once and reported. -/
theorem ends_finish_device (hx : p.Exposes (.ich f) c.info.base)
    (hh : h.Is (.ich f) c.info.base) (hst : h.status = Status.deviceError)
    (hs : h.stalled = false) (hu : h.inUse = true) (hn : c.poll.retries ≠ 0)
    (hstuck : p.has .stuckBusy = false)
    (hQ : ∀ fault status h' k', k'.log = k.log → (∀ r, Spent c f h.auxControl r h') →
      (tx.pec = false → fault = .nak) →
      (tx.pec = true → hasAny h.auxStatus crcError = true → fault = .pec) →
      Q (.error (.bus tx.slave tx.protocol fault status)) (p.put h' g k')) :
    Ends answer (c.finish tx) (p.put h g k) (fun a => Q (.ok a)) (fun e => Q (.error e)) := by
  simp only [finish, ends_bind]
  refine ends_await hx hh hn hs hstuck hu hst (by decide) fun k₁ hlog₁ => ?_
  refine ends_checkStatus_device hx hh fun fault status aux k₂ hlog₂ hnak hpec => ?_
  refine hQ fault status _ k₂ (hlog₂.trans hlog₁) (fun r => ?_) hnak hpec
  refine spent_of_idle (h := { h with auxStatus := aux }) hh ?_ hs
  simp only [hst]
  decide

/-- A host that brings a reply is looked at once, and the reply collected. -/
theorem ends_finish_reply {reply : Reply} (hx : p.Exposes (.ich f) c.info.base)
    (hh : h.Is (.ich f) c.info.base) (hst : h.status = Status.interrupt)
    (hs : h.stalled = false) (hu : h.inUse = true) (hn : c.poll.retries ≠ 0)
    (hstuck : p.has .stuckBusy = false) (hholds : tx.Expects reply → h.Holds reply)
    (hreply : tx.callsLatch = false → tx.Expects reply)
    (hQ : ∀ r h' k', k'.log = k.log → Spent c f h.auxControl r h' →
      (tx.callsLatch = false → r = .ok reply.payload) → Q r (p.put h' g k')) :
    Ends answer (c.finish tx) (p.put h g k) (fun a => Q (.ok a)) (fun e => Q (.error e)) := by
  have hcheck : c.checkStatus tx (Status.interrupt ||| Status.inUse) = pure () := by
    unfold checkStatus
    rw [if_neg (by decide), if_neg (by decide), if_neg (by decide)]
  simp only [finish, ends_bind]
  refine ends_await hx hh hn hs hstuck hu hst (by decide) fun k₁ hlog₁ => ?_
  rw [hcheck, ends_pure]
  refine ends_collect_reply hx hh hholds hreply fun r n k₂ hlog₂ hr => ?_
  refine hQ r _ k₂ (hlog₂.trans hlog₁) ?_ hr
  refine spent_of_idle (h := { h with blockIndex := n }) hh ?_ hs
  simp only [hst]
  decide

/-- A transaction that came to its end is looked at once and reported. -/
theorem ends_finish {reply? : Option Reply} (hx : p.Exposes (.ich f) c.info.base)
    (hh : h.Is (.ich f) c.info.base) (hst : h.status = 0) (hs : h.stalled = false)
    (hu : h.inUse = true) (hpec : h.wantsPec = tx.pec) (hn : c.poll.retries ≠ 0)
    (hstuck : p.has .stuckBusy = false)
    (hreply : ∀ reply, reply? = some reply → tx.callsLatch = false → tx.Expects reply)
    (hQ : ∀ r h' k', k'.log = k.log → Spent c f h.auxControl r h' →
      tx.Reported (p.has .pecError) reply? r → Q r (p.put h' g k')) :
    Ends answer (c.finish tx) (p.put (h.complete (p.has .pecError) reply?) g k)
      (fun a => Q (.ok a)) (fun e => Q (.error e)) := by
  have hk := h.complete_kept (p.has .pecError) reply?
  have hs' := hk.stalled.trans hs
  have hu' := hk.inUse.trans hu
  rw [← hk.auxControl] at hQ
  cases reply? with
  | none =>
      have hd := Host.complete_none hst (p.has .pecError)
      refine ends_finish_device hx (hk.is hh) hd hs' hu' hn hstuck
        fun fault status h' k' hlog hspent hnak _ => ?_
      exact hQ _ h' k' hlog (hspent _) ⟨fault, status, rfl, hnak⟩
  | some reply =>
      cases hbad : h.wantsPec && p.has .pecError with
      | true =>
          obtain ⟨hd, hcrc⟩ := Host.complete_pecError hst reply hbad
          rw [hpec] at hbad
          refine ends_finish_device hx (hk.is hh) hd hs' hu' hn hstuck
            fun fault status h' k' hlog hspent _ hpec' => ?_
          refine hQ _ h' k' hlog (hspent _) ?_
          rw [Transaction.Reported, if_pos hbad,
            hpec' (Bool.and_eq_true_iff.mp hbad).1 hcrc]
          exact ⟨status, rfl⟩
      | false =>
          obtain ⟨hd, hholds⟩ := Host.complete_reply hst reply hbad
          rw [hpec] at hbad
          refine ends_finish_reply hx (hk.is hh) hd hs' hu' hn hstuck (hholds tx)
            (hreply reply rfl) fun r h' k' hlog hspent hr => ?_
          refine hQ r h' k' hlog hspent ?_
          rw [Transaction.Reported, if_neg (by rw [hbad]; decide)]
          exact hr

end Finish

theorem ends_execute {Q : Except Error Payload → Platform → Prop}
    (hx : p.Exposes (.ich f) c.info.base) (hh : h.Is (.ich f) c.info.base) (hl : h.Loaded tx)
    (hv : tx.validate = .ok ()) (hst : h.status = 0) (hs : h.stalled = false) (hu : h.inUse = true)
    (hQ : ∀ r h' g' k', Spent c f h.auxControl r h' →
      tx.Fate (p.blocked false) (c.poll.retries = 0) (p.has .pecError) g k.log r
        g' k'.log → Q r (p.put h' g' k')) :
    Ends answer (c.execute tx) (p.put h g k) (fun a => Q (.ok a))
      (fun e => Q (.error e)) := by
  have hfits := Transaction.fits_of_validate hv
  obtain ⟨hkill, hstart⟩ := startValue_control tx
  have hwrite : h.write HostRegister.control (startValue tx) =
      ({ h with control := startValue tx }, .start) := by
    rw [Host.write_control, Host.writeControl]
    simp only [hkill, hstart, Bool.false_eq_true, if_false, if_true]
  rw [execute_eq, ends_bind]
  refine ends_writeIo8_event hx hh (by decide) hwrite ?_
  rw [follow]
  have hm : { h with control := startValue tx }.model = h.model := rfl
  cases hjam : p.jammed with
  | true =>
      rw [start_jammed hm hjam, finish, ends_bind]
      refine ends_awaitWithin_stalled hx hh rfl hst hu fun k' hlog => ?_
      refine hQ _ _ _ _ ⟨hh, ?_, rfl, fun _ => ⟨_, _, rfl⟩⟩ ?_
      · simp only [hst]
        decide
      · exact .refused _ _ (blocked_of_jammed false hjam)
  | false =>
      have hpi : { h with control := startValue tx }.isPiix4 = false := by
        simp [Host.isPiix4, hh.1]
      have hcarries : ({ h with control := startValue tx }.loaded tx.protocol).Carries tx :=
        Host.Loaded.carries ⟨hl.address, hl.command, hl.byte, hl.word, hl.block⟩
          (Transaction.slave_le_of_validate hv)
      rw [start_put hm hjam (protocol_startValue hh.1 rfl), hpi]
      by_cases hn : c.poll.retries = 0
      · rw [finish, ends_bind, await, hn]
        refine hQ _ _ _ _ ⟨?_, ?_, ?_, fun _ => ⟨_, _, rfl⟩⟩ ?_
        · exact (Host.complete_kept ..).is hh
        · obtain hd | hd := Host.complete_status (h := { h with control := startValue tx }) hst
            (p.has .pecError)
            (p.deliver false g ({ h with control := startValue tx }.loaded tx.protocol)).1 <;>
            simp only [hd] <;> decide
        · exact (Host.complete_kept ..).auxControl
        · exact fate_of_delivered hfits hcarries hjam (fun _ => ⟨_, rfl⟩)
            fun hz => absurd hn (of_decide_eq_false hz)
      · refine ends_finish hx hh hst hs hu (wantsPec_startValue hh.1 rfl) hn
          (Bool.or_eq_false_iff.mp hjam).2
          (fun reply hr hl => deliver_expected hfits hcarries hr hl)
          fun r h' k' hlog hspent hr => ?_
        refine hQ r h' _ k' hspent ?_
        rw [hlog]
        exact fate_of_delivered hfits hcarries hjam (fun hz => absurd (of_decide_eq_true hz) hn)
          fun _ => hr

/-! ## Tidying up -/

theorem ends_disableAux {ok : Unit → Platform → Prop} (hx : p.Exposes (.ich f) c.info.base)
    (hh : h.Is (.ich f) c.info.base)
    (hok : ∀ k', k'.log = k.log → ok () (p.put { h with auxControl := 0 } g k'))
    (ha : h.auxControl = auxFor tx) :
    Ends answer (c.disableAux (auxFor tx)) (p.put h g k) ok bad := by
  have hclear : ∀ aux mask : UInt8, (aux &&& ~~~aux) &&& mask = 0 := by
    intro aux mask
    rw [UInt8.and_not_self, UInt8.zero_and]
  unfold disableAux
  split
  · rw [ends_bind]
    refine ends_readIo8 hx hh (by decide) (Host.read_auxControl ..) hh ?_
    refine ends_writeIo8 hx hh (by decide) (Host.write_auxControl ..) hh ?_
    rw [ha, hclear]
    exact hok _ rfl
  · rename_i hz
    have hz : auxFor tx = 0 := by simpa using hz
    have hk := hok k rfl
    rw [← hz, ← ha] at hk
    exact hk

theorem ends_runIdle {Q : Except Error Payload → Platform → Prop}
    (hx : p.Exposes (.ich f) c.info.base) (hh : h.Is (.ich f) c.info.base) (hf : f.Carry tx)
    (hv : tx.validate = .ok ()) (hst : h.status = 0) (hs : h.stalled = false) (hu : h.inUse = true)
    (ha : h.auxControl = 0)
    (hQ : ∀ r h' g' k', Spent c f 0 r h' →
      tx.Fate (p.blocked false) (c.poll.retries = 0) (p.has .pecError) g k.log r
        g' k'.log → Q r (p.put h' g' k')) :
    Ends answer (c.runIdle tx) (p.put h g k) (fun a => Q (.ok a)) (fun e => Q (.error e)) := by
  simp only [runIdle, ends_bind, ends_outcome]
  refine ends_program hx hh hf hv ha fun h₁ k₁ hlog₁ hl hh₁ hst₁ hs₁ hu₁ ha₁ => ?_
  have hdone : ∀ r h' g' k', Spent c f h₁.auxControl r h' →
      tx.Fate (p.blocked false) (c.poll.retries = 0) (p.has .pecError) g k₁.log r
        g' k'.log →
      Ends answer (c.disableAux (auxFor tx)) (p.put h' g' k')
        (fun _ s => Ends answer (Attempt.ofExcept r) s (fun a => Q (.ok a))
          (fun e => Q (.error e)))
        (fun e => Q (.error e)) := by
    rintro r h' g' k' ⟨hh', hst', ha', hs'⟩ hfate
    refine ends_disableAux hx hh' (fun k'' hlog => ends_ofExcept_post ?_) (ha'.trans ha₁)
    refine hQ r _ g' k'' ⟨hh', hst', rfl, hs'⟩ ?_
    rw [hlog, ← hlog₁]
    exact hfate
  exact ends_execute (Q := fun r s => Ends answer (c.disableAux (auxFor tx)) s
      (fun _ s => Ends answer (Attempt.ofExcept r) s (fun a => Q (.ok a)) (fun e => Q (.error e)))
      (fun e => Q (.error e)))
    hx hh₁ hl hv (hst₁.trans hst) (hs₁.trans hs) (hu₁.trans hu) hdone

theorem ends_transact_outcome {Q : Except Error Payload → Platform → Prop}
    (hx : p.Exposes (.ich f) c.info.base) (hh : h.Is (.ich f) c.info.base) (hf : f.Carry tx)
    (hv : tx.validate = .ok ()) (hr : h.AtRest)
    (hQ : ∀ r h' g' k', Spent c f 0 r h' →
      tx.Fate (p.blocked false) (c.poll.retries = 0) (p.has .pecError) g k.log r
        g' k'.log → Q r (p.put h' g' k')) :
    Ends answer (c.transact tx).outcome (p.put h g k) Q bad := by
  rw [ends_outcome, transact, ends_bind]
  refine ends_readIo8 hx hh (by decide) (read_status hh.1 ..) hh ?_
  simp only [hr.status, hr.stalled, hr.inUse, Bool.false_or, Bool.false_eq_true, if_false]
  cases hstuck : p.has .stuckBusy with
  | true =>
      rw [if_pos (by decide), ends_bind]
      refine ends_writeIo8 hx hh (by decide) (Host.write_status ..) hh ?_
      refine hQ _ _ g _ ⟨hh, ?_, hr.auxControl, fun ht => ?_⟩ ?_
      · simp only [UInt8.zero_and]
      · cases ht
      · exact .refused _ _ (blocked_of_jammed false (by rw [jammed, hstuck, Bool.or_true]))
  | false =>
      rw [if_neg (by decide), if_neg (by decide)]
      refine ends_runIdle hx ?_ hf hv rfl rfl rfl hr.auxControl hQ
      exact hh

theorem ends_kill {ok : Unit → Platform → Prop} (hx : p.Exposes (.ich f) c.info.base)
    (hh : h.Is (.ich f) c.info.base) (hst : h.status &&& ~~~Status.flags = 0)
    (hok : ∀ h' k', k'.log = k.log → h'.Is (.ich f) c.info.base →
      h'.status &&& ~~~Status.flags = 0 → h'.stalled = false → h'.auxControl = h.auxControl →
      ok () (p.put h' g k')) :
    Ends answer (ExceptT.lift c.kill) (p.put h g k) ok bad := by
  have hfailed : ∀ status : UInt8, status &&& ~~~Status.flags = 0 →
      (status ||| Status.failed) &&& ~~~Status.flags = 0 := forall_byte (by decide +kernel)
  -- What is left to do once the kill is given.
  have hrest : ∀ h' k', k'.log = k.log → h'.Is (.ich f) c.info.base →
      h'.status &&& ~~~Status.flags = 0 → h'.stalled = false → h'.auxControl = h.auxControl →
      Ends answer (do
          sleep killDelayUs
          writeIo8 (c.register HostRegister.control) 0
          readIo8 (c.register HostRegister.status))
        (p.put h' g k') (fun _ => ok ()) (fun _ => ok ()) := by
    intro h' k' hlog hh' hst' hs ha
    have hwrite : h'.write HostRegister.control 0 = ({ h' with control := 0 }, .none) := by
      rw [Host.write_control, Host.writeControl, if_neg (by decide), if_neg (by decide)]
    simp only [ends_bind]
    refine ends_sleep (ends_writeIo8 hx hh' (by decide) hwrite hh' ?_)
    have hread := read_status (h := { h' with control := 0 }) hh'.1
    exact ends_readIo8 hx hh' (by decide) (hread ..) hh' (hok _ _ hlog hh' hst' hs ha)
  rw [kill, ends_quietly, ends_bind]
  cases hs : h.stalled with
  | true =>
      have hwrite : h.write HostRegister.control Control.kill =
          ({ h with control := Control.kill, stalled := false,
                    status := h.status ||| Status.failed }, .kill) := by
        rw [Host.write_control, Host.writeControl, if_pos (by decide)]
        simp only [hs, if_true]
      refine ends_writeIo8_kill hx hh (by decide) hwrite hh ?_
      exact hrest _ _ rfl hh (hfailed _ hst) rfl rfl
  | false =>
      have hwrite : h.write HostRegister.control Control.kill =
          ({ h with control := Control.kill }, .kill) := by
        rw [Host.write_control, Host.writeControl, if_pos (by decide)]
        simp only [hs, Bool.false_eq_true, if_false]
      refine ends_writeIo8_kill hx hh (by decide) hwrite hh ?_
      exact hrest _ _ rfl hh hst hs rfl

theorem ends_cleanUp {ok : Unit → Platform → Prop} (hx : p.Exposes (.ich f) c.info.base)
    (hh : h.Is (.ich f) c.info.base) (hst : h.status &&& ~~~Status.flags = 0)
    (hs : h.stalled = false) (ha : h.auxControl = 0)
    (hok : ∀ h' k', k'.log = k.log → h'.Is (.ich f) c.info.base → h'.AtRest →
      ok () (p.put h' g k')) :
    Ends answer (ExceptT.lift c.cleanUp) (p.put h g k) ok bad := by
  rw [cleanUp, ends_quietly]
  refine ends_writeIo8 hx hh (by decide) (Host.write_status ..) hh ?_
  exact hok _ _ rfl hh ⟨hst, Bool.and_false _, hs, ha⟩

theorem ends_free {Q : Except Error Payload → Platform → Prop} {r : Except Error Payload}
    (hx : p.Exposes (.ich f) c.info.base) (hh : h.Is (.ich f) c.info.base)
    (hst : h.status &&& ~~~Status.flags = 0) (hs : h.stalled = false) (ha : h.auxControl = 0)
    (hQ : ∀ h' k', k'.log = k.log → h'.Is (.ich f) c.info.base → h'.AtRest →
      Q r (p.put h' g k')) :
    Ends answer (c.free r) (p.put h g k) (fun a => Q (.ok a)) (fun e => Q (.error e)) := by
  rw [free, ends_bind]
  exact ends_cleanUp hx hh hst hs ha fun h' k' hlog hh' hr' =>
    ends_ofExcept_post (hQ h' k' hlog hh' hr')

/-- A host that is not killed is not in the middle of a transaction. -/
theorem ends_windUp {Q : Except Error Payload → Platform → Prop} {r : Except Error Payload}
    (hx : p.Exposes (.ich f) c.info.base) (hspent : Spent c f 0 r h)
    (hQ : ∀ h' k', k'.log = k.log → h'.Is (.ich f) c.info.base → h'.AtRest →
      Q r (p.put h' g k')) :
    Ends answer (c.windUp r) (p.put h g k) (fun a => Q (.ok a)) (fun e => Q (.error e)) := by
  unfold windUp
  split
  · rw [ends_bind]
    refine ends_kill hx hspent.is hspent.status fun h₁ k₁ hlog₁ hh₁ hst₁ hs₁ ha₁ => ?_
    refine ends_free hx hh₁ hst₁ hs₁ (ha₁.trans hspent.auxControl) fun h₂ k₂ hlog₂ => ?_
    exact hQ h₂ k₂ (hlog₂.trans hlog₁)
  · rename_i hr
    have hs : h.stalled = false := Bool.eq_false_iff.mpr fun hs => by
      obtain ⟨_, _, rfl⟩ := hspent.stalled hs
      exact hr rfl
    exact ends_free hx hspent.is hspent.status hs hspent.auxControl hQ

theorem ends_transferDirect {Q : Except Error Payload → Platform → Prop}
    (hx : p.Exposes (.ich f) c.info.base) (hh : h.Is (.ich f) c.info.base) (hf : f.Carry tx)
    (hv : tx.validate = .ok ()) (hr : h.AtRest)
    (hQ : ∀ r h' g' k', h'.Is (.ich f) c.info.base → h'.AtRest →
      tx.Fate (p.blocked false) (c.poll.retries = 0) (p.has .pecError) g k.log r
        g' k'.log → Q r (p.put h' g' k')) :
    Ends answer (c.transferDirect tx) (p.put h g k) (fun a => Q (.ok a))
      (fun e => Q (.error e)) := by
  rw [transferDirect_eq, ends_bind]
  refine ends_transact_outcome hx hh hf hv hr fun r h' g' k' hspent hfate => ?_
  refine ends_windUp hx hspent fun h₂ k₂ hlog hh₂ hr₂ => ?_
  refine hQ r h₂ g' k₂ hh₂ hr₂ ?_
  rw [hlog]
  exact hfate

end Ich

end DimmBus
