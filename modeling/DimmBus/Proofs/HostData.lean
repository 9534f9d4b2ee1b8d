import DimmBus.Proofs.HostAccess
import DimmBus.Proofs.Outcome
import DimmBus.Proofs.Parts

/-!
# Data through the registers of a simulated host

Loading words and blocks, starting the operation that the registers describe, and collecting what it
left behind.
-/

namespace DimmBus

open Access Attempt

variable {p : Platform} {h : Host} {g : Segment} {k : Counters} {model : HostModel} {base : UInt16}

namespace Platform

/-! ## Loading -/

theorem ends_loadWord {value : UInt16} {ok : Unit → Platform → Prop}
    {bad : Error → Platform → Prop} (hx : p.Exposes model base) (hh : h.Is model base)
    (hok : ok () (p.put
      { h with data0 := LittleEndian.low value, data1 := LittleEndian.high value } g
      k.called.called)) :
    Ends answer (HostData.loadWord base value) (p.put h g k) ok bad := by
  rw [HostData.loadWord, ends_bind]
  refine ends_writeIo8 hx hh (by decide) (Host.write_data0 ..) hh ?_
  exact ends_writeIo8 hx hh (by decide) (Host.write_data1 ..) hh hok

/-- Bytes written through the window follow those in front of its place. -/
theorem ends_writeBytes {data : List UInt8} {ok : Unit → Platform → Prop}
    {bad : Error → Platform → Prop} (hx : p.Exposes model base) (hh : h.Is model base)
    (hn : h.blockIndex + data.length ≤ 32)
    (hok : ∀ block n k', block.toList.take (h.blockIndex + data.length) =
        h.block.toList.take h.blockIndex ++ data → k'.log = k.log →
      ok () (p.put { h with block, blockIndex := n } g k')) :
    Ends answer (HostData.writeBytes (base + HostRegister.block) data) (p.put h g k) ok bad := by
  induction data generalizing h k with
  | nil => exact hok h.block h.blockIndex k (by simp) rfl
  | cons b bs ih =>
      rw [List.length_cons] at hn
      rw [HostData.writeBytes, ends_bind]
      refine ends_writeIo8 hx hh (by decide) (Host.write_block ..) hh ?_
      refine ih hh (by simp only; omega) fun block n k' hblock hlog => ?_
      refine hok block n k' ?_ hlog
      have hi : h.blockIndex < (h.block.toList.set h.blockIndex b).length := by simp; omega
      simp only [Vector.toList_setIfInBounds] at hblock
      rw [List.length_cons, Nat.add_comm bs.length, ← Nat.add_assoc, hblock,
        List.take_succ_eq_append_getElem hi, List.take_set_of_le (Nat.le_refl _)]
      simp

theorem ends_loadBlock {data : List UInt8} {ok : Unit → Platform → Prop}
    {bad : Error → Platform → Prop} (hx : p.Exposes model base) (hh : h.Is model base)
    (hn : data.length ≤ maxBlock)
    (hok : ∀ block n k', block.toList.take data.length = data → k'.log = k.log →
      ok () (p.put
        { h with data0 := UInt8.ofNat data.length, block, blockIndex := n } g k')) :
    Ends answer (HostData.loadBlock base data) (p.put h g k) ok bad := by
  rw [HostData.loadBlock, ends_bind]
  refine ends_writeIo8 hx hh (by decide) (Host.write_data0 ..) hh ?_
  rw [ends_bind]
  refine ends_readIo8 hx hh (by decide) (Host.read_control ..) hh ?_
  refine ends_writeBytes hx hh (by simpa [maxBlock] using hn)
    fun block n k' hblock hlog => ?_
  exact hok block n k' (by simpa using hblock) hlog

end Platform

/-! ## The operation that the registers describe -/

namespace Transaction

theorem addressByte_shift (tx : Transaction) (h : tx.slave ≤ 0x7F) :
    tx.addressByte >>> 1 = tx.slave := by
  have hall : ∀ slave : UInt8, slave ≤ 0x7F →
      (slave <<< 1 ||| 0) >>> 1 = slave ∧ (slave <<< 1 ||| 1) >>> 1 = slave :=
    forall_byte (by decide +kernel)
  obtain ⟨hw, hr⟩ := hall tx.slave h
  unfold addressByte
  cases tx.direction with
  | write => exact hw
  | read => exact hr

theorem addressByte_bit (tx : Transaction) :
    (if tx.addressByte &&& 1 = 0 then Direction.write else .read) = tx.direction := by
  have hall : ∀ slave : UInt8, (slave <<< 1 ||| 0) &&& 1 = 0 ∧ ¬(slave <<< 1 ||| 1) &&& 1 = 0 :=
    forall_byte (by decide +kernel)
  obtain ⟨hw, hr⟩ := hall tx.slave
  unfold addressByte
  cases tx.direction with
  | write => exact if_pos hw
  | read => exact if_neg hr

end Transaction

namespace Host

/-- The registers hold all that a transaction puts on the wire. -/
structure Loaded (h : Host) (tx : Transaction) : Prop where
  address : h.address = tx.addressByte
  command : tx.hasCommand → h.command = tx.command
  byte : ∀ value, tx.payload = .byte value → h.data0 = value
  word : ∀ value, tx.payload = .word value →
    h.data0 = LittleEndian.low value ∧ h.data1 = LittleEndian.high value
  block : ∀ data, tx.payload = .block data → h.data0 = UInt8.ofNat data.length ∧
    data.length ≤ maxBlock ∧ h.block.toList.take data.length = data

theorem Loaded.carries {tx : Transaction} (hl : h.Loaded tx) (hs : tx.slave ≤ 0x7F) :
    (h.loaded tx.protocol).Carries tx where
  slave := by rw [loaded, hl.address, tx.addressByte_shift hs]
  direction := by rw [loaded, hl.address, tx.addressByte_bit]
  protocol := rfl
  command := hl.command
  byte value hp := by rw [loaded, LittleEndian.low_word, hl.byte value hp]
  word value hp := by
    obtain ⟨hlo, hhi⟩ := hl.word value hp
    rw [loaded, hlo, hhi, LittleEndian.word_low_high]
  block data hp := by
    obtain ⟨hlen, hmax, htake⟩ := hl.block data hp
    have hn : (UInt8.ofNat data.length).toNat = data.length := by
      simp only [UInt8.toNat_ofNat']
      exact Nat.mod_eq_of_lt (by unfold maxBlock at hmax; omega)
    simp only [loaded, hlen, hn, htake]

end Host

/-! ## The end of an operation -/

theorem Transaction.Expects.length {tx : Transaction} {data : List UInt8}
    (h : tx.Expects (.block data)) : data.length = maxBlock := by
  unfold Transaction.Expects at h
  split at h
  · split at h <;> simp_all
  · cases h

namespace Host

/-- The data registers hold a reply. -/
def Holds (h : Host) : Reply → Prop
  | .ack => True
  | .byte value => h.data0 = value
  | .word value => h.data0 = LittleEndian.low value ∧ h.data1 = LittleEndian.high value
  | .block data => h.data0 = UInt8.ofNat data.length ∧ h.block.toList = data

theorem fillBlock_toList {block : Vector UInt8 32} {data : List UInt8}
    (h : data.length = maxBlock) : (fillBlock block data).toList = data := by
  unfold maxBlock at h
  apply List.ext_getElem
  · simp [h]
  · intro i hi hi'
    simp [fillBlock, List.getElem?_eq_getElem hi']

/-- The end of a transaction leaves all this as it was. -/
structure Kept (h h' : Host) : Prop where
  model : h'.model = h.model
  base : h'.base = h.base
  auxControl : h'.auxControl = h.auxControl
  slaveControl : h'.slaveControl = h.slaveControl
  inUse : h'.inUse = h.inUse
  stalled : h'.stalled = h.stalled

theorem Kept.is {h h' : Host} {model : HostModel} {base : UInt16} (hk : h.Kept h')
    (hh : h.Is model base) : h'.Is model base := ⟨hk.model.trans hh.1, hk.base.trans hh.2⟩

theorem complete_kept (h : Host) (pecError : Bool) (reply? : Option Reply) :
    h.Kept (h.complete pecError reply?) := by
  cases reply? with
  | none => exact ⟨rfl, rfl, rfl, rfl, rfl, rfl⟩
  | some reply =>
      cases hp : h.wantsPec && pecError with
      | true =>
          simp only [complete, hp, if_true]
          exact ⟨rfl, rfl, rfl, rfl, rfl, rfl⟩
      | false =>
          simp only [complete, hp, Bool.false_eq_true, if_false]
          cases reply <;> exact ⟨rfl, rfl, rfl, rfl, rfl, rfl⟩

theorem complete_none {h : Host} (hst : h.status = 0) (pecError : Bool) :
    (h.complete pecError none).status = Status.deviceError := by
  simp only [complete, hst]
  rfl

theorem complete_pecError {h : Host} (hst : h.status = 0) {pecError : Bool} (reply : Reply)
    (hp : (h.wantsPec && pecError) = true) :
    (h.complete pecError (some reply)).status = Status.deviceError ∧
      hasAny (h.complete pecError (some reply)).auxStatus Ich.crcError = true := by
  have hall : ∀ value, hasAny (value ||| Ich.crcError) Ich.crcError = true :=
    forall_byte (by decide +kernel)
  simp only [complete, hp, if_true, hst, hall, and_true]
  rfl

/-- A reply that comes in is held afterwards. -/
theorem complete_reply {h : Host} (hst : h.status = 0) {pecError : Bool} (reply : Reply)
    (hp : (h.wantsPec && pecError) = false) :
    (h.complete pecError (some reply)).status = Status.interrupt ∧
      ∀ tx : Transaction, tx.Expects reply → (h.complete pecError (some reply)).Holds reply := by
  simp only [complete, hp, Bool.false_eq_true, if_false, hst]
  cases reply with
  | ack => exact ⟨rfl, fun _ _ => trivial⟩
  | byte value => exact ⟨rfl, fun _ _ => rfl⟩
  | word value => exact ⟨rfl, fun _ _ => ⟨rfl, rfl⟩⟩
  | block data =>
      refine ⟨rfl, fun tx he => ?_⟩
      have hl : data.length = maxBlock := he.length
      refine ⟨?_, fillBlock_toList hl⟩
      show UInt8.ofNat (data.take maxBlock).length = UInt8.ofNat data.length
      rw [List.take_of_length_le (Nat.le_of_eq hl)]

theorem complete_status {h : Host} (hst : h.status = 0) (pecError : Bool) (reply? : Option Reply) :
    (h.complete pecError reply?).status = Status.deviceError ∨
      (h.complete pecError reply?).status = Status.interrupt := by
  cases reply? with
  | none => exact .inl (complete_none hst pecError)
  | some reply =>
      cases hp : h.wantsPec && pecError with
      | true => exact .inl (complete_pecError hst reply hp).1
      | false => exact .inr (complete_reply hst reply hp).1

end Host

/-! ## Starting -/

/-- One more operation was started. -/
def Counters.started (k : Counters) (t : Transfer) : Counters :=
  { k with starts := k.starts + 1, log := k.log.push t.entry }

namespace Platform

/-- What the bus makes of an operation of a host; on another output than the first nobody hears. -/
def deliver (p : Platform) (isPiix4 : Bool) (g : Segment) (t : Transfer) :
    Option Reply × Segment :=
  if p.connected isPiix4 then g.execute t else (none, g)

theorem connected_put (isPiix4 : Bool) : (p.put h g k).connected isPiix4 = p.connected isPiix4 := by
  cases hb : h.isPiix4 <;> simp [connected, put, setHost, hb]

theorem runTransfer_eq (p : Platform) (isPiix4 : Bool) (t : Transfer) :
    p.runTransfer isPiix4 t =
      ((p.deliver isPiix4 p.segment t).1,
        { p with
          segment := (p.deliver isPiix4 p.segment t).2, counters := p.counters.started t }) := by
  have hc : ∀ k : Counters, { p with counters := k }.connected isPiix4 = p.connected isPiix4 :=
    fun _ => rfl
  simp only [runTransfer, deliver, hc, Counters.started, Transfer.entry]
  cases p.connected isPiix4 with
  | true => simp only [if_true]
  | false => simp only [Bool.false_eq_true, if_false]

theorem runTransfer_put (isPiix4 : Bool) (t : Transfer) :
    (p.put h g k).runTransfer isPiix4 t =
      ((p.deliver isPiix4 g t).1, p.put h (p.deliver isPiix4 g t).2 (k.started t)) := by
  rw [runTransfer_eq, deliver, connected_put]
  rfl

/-- Whether a fault keeps started operations from coming to their end. -/
def jammed (p : Platform) : Bool := p.has .stall || p.has .stuckBusy

theorem start_jammed {h' : Host} (hm : h'.model = h.model) (hj : p.jammed = true) :
    (p.put h g k).start h' =
      p.put { h' with stalled := true } g { k with starts := k.starts + 1 } := by
  have hm' : { h' with stalled := true }.model = h.model := hm
  unfold jammed at hj
  simp only [start, put_has, hj, if_true, setHost_put hm']
  rfl

theorem start_put {h' : Host} {protocol : Protocol} (hm : h'.model = h.model)
    (hj : p.jammed = false) (hp : h'.protocol? = some protocol) :
    (p.put h g k).start h' =
      p.put (h'.complete (p.has .pecError) (p.deliver h'.isPiix4 g (h'.loaded protocol)).1)
        (p.deliver h'.isPiix4 g (h'.loaded protocol)).2 (k.started (h'.loaded protocol)) := by
  unfold jammed at hj
  simp only [start, put_has, hj, Bool.false_eq_true, if_false, hp, runTransfer_put]
  rw [setHost_put ((h'.complete_kept ..).model.trans hm)]

/-- Whether transactions of a host are kept from the bus. -/
def blocked (p : Platform) (isPiix4 : Bool) : Bool := p.jammed || !p.connected isPiix4

theorem blocked_of_jammed (isPiix4 : Bool) (hj : p.jammed = true) : p.blocked isPiix4 = true := by
  rw [blocked, hj, Bool.true_or]

/-- An operation that nothing held up becomes what the host makes of the bus's reply, or stays
unwatched. -/
theorem fate_of_delivered {tx : Transaction} {t : Transfer} {isPiix4 unwatched pecError : Bool}
    {log : Array LoggedTransfer} {r : Except Error Payload} (hf : tx.fits = true)
    (ht : t.Carries tx) (hj : p.jammed = false) (hlate : unwatched = true → ∃ e, r = .error e)
    (hr : unwatched = false → tx.Reported pecError (p.deliver isPiix4 g t).1 r) :
    tx.Fate (p.blocked isPiix4) unwatched pecError g log r (p.deliver isPiix4 g t).2
      (log.push t.entry) := by
  unfold blocked
  rw [hj, Bool.false_or]
  unfold deliver at *
  cases hc : p.connected isPiix4 with
  | true =>
      simp only [hc, if_true, Segment.execute_congr g hf ht, Bool.not_true] at hr ⊢
      cases unwatched with
      | true =>
          obtain ⟨e, rfl⟩ := hlate rfl
          exact .late e t rfl rfl ht
      | false => exact .reported r t rfl rfl ht (hr rfl)
  | false =>
      simp only [hc, Bool.false_eq_true, if_false, Bool.not_false] at hr ⊢
      have herror : ∃ e, r = .error e := by
        cases unwatched with
        | true => exact hlate rfl
        | false =>
            obtain ⟨fault, status, he, -⟩ := hr rfl
            exact ⟨_, he⟩
      obtain ⟨e, rfl⟩ := herror
      exact .refused e _ rfl

theorem deliver_expected {tx : Transaction} {t : Transfer} {isPiix4 : Bool} {reply : Reply}
    (hf : tx.fits = true) (ht : t.Carries tx) (hr : (p.deliver isPiix4 g t).1 = some reply)
    (hl : tx.callsLatch = false) : tx.Expects reply := by
  unfold deliver at hr
  split at hr
  · rw [Segment.execute_congr g hf ht] at hr
    exact Segment.execute_expected hf hl hr
  · cases hr

end Platform

/-! ## Collecting -/

namespace Platform

theorem ends_readBytes {n : Nat} {ok : List UInt8 → Platform → Prop}
    {bad : Error → Platform → Prop} (hx : p.Exposes model base) (hh : h.Is model base)
    (hok : ∀ k', k'.log = k.log →
      ok ((List.range' h.blockIndex n).map fun i => (h.block[i]?).getD 0)
        (p.put { h with blockIndex := h.blockIndex + n } g k')) :
    Ends answer (HostData.readBytes (base + HostRegister.block) n) (p.put h g k) ok bad := by
  induction n generalizing h k ok with
  | zero => exact hok k rfl
  | succ n ih =>
      rw [HostData.readBytes, ends_bind]
      refine ends_readIo8 hx hh (by decide) (Host.read_block ..) hh ?_
      rw [ends_bind]
      refine ih hh fun k' hlog => ?_
      have hk := hok k' hlog
      rw [List.range'_succ, List.map_cons, ← Nat.add_assoc, Nat.add_right_comm] at hk
      exact hk

section Collect

variable {bad : Error → Platform → Prop}

theorem ends_readData0 {ok : UInt8 → Platform → Prop} (hx : p.Exposes model base)
    (hh : h.Is model base) (hok : ok h.data0 (p.put h g k.called)) :
    Ends answer (readIo8 (base + HostRegister.data0)) (p.put h g k) ok bad :=
  ends_readIo8 hx hh (by decide) (Host.read_data0 ..) hh hok

theorem ends_readData1 {ok : UInt8 → Platform → Prop} (hx : p.Exposes model base)
    (hh : h.Is model base) (hok : ok h.data1 (p.put h g k.called)) :
    Ends answer (readIo8 (base + HostRegister.data1)) (p.put h g k) ok bad :=
  ends_readIo8 hx hh (by decide) (Host.read_data1 ..) hh hok

theorem ends_rewind {ok : UInt8 → Platform → Prop} (hx : p.Exposes model base)
    (hh : h.Is model base)
    (hok : ok (h.control &&& ~~~Control.start) (p.put { h with blockIndex := 0 } g k.called)) :
    Ends answer (readIo8 (base + HostRegister.control)) (p.put h g k) ok bad :=
  ends_readIo8 hx hh (by decide) (Host.read_control ..) hh hok

/-- A block of full length is brought as the registers hold it, and refused only where they hold
none. -/
theorem ends_collectBlock {ok : Payload → Platform → Prop} (hx : p.Exposes model base)
    (hh : h.Is model base)
    (hok : ∀ payload n k', k'.log = k.log → (∀ data : List UInt8, data.length = maxBlock →
        h.Holds (.block data) → payload = .block data) →
      ok payload (p.put { h with blockIndex := n } g k'))
    (hbad : ∀ e n k', k'.log = k.log → (∀ data : List UInt8, data.length = maxBlock →
        ¬h.Holds (.block data)) → bad e (p.put { h with blockIndex := n } g k')) :
    Ends answer (HostData.collectBlock base) (p.put h g k) ok bad := by
  simp only [HostData.collectBlock, ends_bind]
  refine ends_readData0 hx hh ?_
  cases hl : checkReturnedLength h.data0 with
  | error e =>
      refine hbad e h.blockIndex _ rfl fun data hlen hholds => ?_
      rw [hholds.1, hlen] at hl
      cases hl
  | ok n =>
      rw [ends_ofExcept_ok]
      refine ends_rewind hx hh (ends_readBytes hx hh fun k' hlog => hok _ _ k' hlog ?_)
      rintro data hlen ⟨hd, hblock⟩
      rw [hd, hlen] at hl
      obtain rfl : maxBlock = n := by cases hl; rfl
      rw [← hblock]
      congr 1
      apply List.ext_getElem
      · simp [maxBlock]
      · intro i hi hi'
        simp at hi'
        simp [hi']

/-- Collecting moves at most the place in the block buffer. It brings the reply that the data
registers hold, and fails only where they hold none that is expected. -/
theorem ends_collect {tx : Transaction} {ok : Payload → Platform → Prop}
    (hx : p.Exposes model base) (hh : h.Is model base)
    (hok : ∀ payload n k', k'.log = k.log → (∀ reply, tx.Expects reply → h.Holds reply →
        payload = reply.payload) → ok payload (p.put { h with blockIndex := n } g k'))
    (hbad : ∀ e n k', k'.log = k.log → (∀ reply, tx.Expects reply → ¬h.Holds reply) →
        bad e (p.put { h with blockIndex := n } g k')) :
    Ends answer (HostData.collect base tx) (p.put h g k) ok bad := by
  unfold HostData.collect
  unfold Transaction.Expects at hok hbad
  cases hback : tx.readsBack with
  | false =>
      simp only [hback, Bool.false_eq_true, if_false] at hok ⊢
      exact hok .none h.blockIndex k rfl (by rintro reply rfl -; rfl)
  | true =>
      simp only [hback, if_true] at hok hbad ⊢
      cases hp : tx.protocol with
      | quick =>
          simp only [hp] at hok
          exact hok .none h.blockIndex k rfl (by rintro reply rfl -; rfl)
      | byte | byteData =>
          simp only [hp, ends_bind] at hok ⊢
          refine ends_readData0 hx hh ?_
          exact hok (.byte h.data0) h.blockIndex k.called rfl
            (by rintro reply ⟨value, rfl⟩ hv; exact congrArg Payload.byte hv)
      | wordData | procCall =>
          simp only [hp, ends_bind] at hok ⊢
          refine ends_readData0 hx hh (ends_readData1 hx hh ?_)
          refine hok (.word (LittleEndian.word h.data0 h.data1)) h.blockIndex _ rfl ?_
          rintro reply ⟨value, rfl⟩ ⟨hlo, hhi⟩
          rw [hlo, hhi, LittleEndian.word_low_high, Reply.payload]
      | blockData | blockProcCall =>
          simp only [hp] at hok hbad ⊢
          refine ends_collectBlock hx hh (fun payload n k' hlog hp => ?_) fun e n k' hlog hp => ?_
          · refine hok payload n k' hlog ?_
            rintro reply ⟨data, rfl, hlen⟩ hholds
            exact hp data hlen hholds
          · refine hbad e n k' hlog ?_
            rintro reply ⟨data, rfl, hlen⟩
            exact hp data hlen

/-- A host that holds the reply of the bus gives it out, unless nobody expects it. -/
theorem ends_collect_reply {tx : Transaction} {reply : Reply}
    {Q : Except Error Payload → Platform → Prop} (hx : p.Exposes model base)
    (hh : h.Is model base) (hholds : tx.Expects reply → h.Holds reply)
    (hreply : tx.callsLatch = false → tx.Expects reply)
    (hQ : ∀ r n k', k'.log = k.log → (tx.callsLatch = false → r = .ok reply.payload) →
      Q r (p.put { h with blockIndex := n } g k')) :
    Ends answer (HostData.collect base tx) (p.put h g k) (fun a => Q (.ok a))
      (fun e => Q (.error e)) := by
  refine ends_collect hx hh (fun payload n k' hlog hp => ?_) fun e n k' hlog hnone => ?_
  · refine hQ _ n k' hlog fun hl => ?_
    have he := hreply hl
    rw [hp reply he (hholds he)]
  · refine hQ _ n k' hlog fun hl => ?_
    have he := hreply hl
    exact absurd (hholds he) (hnone reply he)

end Collect

end Platform

end DimmBus
