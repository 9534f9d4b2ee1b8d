import DimmBus.Proofs.Outages
import DimmBus.Proofs.SameBus
import DimmBus.Proofs.WindingUp

/-!
# Auxiliary features

An Intel transaction switches features of the host on and off again, also when accesses fail. They
stay on when the block of a transaction cannot be loaded, and otherwise only if their own register
cannot be accessed.
-/

namespace DimmBus

open Access Attempt HostRegister Platform
open Request (Touches)

/-! ## The register on the machine -/

namespace Host

/-- It is still the same host, with the same auxiliary features on. -/
structure AuxKept (h h' : Host) : Prop where
  model : h'.model = h.model
  base : h'.base = h.base
  auxControl : h'.auxControl = h.auxControl

theorem AuxKept.is {h h' : Host} {model : HostModel} {base : UInt16} (hk : h.AuxKept h')
    (hh : h.Is model base) : h'.Is model base := ⟨hk.model.trans hh.1, hk.base.trans hh.2⟩

variable (h : Host)

theorem auxKept_read (stuck held : Bool) (register : UInt16) :
    h.AuxKept (h.read stuck held register).2 where
  model := congrArg Prod.fst (h.place_read register stuck held)
  base := congrArg Prod.snd (h.place_read register stuck held)
  auxControl := by simp only [read, apply_ite Prod.snd, apply_ite Host.auxControl, ite_self]

theorem auxControl_writeControl (value : UInt8) :
    (h.writeControl value).1.auxControl = h.auxControl := by
  simp only [writeControl, apply_ite Prod.fst, apply_ite Host.auxControl, ite_self]

theorem auxKept_write {register : UInt16} (hr : register ≠ HostRegister.auxControl)
    (value : UInt8) : h.AuxKept (h.write register value).1 where
  model := congrArg Prod.fst (h.place_write register value)
  base := congrArg Prod.snd (h.place_write register value)
  auxControl := by
    simp only [write, apply_ite Prod.fst, apply_ite Host.auxControl, if_neg hr,
      auxControl_writeControl, ite_self]

end Host

namespace Platform

/-- The Intel host of a machine has these auxiliary features on. -/
def Aux (p : Platform) (f : Ich.Features) (value : UInt8) : Prop :=
  ∃ h, p.ich = some h ∧ h.Is (.ich f) ichBase ∧ h.auxControl = value

variable {p p' : Platform} {f : Ich.Features} {value : UInt8} {offset : UInt16} {h h' : Host}
  {g : Segment} {k : Counters}

theorem Aux.put (hh : h.Is (.ich f) ichBase) (ha : h.auxControl = value) :
    (p.put h g k).Aux f value := by
  have hp : h.isPiix4 = false := by simp [Host.isPiix4, hh.1]
  exact ⟨h, by rw [put_eq_ich hp], hh, ha⟩

/-- A machine is the one with its own host put back. -/
theorem Aux.exists_put (h : p.Aux f value) : ∃ h g k, p = p.put h g k ∧
    h.Is (.ich f) ichBase ∧ h.auxControl = value := by
  obtain ⟨h, hich, hh, ha⟩ := h
  have hp : h.isPiix4 = false := by simp [Host.isPiix4, hh.1]
  exact ⟨h, p.segment, p.counters, (put_ich hich hp).symm, hh, ha⟩

theorem aux_start (hm : h'.model = h.model) (hh : h'.Is (.ich f) ichBase)
    (ha : h'.auxControl = value) : ((p.put h g k).start h').Aux f value := by
  cases hj : p.jammed with
  | true =>
      rw [start_jammed hm hj]
      exact .put hh ha
  | false =>
      cases hprotocol : h'.protocol? with
      | some protocol =>
          rw [start_put hm hj hprotocol]
          have hk := h'.complete_kept (p.has .pecError)
            (p.deliver h'.isPiix4 g (h'.loaded protocol)).1
          exact .put (hk.is hh) (hk.auxControl.trans ha)
      | none =>
          unfold jammed at hj
          simp only [start, put_has, hj, hprotocol, Bool.false_eq_true, if_false]
          have hm' : { h' with status := h'.status ||| Status.deviceError }.model = h.model := hm
          rw [setHost_put hm']
          exact .put hh ha

theorem aux_follow {event : HostEvent} (hk : h.AuxKept h') (hh : h.Is (.ich f) ichBase)
    (ha : h.auxControl = value) : ((p.put h g k).follow h' event).Aux f value := by
  cases event with
  | start => exact aux_start hk.model (hk.is hh) (hk.auxControl.trans ha)
  | none | kill =>
      rw [follow, setHost_put hk.model]
      exact .put (hk.is hh) (hk.auxControl.trans ha)

theorem Aux.read (h : p.Aux f value) (ho : offset < 0x10) :
    (p.answer (.readIo8 (ichBase + offset))).2.Aux f value ∧
      (offset = auxControl → (p.answer (.readIo8 (ichBase + offset))).1 = .ok value) := by
  obtain ⟨h, g, k, hp, hh, ha⟩ := h.exists_put
  have hk := h.auxKept_read (p.has .stuckBusy) (p.has .semaphoreHeld) offset
  have hread : Ends Platform.answer (readIo8 (ichBase + offset)) (p.put h g k)
      (fun shown q => q.Aux f value ∧ (offset = auxControl → shown = value)) fun _ _ => False := by
    refine ends_readIo8 (exposes_ich f) hh ho rfl (hk.is hh)
      ⟨.put (hk.is hh) (hk.auxControl.trans ha), fun ho => ?_⟩
    rw [ho]
    exact ha
  rw [← hp] at hread
  exact ⟨hread.1, fun ho => congrArg Except.ok (hread.2 ho)⟩

theorem Aux.write (h : p.Aux f value) (ho : offset < 0x10) (hne : offset ≠ auxControl)
    (written : UInt8) : (p.answer (.writeIo8 (ichBase + offset) written)).2.Aux f value := by
  obtain ⟨h, g, k, hp, hh, ha⟩ := h.exists_put
  have hwrite : Ends Platform.answer (writeIo8 (ichBase + offset) written) (p.put h g k)
      (fun _ q => q.Aux f value) fun _ _ => False :=
    ends_writeIo8_event (exposes_ich f) hh ho rfl (aux_follow (h.auxKept_write hne written) hh ha)
  rw [← hp] at hwrite
  exact hwrite

theorem Aux.write_auxControl (h : p.Aux f value) (written : UInt8) :
    (p.answer (.writeIo8 (ichBase + auxControl) written)).2.Aux f
      (written &&& Host.auxMask (.ich f)) := by
  obtain ⟨h, g, k, hp, hh, ha⟩ := h.exists_put
  have hwrite : Ends Platform.answer (writeIo8 (ichBase + auxControl) written) (p.put h g k)
      (fun _ q => q.Aux f (written &&& Host.auxMask (.ich f))) fun _ _ => False :=
    ends_writeIo8 (exposes_ich f) hh (by decide) (Host.write_auxControl ..) hh
      (.put hh (by rw [hh.1]))
  rw [← hp] at hwrite
  exact hwrite

theorem Aux.sleep (h : p.Aux f value) (us : UInt32) : (p.answer (.sleep us)).2.Aux f value := h

/-! ## The register along the calls -/

section

variable {calls : List Call}

/-- Calls that do not write the register leave the features as they are. -/
theorem Aux.keeps {reads writes : List UInt16} {pauses : Bool} (h : p.Aux f value)
    (he : p.Evolves calls p')
    (ht : ∀ call ∈ calls, call.request.Touches ichBase reads writes pauses)
    (hr : reads.all (· < 0x10) = true)
    (hw : writes.all (fun offset => offset < 0x10 ∧ offset ≠ auxControl) = true) :
    p'.Aux f value := by
  simp only [List.all_eq_true, decide_eq_true_eq] at hr hw
  refine he.keeps (P := fun q => q.Aux f value) ht (fun p request ht h => ?_) h
  cases ht with
  | read ho => exact (h.read (hr _ ho)).1
  | write ho written => exact h.write (hw _ ho).1 (hw _ ho).2 written
  | sleep _ us => exact h.sleep us

theorem Aux.read_call {answer : Except Error UInt8} (h : p.Aux f value)
    (he : p.Evolves [⟨.readIo8 (ichBase + auxControl), answer⟩] p') :
    p'.Aux f value ∧ ((∃ e, answer = .error e) ∨ answer = .ok value) := by
  obtain ⟨hfailed, rfl⟩ | ⟨rfl, rfl⟩ := he.read
  · exact ⟨h, .inl hfailed⟩
  · obtain ⟨hkept, hshown⟩ := h.read (show auxControl < 0x10 by decide)
    exact ⟨hkept, .inr (hshown rfl)⟩

theorem Aux.write_call {written : UInt8} {answer : Except Error Unit} (h : p.Aux f value)
    (he : p.Evolves [⟨.writeIo8 (ichBase + auxControl) written, answer⟩] p') :
    (∃ e, answer = .error e) ∨ answer = .ok () ∧ p'.Aux f (written &&& Host.auxMask (.ich f)) := by
  obtain ⟨hfailed, -⟩ | ⟨hdone, rfl⟩ := he.write
  · exact .inl hfailed
  · exact .inr ⟨hdone, h.write_auxControl written⟩

end

end Platform

/-- The I/O address at which an access failed. -/
def Call.failedAt? : Call → Option UInt16
  | ⟨.readIo8 address, .error _⟩ | ⟨.writeIo8 address _, .error _⟩ => some address
  | _ => none

/-- An access to one of these registers of the host at `base` failed. -/
def Failing (base : UInt16) (offsets : List UInt16) (calls : List Call) : Prop :=
  ∃ call ∈ calls, ∃ offset ∈ offsets, call.failedAt? = some (base + offset)

instance (base : UInt16) (offsets : List UInt16) (calls : List Call) :
    Decidable (Failing base offsets calls) := by
  unfold Failing
  infer_instance

section

variable {base : UInt16} {offsets offsets' : List UInt16} {before after : List Call}

theorem Failing.read_call {offset : UInt16} (ho : offset ∈ offsets) (e : Error) :
    Failing base offsets [⟨.readIo8 (base + offset), .error e⟩] :=
  ⟨_, List.mem_cons_self, offset, ho, rfl⟩

theorem Failing.write_call {offset : UInt16} (ho : offset ∈ offsets) (value : UInt8) (e : Error) :
    Failing base offsets [⟨.writeIo8 (base + offset) value, .error e⟩] :=
  ⟨_, List.mem_cons_self, offset, ho, rfl⟩

theorem Failing.mono (h : Failing base offsets before) (ho : offsets ⊆ offsets') :
    Failing base offsets' before := by
  obtain ⟨call, hc, offset, hoffset, hfailed⟩ := h
  exact ⟨call, hc, offset, ho hoffset, hfailed⟩

theorem Failing.left (h : Failing base offsets before) : Failing base offsets (before ++ after) :=
  h.imp fun _ h => ⟨List.mem_append_left after h.1, h.2⟩

theorem Failing.right (h : Failing base offsets after) : Failing base offsets (before ++ after) :=
  h.imp fun _ h => ⟨List.mem_append_right before h.1, h.2⟩

end

namespace Ich

variable {c : Ich} {tx : Transaction} {p p' : Platform} {f : Features} {calls : List Call}

/-! ## Switching on and off -/

section

variable {β : Type} {r : Except Error β} {value : UInt8}

/-- The register is read, and what follows goes on with what it holds. -/
theorem aux_shown {y : UInt8 → Attempt β} (hp : p.Aux f value)
    (h : (readIo8 (ichBase + auxControl) >>= y).Path calls r) (he : p.Evolves calls p') :
    Failing ichBase [auxControl] calls ∨ ∃ (before after : List Call) (q : Platform),
      calls = before ++ after ∧ (y value).Path after r ∧ q.Aux f value ∧ q.Evolves after p' := by
  obtain ⟨e, hread, -⟩ | ⟨shown, before, after, q, rfl, hread, hfirst, h, he⟩ := he.path_bind h
  · exact .inl (path_readIo8.mp hread ▸ .read_call (by decide) e)
  · rw [path_readIo8.mp hread] at hfirst
    obtain ⟨hq, ⟨e, ⟨⟩⟩ | ⟨⟨⟩⟩⟩ := hp.read_call hfirst
    exact .inr ⟨before, after, q, rfl, h, hq, he⟩

/-- The register is written, and what follows finds the bits that the host has. -/
theorem aux_set {y : Unit → Attempt β} {written : UInt8} (hp : p.Aux f value)
    (h : (writeIo8 (ichBase + auxControl) written >>= y).Path calls r) (he : p.Evolves calls p') :
    Failing ichBase [auxControl] calls ∨ ∃ (before after : List Call) (q : Platform),
      calls = before ++ after ∧ (y ()).Path after r ∧
        q.Aux f (written &&& Host.auxMask (.ich f)) ∧ q.Evolves after p' := by
  obtain ⟨e, hwrite, -⟩ | ⟨_, before, after, q, rfl, hwrite, hfirst, h, he⟩ := he.path_bind h
  · exact .inl (path_writeIo8.mp hwrite ▸ .write_call (by decide) written e)
  · rw [path_writeIo8.mp hwrite] at hfirst
    obtain ⟨e, ⟨⟩⟩ | ⟨-, hq⟩ := hp.write_call hfirst
    exact .inr ⟨before, after, q, rfl, h, hq, he⟩

end

/-- Features are switched on unless an access to their register fails. -/
theorem switched_on {aux : UInt8} {r : Except Error Unit} (hbase : c.info.base = ichBase)
    (hmask : aux &&& Host.auxMask (.ich f) = aux)
    (hbuffer : tx.protocol.isBlock = true → hasAny aux AuxControl.blockBuffer = true)
    (hp : p.Aux f 0) (h : (c.enableAux tx aux).Path calls r) (he : p.Evolves calls p') :
    Failing ichBase [auxControl] calls ∨ r = .ok () ∧ p'.Aux f aux := by
  have hregister : c.register auxControl = ichBase + auxControl := by rw [register, hbase]
  simp only [enableAux, hregister] at h
  split at h
  · obtain hf | ⟨_, _, q, rfl, h, hq, he⟩ := aux_shown hp h he
    · exact .inl hf
    rw [UInt8.zero_or] at h
    obtain hf | ⟨_, _, q', rfl, h, hq', he⟩ := aux_set hq h he
    · exact .inl hf.right
    rw [hmask] at hq'
    split at h
    · rename_i hblock
      obtain hf | ⟨_, _, q'', rfl, h, hq'', he⟩ := aux_shown hq' h he
      · exact .inl hf.right.right
      rw [if_pos (hbuffer hblock)] at h
      obtain ⟨rfl, rfl⟩ := path_pure.mp h
      cases he
      exact .inr ⟨rfl, hq''⟩
    · obtain ⟨rfl, rfl⟩ := path_pure.mp h
      cases he
      exact .inr ⟨rfl, hq'⟩
  · rename_i hzero
    obtain ⟨rfl, rfl⟩ := path_pure.mp h
    cases he
    obtain rfl : aux = 0 := by simpa using hzero
    exact .inr ⟨rfl, hp⟩

/-- Features are switched off unless an access to their register fails. -/
theorem switched_off {aux : UInt8} {r : Except Error Unit} (hbase : c.info.base = ichBase)
    (hp : p.Aux f aux) (h : (c.disableAux aux).Path calls r) (he : p.Evolves calls p') :
    Failing ichBase [auxControl] calls ∨ r = .ok () ∧ p'.Aux f 0 := by
  have hregister : c.register auxControl = ichBase + auxControl := by rw [register, hbase]
  simp only [disableAux, hregister] at h
  split at h
  · obtain hf | ⟨_, _, q, rfl, h, hq, he⟩ := aux_shown hp h he
    · exact .inl hf
    rw [path_writeIo8.mp h] at he ⊢
    obtain ⟨e, rfl⟩ | ⟨rfl, hdone⟩ := hq.write_call he
    · exact .inl (.right (.write_call (by decide) _ e))
    · have hoff : aux &&& ~~~aux &&& Host.auxMask (.ich f) = 0 := by
        rw [UInt8.and_not_self, UInt8.zero_and]
      exact .inr ⟨rfl, hoff ▸ hdone⟩
  · rename_i hzero
    obtain ⟨rfl, rfl⟩ := path_pure.mp h
    cases he
    obtain rfl : aux = 0 := by simpa using hzero
    exact .inr ⟨rfl, hp⟩

/-! ## Loading -/

section

variable {α : Type} {x : Attempt α} {reads writes : List UInt16} {pauses : Bool}
  {r : Except Error α} {value : UInt8}

/-- A program that does not write their register leaves the features as they are. -/
theorem aux_kept (hbase : c.info.base = ichBase)
    (hx : x.Only (Touches c.info.base reads writes pauses))
    (hr : reads.all (· < 0x10) = true)
    (hw : writes.all (fun offset => offset < 0x10 ∧ offset ≠ auxControl) = true)
    (h : x.Path calls r) (he : p.Evolves calls p') (hp : p.Aux f value) : p'.Aux f value :=
  hp.keeps he (fun call hc => hbase ▸ hx.path h call hc) hr hw

/-- Nor does the first part of a program, whether it fails or not. -/
theorem aux_kept_first {β : Type} {y : α → Attempt β} {r : Except Error β}
    (hbase : c.info.base = ichBase) (hx : x.Only (Touches c.info.base reads writes pauses))
    (hr : reads.all (· < 0x10) = true)
    (hw : writes.all (fun offset => offset < 0x10 ∧ offset ≠ auxControl) = true)
    (hp : p.Aux f value) (h : (x >>= y).Path calls r) (he : p.Evolves calls p') :
    (p'.Aux f value ∧ ∃ e, r = .error e) ∨
      ∃ (a : α) (before after : List Call) (q : Platform), calls = before ++ after ∧
        x.Path before (.ok a) ∧ (y a).Path after r ∧ q.Aux f value ∧ q.Evolves after p' := by
  obtain ⟨e, hfirst, rfl⟩ | ⟨a, before, after, q, rfl, hfirst, hevolves, h, he⟩ := he.path_bind h
  · exact .inl ⟨aux_kept hbase hx hr hw hfirst he hp, e, rfl⟩
  · exact .inr ⟨a, before, after, q, rfl, hfirst, h, aux_kept hbase hx hr hw hfirst hevolves hp, he⟩

theorem quiet_of_only {base : UInt16} (hx : x.Only (Touches base reads writes pauses))
    (hc : control ∉ writes) (h : x.Path calls r) : Quiet base calls := by
  refine quiet_of_not_drives fun call hcall => ?_
  have ht := hx.path h call hcall
  generalize call.request = request at ht
  rintro ⟨value, rfl⟩
  generalize ha : base + control = address at ht
  cases ht with
  | write ho => exact hc ((UInt16.add_right_inj base).mp ha ▸ ho)

end

theorem failing_writeBytes {base : UInt16} {data : List UInt8} {e : Error}
    (h : (HostData.writeBytes (base + block) data).Path calls (.error e)) :
    Failing base [block] calls := by
  induction data generalizing calls with
  | nil => cases (path_pure.mp h).2
  | cons b data ih =>
      obtain ⟨e, hwrite, -⟩ | ⟨_, before, after, rfl, -, h⟩ := path_bind.mp h
      · exact path_writeIo8.mp hwrite ▸ .write_call (by decide) b e
      · exact (ih h).right

theorem failing_loadBlock {base : UInt16} {data : List UInt8} {e : Error}
    (h : (HostData.loadBlock base data).Path calls (.error e)) :
    Failing base [data0, control, block] calls := by
  obtain ⟨e, hwrite, -⟩ | ⟨_, before, after, rfl, -, h⟩ := path_bind.mp h
  · exact path_writeIo8.mp hwrite ▸ .write_call (by decide) _ e
  obtain ⟨e, hread, -⟩ | ⟨_, before, after, rfl, -, h⟩ := path_bind.mp h
  · exact .right (path_readIo8.mp hread ▸ .read_call (by decide) e)
  · exact .right (.right (.mono (failing_writeBytes h) (by decide)))

/-- The block of a transaction could not be loaded, and its features have stayed on. -/
structure Stranded {α : Type} (f : Features) (tx : Transaction) (r : Except Error α)
    (calls : List Call) (p : Platform) : Prop where
  block : ∃ data, tx.payload = .block data
  error : ∃ e, r = .error e
  quiet : Quiet ichBase calls
  loading : Failing ichBase [data0, control, HostRegister.block] calls
  on : p.Aux f (auxFor tx)

theorem eq_block_of_asBlock {payload : Payload} {data : List UInt8}
    (h : payload.asBlock = some data) : payload = .block data := by
  cases payload <;> cases h
  rfl

/-- Loading ends before the features are switched on, with an access to their register, with them
switched on, or in the block. -/
theorem programmed {r : Except Error Unit} (hbase : c.info.base = ichBase) (hf : f.Carry tx)
    (hp : p.Aux f 0) (h : (c.program tx).Path calls r) (he : p.Evolves calls p') :
    p'.Aux f 0 ∧ (∃ e, r = .error e) ∨ Failing ichBase [auxControl] calls ∨
      p'.Aux f (auxFor tx) ∧ r = .ok () ∨ Stranded f tx r calls p' := by
  have hquiet : Quiet ichBase calls :=
    hbase ▸ quiet_of_only (c.only_program tx) (by decide) h
  have haddress : (writeIo8 (c.register address) tx.addressByte).Only
      (Touches c.info.base [] [address] false) := touches_write rfl
  -- Nothing is on while the address and the command are loaded.
  obtain hfailed | ⟨_, _, _, q, rfl, -, h, hq, he⟩ := aux_kept_first hbase haddress rfl rfl hp h he
  · exact .inl hfailed
  obtain hfailed | ⟨_, _, _, q', rfl, -, h, hq', he⟩ :=
    aux_kept_first hbase (c.only_loadCommand tx) rfl rfl hq h he
  · exact .inl hfailed
  refine .inr ?_
  obtain ⟨e, hthird, rfl⟩ | ⟨_, before, rest, q'', rfl, hthird, hevolves, h, he⟩ := he.path_bind h
  · obtain hfailing | ⟨⟨⟩, -⟩ := switched_on hbase (auxFor_masked hf) auxFor_block hq' hthird he
    exact .inl hfailing.right.right
  obtain hfailing | ⟨-, hq''⟩ :=
    switched_on hbase (auxFor_masked hf) auxFor_block hq' hthird hevolves
  · exact .inl hfailing.left.right.right
  refine .inr ?_
  -- From here on they are on, whatever becomes of the block.
  cases hpayload : tx.payload.asBlock with
  | none =>
      rw [hpayload] at h
      obtain ⟨rfl, rfl⟩ := path_pure.mp h
      cases he
      exact .inl ⟨hq'', rfl⟩
  | some data =>
      rw [hpayload] at h
      have hloaded := aux_kept hbase (HostData.only_loadBlock data) rfl rfl h he hq''
      cases r with
      | ok => exact .inl ⟨hloaded, rfl⟩
      | error e =>
          refine .inr ⟨⟨data, eq_block_of_asBlock hpayload⟩, ⟨e, rfl⟩, hquiet, ?_, hloaded⟩
          exact (hbase ▸ failing_loadBlock h).right.right.right

/-! ## A whole transaction -/

theorem only_execute (c : Ich) (tx : Transaction) : (c.execute tx).Only (Touches c.info.base
    [status, auxStatus, control, data0, data1, block] [control, auxStatus] true) :=
  .bind (touches_write rfl) fun _ =>
    .bind ((c.only_awaitWithin _).touches rfl rfl rfl) fun _ =>
    .bind ((c.only_checkStatus tx _).touches rfl rfl rfl) fun _ =>
      (HostData.only_collect tx).touches rfl rfl rfl

/-- How the features are left by a transaction, or a part of it. -/
def Leaves {α : Type} (f : Features) (tx : Transaction) (r : Except Error α) (calls : List Call)
    (p : Platform) : Prop :=
  p.Aux f 0 ∨ Failing ichBase [auxControl] calls ∨ Stranded f tx r calls p

section

variable {r : Except Error Payload} {before after : List Call}

theorem Leaves.preceded (h : Leaves f tx r calls p) (hquiet : Quiet ichBase before) :
    Leaves f tx r (before ++ calls) p :=
  h.imp id (Or.imp Failing.right fun h =>
    ⟨h.block, h.error, hquiet.append h.quiet, h.loading.right, h.on⟩)

/-- Calls of which nothing more is known than that they leave the features alone. -/
theorem Leaves.followed (h : Leaves f tx r calls p) (hquiet : Quiet ichBase after)
    (hkept : ∀ value, p.Aux f value → p'.Aux f value) : Leaves f tx r (calls ++ after) p' :=
  h.imp (hkept 0) (Or.imp Failing.left fun h =>
    ⟨h.block, h.error, h.quiet.append hquiet, h.loading.left, hkept _ h.on⟩)

theorem leaves_runIdle (hbase : c.info.base = ichBase) (hf : f.Carry tx) (hp : p.Aux f 0)
    (h : (c.runIdle tx).Path calls r) (he : p.Evolves calls p') : Leaves f tx r calls p' := by
  obtain ⟨e, hprogram, rfl⟩ | ⟨_, _, rest, q, rfl, hprogram, hevolves, h, he⟩ := he.path_bind h
  · obtain ⟨hkept, -⟩ | hfailing | ⟨-, ⟨⟩⟩ | hstranded := programmed hbase hf hp hprogram he
    · exact .inl hkept
    · exact .inr (.inl hfailing)
    · exact .inr (.inr ⟨hstranded.block, ⟨e, rfl⟩, hstranded.quiet, hstranded.loading,
        hstranded.on⟩)
  obtain ⟨-, e, ⟨⟩⟩ | hfailing | ⟨hq, -⟩ | hstranded := programmed hbase hf hp hprogram hevolves
  · exact .inr (.inl hfailing.left)
  · obtain ⟨result, _, rest, rfl, hexecute, h⟩ := path_outcome_bind.mp h
    obtain ⟨q', hevolves, he⟩ := he.split
    have hq' : q'.Aux f (auxFor tx) :=
      aux_kept hbase (c.only_execute tx) rfl rfl hexecute hevolves hq
    obtain ⟨e, hdisable, rfl⟩ | ⟨_, _, rest, q'', rfl, hdisable, hevolves, h, he⟩ :=
      he.path_bind h
    · obtain hfailing | ⟨⟨⟩, -⟩ := switched_off hbase hq' hdisable he
      exact .inr (.inl hfailing.right.right)
    obtain ⟨rfl, rfl⟩ := path_ofExcept.mp h
    cases he
    obtain hfailing | ⟨-, hdone⟩ := switched_off hbase hq' hdisable hevolves
    · exact .inr (.inl hfailing.left.right.right)
    · exact .inl hdone
  · obtain ⟨e, ⟨⟩⟩ := hstranded.error

theorem leaves_transact (hbase : c.info.base = ichBase) (hf : f.Carry tx) (hp : p.Aux f 0)
    (h : (c.transact tx).Path calls r) (he : p.Evolves calls p') : Leaves f tx r calls p' := by
  have hread : (readIo8 (c.register status)).Only (Touches c.info.base [status] [] false) :=
    touches_read rfl
  have hwrite : ∀ value, (writeIo8 (c.register status) value).Only
      (Touches c.info.base [] [status] false) := fun _ => touches_write rfl
  obtain ⟨hkept, -⟩ | ⟨seen, _, _, q, rfl, hfirst, h, hq, he⟩ :=
    aux_kept_first hbase hread rfl rfl hp h he
  · exact .inl hkept
  refine .preceded ?_ (hbase ▸ quiet_of_only hread (by decide) hfirst)
  split at h
  · have hbusy : Attempt.Only (Touches c.info.base [] [status] false) (do
        writeIo8 (c.register status) (seen &&& Status.flags)
        throw (.busy seen) : Attempt Payload) := .bind (hwrite _) fun _ => .throw _
    exact .inl (aux_kept hbase hbusy rfl rfl h he hq)
  split at h
  · obtain ⟨hkept, -⟩ | ⟨_, _, _, q', rfl, hsecond, h, hq', he⟩ :=
      aux_kept_first hbase (hwrite _) rfl rfl hq h he
    · exact .inl hkept
    refine .preceded ?_ (hbase ▸ quiet_of_only (hwrite _) (by decide) hsecond)
    exact leaves_runIdle hbase hf hq' h he
  · exact leaves_runIdle hbase hf hq h he

/-- Winding up accesses the status and the control register. -/
theorem touches_windingUp {base : UInt16} {recovery : List Call} {answer : Except Error Unit}
    (h : if interrupted r then Killed base recovery else recovery = []) :
    ∀ call ∈ recovery ++ [⟨freeing base, answer⟩],
      call.request.Touches base [status] [status, control] true := by
  have hread : Request.Touches base [status] [status, control] true (.readIo8 (base + status)) :=
    .read (by decide)
  have hwrite : ∀ value, Request.Touches base [status] [status, control] true
      (.writeIo8 (base + control) value) := .write (by decide)
  have hsleep : Request.Touches base [status] [status, control] true (.sleep killDelayUs) :=
    .sleep rfl _
  have hfree : Request.Touches base [status] [status, control] true (freeing base) :=
    .write (by decide) _
  split at h
  · cases h <;> simp [hread, hwrite, hsleep, hfree]
  · simp [h, hfree]

theorem leaves_transferDirect (hbase : c.info.base = ichBase) (hf : f.Carry tx) (hp : p.Aux f 0)
    (h : (c.transferDirect tx).Path calls r) (he : p.Evolves calls p') :
    Leaves f tx r calls p' := by
  obtain ⟨work, recovery, answer, rfl, hwork, hrecovery⟩ := path_transferDirect h
  rw [hbase] at hrecovery he ⊢
  obtain ⟨q, hevolves, he⟩ := he.split
  refine (leaves_transact hbase hf hp hwork hevolves).followed ?_ fun value hq => ?_
  · exact (quiet_windingUp (List.forall_mem_nil _) hrecovery :)
  · exact hq.keeps he (touches_windingUp hrecovery) rfl rfl

end

end Ich

/-- Whatever accesses fail, a direct transaction of an Intel host leaves the auxiliary features
switched off, unless an access to their register fails, or an access that loads the block of the
transaction: then nothing is started, and they stay on. -/
theorem aux_features_left {c : Ich} {p : Platform} (hfits : c.Fits p)
    (hdirect : c.info.transport = .direct) (hoff : ∀ h, p.ich = some h → h.auxControl = 0)
    {tx : Transaction} (hcheck : c.check tx = .ok ()) (outages : Outages) :
    (∃ h, ((c.transfer tx).run.run (Flaky.answer outages) ⟨p, []⟩).2.platform.ich = some h ∧
      h.auxControl = 0) ∨
    Failing c.info.base [auxControl]
      ((c.transfer tx).run.run (Flaky.answer outages) ⟨p, []⟩).2.past ∨
    (∃ data, tx.payload = .block data) ∧
      (∃ e, ((c.transfer tx).run.run (Flaky.answer outages) ⟨p, []⟩).1 = .error e) ∧
      Quiet c.info.base ((c.transfer tx).run.run (Flaky.answer outages) ⟨p, []⟩).2.past ∧
      Failing c.info.base [data0, control, block]
        ((c.transfer tx).run.run (Flaky.answer outages) ⟨p, []⟩).2.past ∧
      ∃ h, ((c.transfer tx).run.run (Flaky.answer outages) ⟨p, []⟩).2.platform.ich = some h ∧
        h.auxControl = Ich.auxFor tx := by
  obtain ⟨h, f, hich, hh, hcan, hproc⟩ := hfits.host
  have hf := Ich.carry_of_check hcan hproc hcheck
  obtain ⟨calls, hpast, hpath, hevolves⟩ := path_flaky (c.transfer tx).run outages ⟨p, []⟩
  rw [List.nil_append] at hpast
  rw [hpast, hfits.base]
  have htransfer : c.transfer tx = c.transferDirect tx := by rw [Ich.transfer, hdirect]
  rw [htransfer] at hpath hevolves ⊢
  obtain ⟨h', hich', -, haux⟩ | hfailing | hstranded := Ich.leaves_transferDirect hfits.base hf
    ⟨h, hich, hh, hoff h hich⟩ hpath hevolves
  · exact .inl ⟨h', hich', haux⟩
  · exact .inr (.inl hfailing)
  · obtain ⟨h', hich', -, haux⟩ := hstranded.on
    exact .inr (.inr ⟨hstranded.block, hstranded.error, hstranded.quiet, hstranded.loading, h',
      hich', haux⟩)

/-- An outage of the register of an Intel host that takes the length of a block. -/
def Outages.ofLength : Outages := fun _ request =>
  match request with
  | .writeIo8 address _ => if address = ichBase + data0 then some (.reported "outage") else none
  | _ => none

/-- A controller that was brought up on the sample, and how it leaves the sample's host when the
length of a block cannot be loaded. -/
theorem aux_features_stranded_intelSample : ∃ c : Ich,
    ((Controller.probe .direct {}).run answer intelSample).1 = some (.ich c) ∧
    let tx := Transaction.writeBlock 0x30 0 [1, 2]
    tx.validate = .ok () ∧ c.check tx = .ok () ∧
    (∃ h, intelSample.ich = some h ∧ h.auxControl = 0) ∧
    let v := ((c.transfer tx).run.run (Flaky.answer .ofLength) ⟨intelSample, []⟩).2
    ¬ Failing c.info.base [auxControl] v.past ∧
    ∃ h, v.platform.ich = some h ∧ h.auxControl = Ich.AuxControl.blockBuffer := by
  have hrun : (((Controller.probe .direct {}).run answer intelSample).1).any (fun c =>
      let tx := Transaction.writeBlock 0x30 0 [1, 2]
      let v := ((c.transfer tx).run.run (Flaky.answer .ofLength) ⟨intelSample, []⟩).2
      c.family == .ich && (c.check tx).toOption == some () &&
      intelSample.ich.any (fun h => h.auxControl == 0) &&
      !decide (Failing c.info.base [auxControl] v.past) &&
      v.platform.ich.any fun h => h.auxControl == Ich.AuxControl.blockBuffer) = true := by
    rw [intelSample_eq]
    decide +kernel
  obtain ⟨c, hc, hrun⟩ := (Option.any_eq_true _ _).mp hrun
  simp only [Bool.and_eq_true, beq_iff_eq, Option.any_eq_true, Bool.not_eq_true',
    decide_eq_false_iff_not] at hrun
  obtain ⟨⟨⟨⟨hfamily, hcheck⟩, hoff⟩, hspared⟩, hon⟩ := hrun
  cases c with
  | ich c => exact ⟨c, hc, rfl, Bench.eq_ok_of_toOption hcheck, hoff, hspared, hon⟩
  | piix4 c => cases hfamily

theorem aux_features_left_intelSample : ∃ c : Ich,
    ((Controller.probe .direct {}).run answer intelSample).1 = some (.ich c) ∧
    let tx := (Transaction.writeBlock 0x30 0 [1, 2]).withPec
    let v := (c.transfer tx).run.run (Flaky.answer .ofLength) ⟨intelSample, []⟩
    ((∃ h, v.2.platform.ich = some h ∧ h.auxControl = 0) ∨
      Failing c.info.base [auxControl] v.2.past ∨
      (∃ data, tx.payload = .block data) ∧ (∃ e, v.1 = .error e) ∧
        Quiet c.info.base v.2.past ∧ Failing c.info.base [data0, control, block] v.2.past ∧
        ∃ h, v.2.platform.ich = some h ∧ h.auxControl = Ich.auxFor tx) := by
  have hrun : (((Controller.probe .direct {}).run answer intelSample).1).any (fun c =>
      c.family == .ich && c.info.transport == .direct &&
      (c.check (Transaction.writeBlock 0x30 0 [1, 2]).withPec).toOption == some () &&
      intelSample.ich.all fun h => h.auxControl == 0) = true := by
    rw [intelSample_eq]
    decide +kernel
  obtain ⟨c, hc, hrun⟩ := (Option.any_eq_true _ _).mp hrun
  simp only [Bool.and_eq_true, beq_iff_eq, Option.all_eq_true] at hrun
  obtain ⟨⟨⟨hfamily, hdirect⟩, hcheck⟩, hoff⟩ := hrun
  obtain ⟨hfits, -⟩ := Controller.fits_of_probe hosted_intelSample.assembled.laid hc
  cases c with
  | ich c =>
      exact ⟨c, hc, aux_features_left hfits hdirect hoff (Bench.eq_ok_of_toOption hcheck) .ofLength⟩
  | piix4 c => cases hfamily

end DimmBus
