import DimmBus.Proofs.BoardAccess
import DimmBus.Proofs.Piix4Transfer

/-!
# The wrapping of SB800-class parts

Whatever becomes of the transaction inside, the semaphore, the micro-controller and the bus
multiplexer are given back as they were found.
-/

namespace DimmBus

open Access Attempt Platform

namespace Piix4

variable {c : Piix4} {p : Platform} {h : Host} {g : Segment} {k : Counters} {tx : Transaction}
  {b : PmBlock} {m? : Option Mailbox} {s : Sb800} {bad : Error → Platform → Prop}

/-! ## The semaphore -/

theorem read_slaveControl (hm : h.model = .piix4) (stuck held : Bool) :
    h.read stuck held HostRegister.slaveControl =
      (if held then h.slaveControl &&& ~~~SlaveControl.hostSemaphore else h.slaveControl, h) := by
  have hp : h.isPiix4 = true := by simp [Host.isPiix4, hm]
  simp [Host.read, hp, HostRegister.slaveControl, HostRegister.status, HostRegister.control,
    HostRegister.command, HostRegister.address, HostRegister.data0, HostRegister.data1,
    HostRegister.block]

theorem write_slaveControl (hm : h.model = .piix4) (value : UInt8) :
    h.write HostRegister.slaveControl value =
      ({ h with slaveControl :=
          if hasAny value SlaveControl.hostRelease then
            h.slaveControl &&& ~~~SlaveControl.hostSemaphore
          else value }, .none) := by
  have hp : h.isPiix4 = true := by simp [Host.isPiix4, hm]
  simp [Host.write, hp, HostRegister.slaveControl, HostRegister.status, HostRegister.control,
    HostRegister.command, HostRegister.address, HostRegister.data0, HostRegister.data1,
    HostRegister.block]

/-- Asking for the semaphore sets its bit, whatever is shown of it. -/
theorem ask_slaveControl (hm : h.model = .piix4)
    (hs : h.slaveControl &&& SlaveControl.hostRelease = 0) (held : Bool) :
    h.write HostRegister.slaveControl
        ((if held then h.slaveControl &&& ~~~SlaveControl.hostSemaphore else h.slaveControl) |||
          SlaveControl.hostSemaphore) =
      ({ h with slaveControl := h.slaveControl ||| SlaveControl.hostSemaphore }, .none) := by
  have hall : ∀ sc : UInt8, sc &&& SlaveControl.hostRelease = 0 →
      hasAny (sc ||| SlaveControl.hostSemaphore) SlaveControl.hostRelease = false ∧
        (sc &&& ~~~SlaveControl.hostSemaphore) ||| SlaveControl.hostSemaphore =
          sc ||| SlaveControl.hostSemaphore := forall_byte (by decide +kernel)
  obtain ⟨hrelease, hask⟩ := hall _ hs
  have hvalue : (if held then h.slaveControl &&& ~~~SlaveControl.hostSemaphore
      else h.slaveControl) ||| SlaveControl.hostSemaphore =
      h.slaveControl ||| SlaveControl.hostSemaphore := by
    cases held with
    | true => exact hask
    | false => rfl
  rw [hvalue, write_slaveControl hm, hrelease]
  rfl

/-- Firmware that holds the semaphore is asked in vain. -/
theorem ends_acquireWithin_held {n : Nat} {last : UInt8} {ok : Unit → Platform → Prop}
    (hx : p.Exposes .piix4 c.info.base) (hh : h.Is .piix4 c.info.base)
    (hs : h.slaveControl &&& SlaveControl.hostRelease = 0) (hheld : p.has .semaphoreHeld = true)
    (hbad : ∀ e h' k', k'.log = k.log → (h' = h ∨ h' =
        { h with slaveControl := h.slaveControl ||| SlaveControl.hostSemaphore }) →
      bad e (p.put h' g k')) :
    Ends answer (c.acquireWithin n last) (p.put h g k) ok bad := by
  have hall : ∀ sc : UInt8, sc &&& SlaveControl.hostRelease = 0 →
      (sc ||| SlaveControl.hostSemaphore) &&& SlaveControl.hostRelease = 0 ∧
        hasAny ((sc ||| SlaveControl.hostSemaphore) &&& ~~~SlaveControl.hostSemaphore)
          SlaveControl.hostSemaphore = false ∧
        sc ||| SlaveControl.hostSemaphore ||| SlaveControl.hostSemaphore =
          sc ||| SlaveControl.hostSemaphore := forall_byte (by decide +kernel)
  induction n generalizing h k last with
  | zero => exact hbad _ h k rfl (.inl rfl)
  | succ n ih =>
      obtain ⟨hs', hseen, htwice⟩ := hall _ hs
      rw [acquireWithin, ends_bind]
      refine ends_readIo8 hx hh (by decide) (read_slaveControl hh.1 ..) hh ?_
      rw [ends_bind]
      refine ends_writeIo8 hx hh (by decide) (ask_slaveControl hh.1 hs _) hh ?_
      rw [ends_bind]
      have hread := read_slaveControl
        (h := { h with slaveControl := h.slaveControl ||| SlaveControl.hostSemaphore }) hh.1
      refine ends_readIo8 hx hh (by decide) (hread ..) hh ?_
      simp only [hheld, if_true]
      rw [if_neg (by simp [hseen]), ends_bind]
      refine ends_sleep (ih (h := { h with
        slaveControl := h.slaveControl ||| SlaveControl.hostSemaphore }) hh hs' ?_)
      intro e h' k' hlog hor
      refine hbad e h' k' hlog (.inr ?_)
      obtain rfl | rfl := hor
      · rfl
      · simp only [htwice]

theorem ends_acquire {ok : Unit → Platform → Prop} (hx : p.Exposes .piix4 c.info.base)
    (hh : h.Is .piix4 c.info.base) (hs : h.slaveControl &&& SlaveControl.hostRelease = 0)
    (hok : ∀ k', k'.log = k.log → p.has .semaphoreHeld = false →
      ok () (p.put { h with slaveControl := h.slaveControl ||| SlaveControl.hostSemaphore } g k'))
    (hbad : ∀ e h' k', k'.log = k.log → p.has .semaphoreHeld = true → (h' = h ∨ h' =
        { h with slaveControl := h.slaveControl ||| SlaveControl.hostSemaphore }) →
      bad e (p.put h' g k')) :
    Ends answer c.acquire (p.put h g k) ok bad := by
  rw [acquire]
  cases hheld : p.has .semaphoreHeld with
  | true => exact ends_acquireWithin_held hx hh hs hheld fun e h' k' hlog => hbad e h' k' hlog hheld
  | false =>
      have hall : ∀ sc : UInt8, hasAny (sc ||| SlaveControl.hostSemaphore)
          SlaveControl.hostSemaphore = true := forall_byte (by decide +kernel)
      rw [semaphorePolls, acquireWithin, ends_bind]
      refine ends_readIo8 hx hh (by decide) (read_slaveControl hh.1 ..) hh ?_
      rw [ends_bind]
      refine ends_writeIo8 hx hh (by decide) (ask_slaveControl hh.1 hs _) hh ?_
      rw [ends_bind]
      have hread := read_slaveControl
        (h := { h with slaveControl := h.slaveControl ||| SlaveControl.hostSemaphore }) hh.1
      refine ends_readIo8 hx hh (by decide) (hread ..) hh ?_
      simp only [hheld, Bool.false_eq_true, if_false]
      rw [if_pos (hall _)]
      exact hok _ rfl hheld

theorem ends_release {ok : Unit → Platform → Prop} (hx : p.Exposes .piix4 c.info.base)
    (hh : h.Is .piix4 c.info.base)
    (hok : ∀ k', k'.log = k.log →
      ok () (p.put { h with slaveControl := h.slaveControl &&& ~~~SlaveControl.hostSemaphore } g
        k')) :
    Ends answer (ExceptT.lift c.release) (p.put h g k) ok bad := by
  have hall : ∀ value : UInt8, hasAny (value ||| SlaveControl.hostRelease)
      SlaveControl.hostRelease = true := forall_byte (by decide +kernel)
  rw [release, ends_quietly, ends_bind]
  refine ends_readIo8 hx hh (by decide) (read_slaveControl hh.1 ..) hh ?_
  refine ends_writeIo8 hx hh (by decide) (write_slaveControl hh.1 _) hh ?_
  rw [hall]
  exact hok _ rfl

/-! ## The bus multiplexer -/

/-- One of the fields that parts have. -/
def Selector.Known (s : Selector) : Prop := s = .kerncz ∨ s = .primary ∨ s = .alternate

theorem output_cases : ∀ output : UInt8, output ≤ 3 →
    output = 0 ∨ output = 1 ∨ output = 2 ∨ output = 3 := forall_byte (by decide +kernel)

theorem Selector.get_set {s : Selector} {output : UInt8} (hs : s.Known) (ho : output ≤ 3)
    (value : UInt8) : s.get (s.set value output) = output := by
  revert value
  obtain rfl | rfl | rfl := hs <;> obtain rfl | rfl | rfl | rfl := output_cases output ho <;>
    exact forall_byte (by decide +kernel)

theorem Selector.set_set_get {s : Selector} {output : UInt8} (hs : s.Known) (ho : output ≤ 3)
    (value : UInt8) : s.set (s.set value output) (s.get value) = value := by
  revert value
  obtain rfl | rfl | rfl := hs <;> obtain rfl | rfl | rfl | rfl := output_cases output ho <;>
    exact forall_byte (by decide +kernel)

theorem blocked_equip : (p.equip b m?).blocked true = (p.jammed || !decide (b.selected = 0)) := by
  rfl

theorem ends_withPort {Q : Except Error Payload → Platform → Prop}
    (hx : p.Exposes .piix4 c.info.base) (hb : p.Board .piix4 c.info.base)
    (hh : h.Is .piix4 c.info.base) (ht : Plain tx) (hv : tx.validate = .ok ())
    (hc : h.Clearable p.jammed) (hs : s.selector = b.selector)
    (hr : s.pm.Reaches b b.selector.register) (hk : b.selector.Known) (hport : c.port ≤ 3)
    (hQ : ∀ r h' g' k' i,
      Settled c tx p.jammed (p.jammed || !decide (c.port = 0)) h g k.log r h' g' k'.log →
      Q r ((p.equip { b with index := i } m?).put h' g' k')) :
    Ends answer (c.withPort s (c.transact tx)) ((p.equip b m?).put h g k) (fun a => Q (.ok a))
      (fun e => Q (.error e)) := by
  rw [withPort, ends_bind, hs]
  refine PmAccess.ends_read hb hh hr fun i k₁ hlog₁ => ?_
  dsimp only
  split
  · rename_i hsame
    have hsel : ({ b with index := i } : PmBlock).selected = c.port := by
      rw [PmBlock.selected, ← hsame]
      exact Selector.get_set hk hport _
    refine ends_transact hx.equip hh ht hv hc fun r h' g' k' hset => ?_
    rw [blocked_equip, hsel, hlog₁] at hset
    exact hQ r h' g' k' i hset
  · rw [ends_bind]
    refine PmAccess.ends_write (b := { b with index := i }) hb hh hr fun j k₂ hlog₂ => ?_
    rw [ends_bind, ends_outcome]
    refine ends_transact (Q := fun r s' => Ends answer (do
        ExceptT.lift (s.pm.write b.selector.register
          (b.registers.read b.selector.register.toNat)).quietly
        Attempt.ofExcept r) s' (fun a => Q (.ok a)) (fun e => Q (.error e)))
      hx.equip hh ht hv hc fun r h' g' k' hset => ?_
    rw [blocked_equip, hlog₂, hlog₁] at hset
    simp only [PmBlock.selected, RegisterFile.read_write_self, Selector.get_set hk hport] at hset
    rw [ends_bind, ends_quietly]
    refine PmAccess.ends_write hb hset.is hr fun n k₃ hlog₃ => ends_ofExcept_post ?_
    simp only [RegisterFile.write_write, RegisterFile.write_read_self]
    refine hQ r h' g' k₃ n ?_
    rw [hlog₃]
    exact hset

/-! ## The whole transaction -/

/-- What keeps a transaction of an SB800-class part from the bus. -/
def kept (c : Piix4) (p : Platform) : Bool :=
  p.jammed || !decide (c.port = 0) || p.has .semaphoreHeld

/-- How a transaction leaves the part: only the place in the power-management block and the contents
of the mailbox may be others. -/
structure Returned (c : Piix4) (tx : Transaction) (p : Platform) (m? : Option Mailbox) (g : Segment)
    (log : Array LoggedTransfer) (r : Except Error Payload) (h' : Host) (m'? : Option Mailbox)
    (g' : Segment) (log' : Array LoggedTransfer) : Prop where
  is : h'.Is .piix4 c.info.base
  clearable : h'.Clearable p.jammed
  release : h'.slaveControl &&& SlaveControl.hostRelease = 0
  semaphore : p.has .semaphoreHeld = false → h'.slaveControl &&& SlaveControl.hostSemaphore = 0
  present : m'?.isSome = m?.isSome
  awake : ∀ m', m'? = some m' → m'.asleep = false
  fate : tx.Fate (c.kept p) (c.poll.retries = 0) false g log r g' log'

theorem ends_giveBack {Q : Except Error Payload → Platform → Prop} {r : Except Error Payload}
    (hx : p.Exposes .piix4 c.info.base) (hh : h.Is .piix4 c.info.base)
    (hQ : ∀ k', k'.log = k.log → Q r ((p.equip b m?).put
      { h with slaveControl := h.slaveControl &&& ~~~SlaveControl.hostSemaphore } g k')) :
    Ends answer (c.giveBack r) ((p.equip b m?).put h g k) (fun a => Q (.ok a))
      (fun e => Q (.error e)) := by
  rw [giveBack, ends_bind]
  exact ends_release hx.equip hh fun k' hlog => ends_ofExcept_post (hQ k' hlog)

/-- What is done after the transaction, the semaphore last. -/
theorem ends_windUp {Q : Except Error Payload → Platform → Prop} {asleep : Bool}
    {r : Except Error Payload} (hx : p.Exposes .piix4 c.info.base)
    (hb : p.Board .piix4 c.info.base) (hh : h.Is .piix4 c.info.base)
    (hasleep : asleep = true → p.has .imcSilent = false ∧ m?.isSome = true)
    (hawake : asleep = false → ∀ m, m? = some m → m.asleep = false)
    (hQ : ∀ k' m'?, k'.log = k.log → m'?.isSome = m?.isSome →
      (∀ m, m'? = some m → m.asleep = false) →
      Q r ((p.equip b m'?).put
        { h with slaveControl := h.slaveControl &&& ~~~SlaveControl.hostSemaphore } g k')) :
    Ends answer (c.windUp asleep r) ((p.equip b m?).put h g k) (fun a => Q (.ok a))
      (fun e => Q (.error e)) := by
  cases asleep with
  | false => exact ends_giveBack hx hh fun k' hlog => hQ k' m? hlog rfl (hawake rfl)
  | true =>
      obtain ⟨hsilent, hsome⟩ := hasleep rfl
      obtain ⟨m, rfl⟩ := Option.isSome_iff_exists.mp hsome
      rw [windUp, if_pos rfl, ends_bind]
      refine ends_imcCommand hb hh rfl fun m' k₁ hlog₁ hm' => ?_
      refine ends_giveBack hx hh fun k₂ hlog₂ => ?_
      refine hQ k₂ (some m') (hlog₂.trans hlog₁) rfl fun m₂ hm₂ => ?_
      cases hm₂
      rw [hm', hsilent]
      rfl

/-- What asking for the semaphore and handing it back leave of the bits. -/
theorem taken_slaveControl : ∀ sc : UInt8, sc &&& SlaveControl.hostRelease = 0 →
    (sc ||| SlaveControl.hostSemaphore) &&& SlaveControl.hostRelease = 0 ∧
      (sc ||| SlaveControl.hostSemaphore) &&& ~~~SlaveControl.hostSemaphore &&&
        SlaveControl.hostRelease = 0 ∧
      (sc ||| SlaveControl.hostSemaphore) &&& ~~~SlaveControl.hostSemaphore &&&
        SlaveControl.hostSemaphore = 0 := forall_byte (by decide +kernel)

section Bracket

variable {Q : Except Error Payload → Platform → Prop}

/-- The part under the semaphore, once it is known whether the micro-controller sleeps. -/
theorem ends_underSemaphore (asleep : Bool) {m'? : Option Mailbox}
    (hx : p.Exposes .piix4 c.info.base) (hb : p.Board .piix4 c.info.base)
    (hh : h.Is .piix4 c.info.base) (ht : Plain tx) (hv : tx.validate = .ok ())
    (hc : h.Clearable p.jammed) (hsc : h.slaveControl &&& SlaveControl.hostRelease = 0)
    (hs : s.selector = b.selector) (hr : s.pm.Reaches b b.selector.register)
    (hk : b.selector.Known) (hport : c.port ≤ 3) (hheld : p.has .semaphoreHeld = false)
    (hpresent : m'?.isSome = m?.isSome)
    (hasleep : asleep = true → p.has .imcSilent = false ∧ m'?.isSome = true)
    (hawake : asleep = false → ∀ m, m'? = some m → m.asleep = false)
    (hQ : ∀ r h' g' k' i m'?, Returned c tx p m? g k.log r h' m'? g' k'.log →
      Q r ((p.equip { b with index := i } m'?).put h' g' k')) :
    Ends answer (c.underSemaphore s tx asleep)
      ((p.equip b m'?).put
        { h with slaveControl := h.slaveControl ||| SlaveControl.hostSemaphore } g k)
      (fun a => Q (.ok a)) (fun e => Q (.error e)) := by
  obtain ⟨-, hreleased, hfree⟩ := taken_slaveControl _ hsc
  rw [underSemaphore, ends_bind, ends_outcome]
  refine ends_withPort (h := { h with
      slaveControl := h.slaveControl ||| SlaveControl.hostSemaphore })
    (Q := fun r s' => Ends answer (c.windUp asleep r) s' (fun a => Q (.ok a))
      (fun e => Q (.error e)))
    hx hb hh ht hv ⟨hc.status, hc.stalled⟩ hs hr hk hport fun r h₂ g₂ k₂ i hset => ?_
  refine ends_windUp hx hb hset.is hasleep hawake fun k₃ m₃? hlog₃ hpresent₃ hawake₃ => ?_
  refine hQ r _ g₂ k₃ i m₃? ⟨hset.is, ⟨hset.clearable.status, hset.clearable.stalled⟩, ?_,
    fun _ => ?_, hpresent₃.trans hpresent, hawake₃, ?_⟩
  · simp only [hset.slaveControl]
    exact hreleased
  · simp only [hset.slaveControl]
    exact hfree
  · rw [kept, hheld, Bool.or_false, hlog₃]
    exact hset.fate

theorem ends_transferSb800 (hx : p.Exposes .piix4 c.info.base)
    (hb : p.Board .piix4 c.info.base) (hh : h.Is .piix4 c.info.base) (ht : Plain tx)
    (hv : tx.validate = .ok ()) (hc : h.Clearable p.jammed)
    (hsc : h.slaveControl &&& SlaveControl.hostRelease = 0) (hs : s.selector = b.selector)
    (hr : s.pm.Reaches b b.selector.register) (hk : b.selector.Known) (hport : c.port ≤ 3)
    (hm : s.notifyImc = true → m?.isSome = true)
    (hawake : ∀ m, m? = some m → m.asleep = false)
    (hQ : ∀ r h' g' k' i m'?, Returned c tx p m? g k.log r h' m'? g' k'.log →
      Q r ((p.equip { b with index := i } m'?).put h' g' k')) :
    Ends answer (c.transferSb800 s tx) ((p.equip b m?).put h g k) (fun a => Q (.ok a))
      (fun e => Q (.error e)) := by
  rw [transferSb800_eq, ends_bind]
  refine ends_acquire hx.equip hh hsc (fun k₁ hlog₁ hheld => ?_) fun e h' k₁ hlog₁ hheld hor => ?_
  · rw [equip_has] at hheld
    cases hn : s.notifyImc with
    | false =>
        refine ends_underSemaphore false hx hb hh ht hv hc hsc hs hr hk hport hheld rfl
          (fun h => by cases h) (fun _ => hawake) ?_
        rw [hlog₁]
        exact hQ
    | true =>
        obtain ⟨m, rfl⟩ := Option.isSome_iff_exists.mp (hm hn)
        simp only [if_true]
        rw [ends_bind]
        refine ends_imcCommand hb hh rfl fun m' k₂ hlog₂ hm' => ?_
        -- A micro-controller that does not answer was not put to sleep.
        have hpresent : (some m').isSome = (some m).isSome := rfl
        refine ends_underSemaphore _ hx hb hh ht hv hc hsc hs hr hk hport hheld hpresent
          (fun hs => ⟨?_, rfl⟩) (fun hs m₂ hm₂ => ?_) ?_
        · simpa using hs
        · cases hm₂
          have hsilent : p.has .imcSilent = true := by simpa using hs
          rw [hm', hsilent]
          exact hawake m rfl
        · rw [hlog₂, hlog₁]
          exact hQ
  · rw [equip_has] at hheld
    obtain ⟨hasked, -⟩ := taken_slaveControl _ hsc
    have hkept : c.kept p = true := by rw [kept, hheld, Bool.or_true]
    refine hQ _ h' g k₁ b.index m? ?_
    obtain rfl | rfl := hor
    · exact ⟨hh, hc, hsc, fun hf => absurd (hheld.symm.trans hf) (by decide), rfl, hawake,
        .refused _ _ hkept⟩
    · exact ⟨hh, ⟨hc.status, hc.stalled⟩, hasked,
        fun hf => absurd (hheld.symm.trans hf) (by decide), rfl, hawake,
        .refused _ _ hkept⟩

end Bracket

end Piix4

end DimmBus
