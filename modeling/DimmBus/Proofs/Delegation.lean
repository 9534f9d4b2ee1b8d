import DimmBus.Platform.Answer
import DimmBus.Proofs.Sb800Transfer

/-!
# Delegated transactions

The words of a call lose nothing of a transaction but its packet error checking, and the words of
the answer nothing of a reply.
-/

namespace DimmBus

open Access Attempt Platform

namespace Delegated

/-! ## Buffers -/

theorem unpack_pack (buffer : Buffer) : unpack (pack buffer).toList = buffer := by
  apply Vector.ext
  intro i hi
  have hw : i / 8 < 5 := by omega
  have hword : (pack buffer).toList.getD (i / 8) 0 = UInt64.ofNat (LittleEndian.ofBytes
      (List.ofFn fun n : Fin 8 => buffer[8 * (i / 8) + n.val])) := by
    simp [pack, List.getD_eq_getElem?_getD, hw]
  have hlt := LittleEndian.ofBytes_lt
    (List.ofFn fun n : Fin 8 => buffer[8 * (i / 8) + n.val])
  rw [List.length_ofFn] at hlt
  have hmod := Nat.mod_eq_of_lt (Nat.lt_of_lt_of_eq hlt (by decide : LittleEndian.bound 8 = 2 ^ 64))
  have hb : i % 8 < 8 := Nat.mod_lt _ (by decide)
  have hsum : 8 * (i / 8) + i % 8 = i := Nat.div_add_mod i 8
  simp only [unpack, Vector.getElem_ofFn, hword]
  rw [UInt64.toNat_ofNat', hmod, LittleEndian.digit_ofBytes,
    List.getD_eq_getElem?_getD, List.getElem?_ofFn, dif_pos hb, Option.getD_some]
  simp only [hsum]

theorem getElem_ofBytes (bs : List UInt8) (i : Nat) (hi : i < 40) :
    (Buffer.ofBytes bs)[i] = bs.getD i 0 := by
  rw [Buffer.ofBytes, Vector.getElem_ofFn]

theorem byte_ofBytes (bs : List UInt8) : (Buffer.ofBytes bs).byte = bs.getD 0 0 :=
  getElem_ofBytes ..

theorem word_ofBytes (bs : List UInt8) :
    (Buffer.ofBytes bs).word = LittleEndian.word (bs.getD 0 0) (bs.getD 1 0) := by
  rw [Buffer.word, getElem_ofBytes, getElem_ofBytes]

/-- The bytes in front of a buffer. -/
theorem take_ofBytes (bs : List UInt8) (h : bs.length ≤ 40) :
    (Buffer.ofBytes bs).toList.take bs.length = bs := by
  apply List.ext_getElem
  · simp [h]
  · intro i hi hi'
    simp [Buffer.ofBytes, List.getD_eq_getElem?_getD, hi']

/-- A block behind its length. -/
theorem drop_take_ofBytes {b : UInt8} {data : List UInt8} (h : data.length ≤ maxBlock) :
    ((Buffer.ofBytes (b :: data)).toList.drop 1).take data.length = data := by
  have hall := take_ofBytes (b :: data) (by unfold maxBlock at h; simp; omega)
  rw [List.take_drop, Nat.add_comm 1, ← List.length_cons, hall]
  rfl

/-! ## Requests and replies -/

theorem protocolOf_codeOf (protocol : Protocol) :
    protocolOf? (codeOf protocol) = some protocol := by
  cases protocol <;> decide

theorem buffer_encode (tx : Transaction) : unpack ((encode tx).drop 4) = bufferOf tx.payload :=
  unpack_pack _

theorem byte_toUInt64 (b : UInt8) : UInt8.ofNat b.toUInt64.toNat = b := by simp

/-- The operation on the other side carries all that the transaction puts on the wire. -/
theorem transferOf_encode {tx : Transaction} (hv : tx.validate = .ok ()) :
    (transferOf (encode tx) tx.protocol).Carries tx where
  slave := byte_toUInt64 tx.slave
  direction := by
    show (if (if tx.direction = .read then (1 : UInt64) else 0) = 0 then Direction.write
      else .read) = tx.direction
    cases tx.direction <;> rfl
  protocol := rfl
  command _ := byte_toUInt64 tx.command
  byte value hp := by
    simp only [transferOf, buffer_encode, hp, bufferOf, payloadBytes, word_ofBytes]
    exact LittleEndian.low_word value 0
  word value hp := by
    simp only [transferOf, buffer_encode, hp, bufferOf, payloadBytes, word_ofBytes]
    exact LittleEndian.word_low_high value
  block data hp := by
    have hmax := (Transaction.length_of_validate hv hp).2
    have hn : (UInt8.ofNat data.length).toNat = data.length := by
      simp only [UInt8.toNat_ofNat']
      exact Nat.mod_eq_of_lt (by unfold maxBlock at hmax; omega)
    simp only [transferOf, buffer_encode, hp, bufferOf, payloadBytes, List.take_of_length_le hmax,
      byte_ofBytes, List.getD_cons_zero, hn, Nat.min_eq_left hmax]
    exact drop_take_ofBytes hmax

/-- What comes back is the payload that stands for the reply. -/
theorem decode_replyBytes {tx : Transaction} {reply : Reply} (he : tx.Expects reply) :
    decode tx (pack (.ofBytes (replyBytes reply))).toList = .ok reply.payload := by
  unfold decode
  unfold Transaction.Expects at he
  rw [unpack_pack]
  split at he
  · rename_i hback
    rw [if_pos hback]
    cases hp : tx.protocol with
    | quick =>
        simp only [hp] at he
        rw [he]
        rfl
    | byte | byteData =>
        simp only [hp] at he
        obtain ⟨value, rfl⟩ := he
        simp only [byte_ofBytes, replyBytes, payloadBytes, List.getD_cons_zero, Reply.payload]
    | wordData | procCall =>
        simp only [hp] at he
        obtain ⟨value, rfl⟩ := he
        simp only [word_ofBytes, replyBytes, payloadBytes, List.getD_cons_zero,
          List.getD_cons_succ, LittleEndian.word_low_high, Reply.payload]
    | blockData | blockProcCall =>
        simp only [hp] at he
        obtain ⟨data, rfl, hlen⟩ := he
        have hcheck : checkReturnedLength (UInt8.ofNat maxBlock) = .ok maxBlock := rfl
        have hdata := drop_take_ofBytes (b := UInt8.ofNat maxBlock) (Nat.le_of_eq hlen)
        rw [hlen] at hdata
        simp only [replyBytes, payloadBytes, List.take_of_length_le (Nat.le_of_eq hlen), hlen,
          byte_ofBytes, List.getD_cons_zero, hcheck]
        exact congrArg (fun d => Except.ok (Payload.block d)) hdata
  · rename_i hback
    rw [if_neg hback, he]
    rfl

/-! ## Calls -/

variable {p : Platform} {tx : Transaction} {family : Family} {bad : Error → Platform → Prop}

section

variable {routine : String} {words : List UInt64} {n : Nat} {p' : Platform}
  {ok : List UInt64 → Platform → Prop}

theorem run_delegate (hd : p.transport = .delegated) :
    (delegate routine words n).run.run answer p =
      ((p.counted.runRoutine routine words).1.map (fit n),
        (p.counted.runRoutine routine words).2) := by
  show answer (.delegate routine words n) p = _
  simp only [answer, hd]

theorem ends_delegate {answered : List UInt64} (hd : p.transport = .delegated)
    (hr : p.counted.runRoutine routine words = (.ok answered, p')) (hok : ok (fit n answered) p') :
    Ends answer (delegate routine words n) p ok bad := by
  rw [Ends, run_delegate hd, hr]
  exact hok

theorem ends_delegate_error {e : Error} (hd : p.transport = .delegated)
    (hr : p.counted.runRoutine routine words = (.error e, p')) (hbad : bad e p') :
    Ends answer (delegate routine words n) p ok bad := by
  rw [Ends, run_delegate hd, hr]
  exact hbad

end

theorem fit_pack (buffer : Buffer) :
    fit transferWords (pack buffer).toList = (pack buffer).toList := by
  have hlen : (pack buffer).toList.length = transferWords := by simp [transferWords]
  rw [fit, List.take_of_length_le (Nat.le_of_eq hlen), hlen, Nat.sub_self]
  exact List.append_nil _

/-- The routine that runs transactions for a family. -/
def transferRoutine : Family → String
  | .ich => Routine.ichTransfer
  | .piix4 => Routine.piix4Transfer

theorem runRoutine_transfer (p : Platform) (words : List UInt64) :
    p.runRoutine (transferRoutine family) words = p.transferFor family words := by
  cases family <;> rfl

/-- The machine after a routine that reached no further than the bus. -/
def after (p : Platform) (g : Segment) (k : Counters) : Platform :=
  { p with segment := g, counters := k }

theorem transferFor_encode (hh : (p.host? family).isSome = true) (hv : tx.validate = .ok ()) :
    (p.jammed = true → ∃ e k', k'.log = p.counters.log ∧
      p.transferFor family (encode tx) = (.error e, after p p.segment k')) ∧
    (p.jammed = false → ∃ t k', t.Carries tx ∧ k'.log = p.counters.log.push t.entry ∧
      p.transferFor family (encode tx) =
        (match (p.deliver (family = .piix4) p.segment t).1 with
          | none => .error (.bus tx.slave tx.protocol .nak Status.deviceError)
          | some reply => .ok (pack (.ofBytes (replyBytes reply))).toList,
        after p (p.deliver (family = .piix4) p.segment t).2 k')) := by
  have hlen : ¬(encode tx).length < inputWords := by
    simp [encode, inputWords, transferWords]
  have hnone : ¬(p.host? family).isNone = true := by
    cases hf : p.host? family with
    | none =>
        rw [hf] at hh
        cases hh
    | some _ => simp
  have hcode : (encode tx).getD 3 0 = codeOf tx.protocol := rfl
  unfold transferFor
  rw [if_neg hlen, if_neg hnone]
  refine ⟨fun hj => ?_, fun hj => ?_⟩
  · unfold jammed at hj
    split
    · exact ⟨_, p.counters, rfl, rfl⟩
    · rename_i hstuck
      have hstall : p.has .stall = true := by simpa [hstuck] using hj
      rw [if_pos hstall]
      refine ⟨_, _, ?_, rfl⟩
      rfl
  · obtain ⟨hstall, hstuck⟩ := Bool.or_eq_false_iff.mp hj
    have ht := transferOf_encode hv
    refine ⟨_, p.counters.started (transferOf (encode tx) tx.protocol), ht, rfl, ?_⟩
    simp only [hstall, hstuck, hcode, protocolOf_codeOf, Bool.false_eq_true, if_false,
      runTransfer_eq, ht.slave]
    cases (p.deliver (family = .piix4) p.segment (transferOf (encode tx) tx.protocol)).1 <;> rfl

theorem ends_transfer (family : Family) {Q : Except Error Payload → Platform → Prop}
    (hd : p.transport = .delegated) (hh : (p.host? family).isSome = true)
    (hv : tx.validate = .ok ())
    (hQ : ∀ r g' k',
      tx.Fate (p.blocked (family = .piix4)) false false p.segment p.counters.log r g' k'.log →
      Q r (after p g' k')) :
    Ends answer (transfer (transferRoutine family) tx) p (fun a => Q (.ok a))
      (fun e => Q (.error e)) := by
  have hfits := Transaction.fits_of_validate hv
  obtain ⟨hjam, hrun⟩ := transferFor_encode (p := p.counted) hh hv
  rw [transfer, ends_bind]
  cases hj : p.jammed with
  | true =>
      obtain ⟨e, k', hlog, heq⟩ := hjam hj
      rw [← runRoutine_transfer] at heq
      exact ends_delegate_error hd heq (hQ _ p.segment k' (.refused _ _ (blocked_of_jammed _ hj)))
  | false =>
      obtain ⟨t, k', ht, hlog, heq⟩ := hrun hj
      have hfate : ∀ r, tx.Reported false (p.deliver (family = .piix4) p.segment t).1 r →
          tx.Fate (p.blocked (family = .piix4)) false false p.segment p.counters.log r
            (p.deliver (family = .piix4) p.segment t).2 k'.log := by
        intro r hr
        rw [hlog]
        exact fate_of_delivered hfits ht hj (fun hz => by cases hz) fun _ => hr
      have hdeliver : p.counted.deliver (family = .piix4) p.counted.segment t =
        p.deliver (family = .piix4) p.segment t := rfl
      rw [hdeliver, ← runRoutine_transfer] at heq
      cases hreply : (p.deliver (family = .piix4) p.segment t).1 with
      | none =>
          rw [hreply] at heq hfate
          exact ends_delegate_error hd heq (hQ _ _ k' (hfate _ ⟨.nak, _, rfl, fun _ => rfl⟩))
      | some reply =>
          rw [hreply] at heq hfate
          have hlen : ¬((pack (.ofBytes (replyBytes reply))).toList.length < transferWords ∧
              tx.readsBack = true) := by
            simp [transferWords]
          refine ends_delegate hd heq ?_
          rw [fit_pack, if_neg hlen]
          refine ends_ofExcept_post (hQ _ _ k' (hfate _ ?_))
          rw [Transaction.Reported, if_neg (by simp)]
          exact fun hl => decode_replyBytes (deliver_expected hfits ht hreply hl)

end Delegated

/-! ## The bus multiplexer behind the call -/

theorem PmBlock.selected_select {b : PmBlock} {output : UInt8} (hk : b.selector.Known)
    (ho : output ≤ 3) : (b.select output).selected = output := by
  simp only [selected, select, RegisterFile.read_write_self]
  exact Piix4.Selector.get_set hk ho _

theorem PmBlock.select_back {b : PmBlock} {output : UInt8} (hk : b.selector.Known)
    (ho : output ≤ 3) : (b.select output).select b.selected = b := by
  simp only [selected, select, RegisterFile.read_write_self, RegisterFile.write_write,
    Piix4.Selector.set_set_get hk ho, RegisterFile.write_read_self]

namespace Piix4

open Delegated

variable {c : Piix4} {p : Platform} {tx : Transaction} {b : PmBlock}
  {bad : Error → Platform → Prop}

theorem ends_select {output : UInt8} {ok : List UInt64 → Platform → Prop}
    (hd : p.transport = .delegated) (hpm : p.pm = some b)
    (hok : ok [b.selected.toUInt64] { p.counted with pm := some (b.select output) }) :
    Ends answer (delegate Routine.piix4SelectPort [output.toUInt64] 1) p ok bad := by
  have hrun : p.counted.runRoutine Routine.piix4SelectPort [output.toUInt64] =
      (.ok [b.selected.toUInt64], { p.counted with pm := some (b.select output) }) := by
    have hs : p.counted.runRoutine Routine.piix4SelectPort [output.toUInt64] =
      p.counted.selectPort [output.toUInt64] := rfl
    have hc : p.counted.pm = some b := hpm
    rw [hs, selectPort, hc]
    simp
  exact ends_delegate hd hrun hok

theorem ends_transferDelegated {Q : Except Error Payload → Platform → Prop}
    (hd : p.transport = .delegated) (hh : p.piix4.isSome = true) (hv : tx.validate = .ok ())
    (hport : c.port ≤ 3) (hpm : c.port ≠ 0 → ∃ b, p.pm = some b ∧ b.selector.Known)
    (hQ : ∀ r g' k',
      tx.Fate (p.blocked true || !decide (c.port = 0)) false false p.segment p.counters.log r g'
        k'.log → Q r (after p g' k')) :
    Ends answer (c.transferDelegated tx) p (fun a => Q (.ok a)) (fun e => Q (.error e)) := by
  rw [transferDelegated]
  by_cases hz : c.port = 0
  · rw [if_pos hz]
    refine ends_transfer .piix4 hd hh hv fun r g' k' hfate => hQ r g' k' ?_
    simpa [hz] using hfate
  · rw [if_neg hz]
    obtain ⟨b, hb, hk⟩ := hpm hz
    rw [ends_bind]
    refine ends_select hd hb ?_
    rw [ends_bind, ends_outcome]
    refine ends_transfer .piix4 (p := { p.counted with pm := some (b.select c.port) })
      (Q := fun r s => Ends answer (do
        ExceptT.lift (delegate Routine.piix4SelectPort [b.selected.toUInt64] 1).quietly
        Attempt.ofExcept r) s (fun a => Q (.ok a)) (fun e => Q (.error e)))
      hd hh hv fun r g' k' hfate => ?_
    rw [ends_bind, ends_quietly]
    refine ends_select hd rfl (ends_ofExcept_post ?_)
    rw [PmBlock.select_back hk hport, ← hb]
    refine hQ r g' k'.called ?_
    have haway : { p.counted with pm := some (b.select c.port) }.blocked true = true := by
      simp [blocked, connected, PmBlock.selected_select hk hport, hz]
    have hblocked : (p.blocked true || !decide (c.port = 0)) = true := by simp [hz]
    rw [hblocked]
    rw [show decide (Family.piix4 = Family.piix4) = true from rfl, haway] at hfate
    exact hfate

end Piix4

end DimmBus
