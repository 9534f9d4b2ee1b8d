import DimmBus.Proofs.PacketErrors
import DimmBus.Proofs.Shapes

/-!
# The words of a call as a code

What is put into the words of a delegated call can be read from them again, on the other side and on
the way back.
-/

namespace DimmBus

/-! ## Digits of a number -/

namespace LittleEndian

theorem digit_succ (n i : Nat) : digit n (i + 1) = digit (n / 256) i := by
  have hi : 8 * (i + 1) = 8 + 8 * i := by omega
  rw [digit, digit, hi, Nat.shiftRight_add, Nat.shiftRight_eq_div_pow n 8]

theorem ofFn_digit (count n : Nat) :
    (List.ofFn fun i : Fin count => digit n i) = toBytes count n := by
  induction count generalizing n with
  | zero => rfl
  | succ count ih =>
      rw [List.ofFn_succ, toBytes, ← ih]
      simp only [Fin.val_succ, digit_succ]
      rfl

end LittleEndian

/-! ## Buffers -/

namespace Delegated

open Platform

/-- Eight digits of a word are all of it. -/
theorem word_of_digits (w : UInt64) :
    UInt64.ofNat (LittleEndian.ofBytes
      (List.ofFn fun k : Fin 8 => LittleEndian.digit w.toNat k)) = w := by
  have hw : w.toNat < LittleEndian.bound 8 := w.toNat_lt
  rw [LittleEndian.ofFn_digit, LittleEndian.ofBytes_toBytes, Nat.mod_eq_of_lt hw,
    UInt64.ofNat_toNat]

/-- The words of a buffer that was read from words are its first five. -/
theorem getElem_pack_unpack (words : List UInt64) (i : Nat) (hi : i < 5) :
    (pack (unpack words))[i] = words.getD i 0 := by
  have hdigit : ∀ k : Fin 8,
      (unpack words)[8 * i + k.val] = LittleEndian.digit (words.getD i 0).toNat k := fun k => by
    have hdiv : (8 * i + k.val) / 8 = i := by omega
    have hmod : (8 * i + k.val) % 8 = k := by omega
    simp only [unpack, Vector.getElem_ofFn, hdiv, hmod]
  simp only [pack, Vector.getElem_ofFn, hdigit, word_of_digits]

theorem pack_unpack (words : List UInt64) :
    (pack (unpack words)).toList = fit transferWords words := by
  apply List.ext_getElem
  · simp [fit, transferWords]
    omega
  · intro i hi hi'
    have h5 : i < 5 := by simpa using hi
    rw [show (pack (unpack words)).toList[i] = words.getD i 0 from
      (Vector.getElem_toList hi).trans (getElem_pack_unpack words i h5)]
    by_cases hl : i < words.length
    · have hboth : i < min 5 words.length := Nat.lt_min.mpr ⟨h5, hl⟩
      simp [fit, transferWords, hl, List.getElem_append_left, hboth]
    · have hpad : ¬i < min 5 words.length := fun h => hl (Nat.lt_min.mp h).2
      simp [fit, transferWords, hl, List.getElem_append, hpad]

end Delegated

/-! ## Requests -/

/-- The data that goes out with an operation. -/
def Transfer.payload (t : Transfer) : Payload :=
  match t.protocol, t.direction with
  | .byteData, .write => .byte (LittleEndian.low t.word)
  | .wordData, .write | .procCall, .write => .word t.word
  | .blockData, .write | .blockProcCall, .write => .block t.block
  | _, _ => .none

theorem Transfer.Carries.payload {t : Transfer} {tx : Transaction} (h : t.Carries tx)
    (hf : tx.fits = true) : t.payload = tx.payload := by
  obtain ⟨slave, direction, command, protocol, data, pec⟩ := tx
  obtain ⟨-, hd, hp, -, hb, hw, hk⟩ := h
  simp only [Transfer.payload, hd, hp]
  cases protocol <;> cases direction <;> cases data <;> simp_all [Transaction.fits]

namespace Delegated

open Platform

/-- The transaction that the other side reads from the words of a call, if it knows the protocol. -/
def transactionOf (words : List UInt64) : Option Transaction :=
  (protocolOf? (words.getD 3 0)).map fun protocol =>
    let t := transferOf words protocol
    { slave := t.slave
      direction := t.direction
      command := t.command
      protocol := t.protocol
      payload := t.payload
      pec := false }

variable {tx tx' : Transaction}

theorem transactionOf_encode (hv : tx.validate = .ok ()) :
    transactionOf (encode tx) = some tx.withoutPec := by
  have hc := transferOf_encode hv
  have hcommand : (transferOf (encode tx) tx.protocol).command = tx.command :=
    byte_toUInt64 tx.command
  have hcode : (encode tx).getD 3 0 = codeOf tx.protocol := rfl
  have hpayload := hc.payload (Transaction.fits_of_validate hv)
  simp only [transactionOf, hcode, protocolOf_codeOf, Option.map_some, hc.slave, hc.direction,
    hcommand, hc.protocol, hpayload]
  rfl

theorem encode_withoutPec (tx : Transaction) : encode tx.withoutPec = encode tx := rfl

theorem encode_inj (hv : tx.validate = .ok ()) (hv' : tx'.validate = .ok ()) :
    encode tx = encode tx' ↔ tx.withoutPec = tx'.withoutPec := by
  constructor
  · intro h
    have hread := congrArg transactionOf h
    rw [transactionOf_encode hv, transactionOf_encode hv'] at hread
    exact Option.some.inj hread
  · intro h
    rw [← encode_withoutPec tx, h, encode_withoutPec]

/-! ## Answers -/

/-- A block that a device may return is announced by its length. -/
theorem checkReturnedLength_ofNat {n : Nat} (h1 : 1 ≤ n) (hmax : n ≤ maxBlock) :
    checkReturnedLength (UInt8.ofNat n) = .ok n := by
  have hn : (UInt8.ofNat n).toNat = n := by
    rw [UInt8.toNat_ofNat']
    exact Nat.mod_eq_of_lt (by unfold maxBlock at hmax; omega)
  exact checkReturnedLength_eq_ok.mpr ⟨hn.symm, h1, hmax⟩

theorem decode_bufferOf {payload : Payload} (hback : tx.readsBack = true)
    (hr : tx.Returns payload) : decode tx (pack (bufferOf payload)).toList = .ok payload := by
  rw [decode, if_pos hback, unpack_pack, bufferOf]
  rw [Transaction.Returns, if_pos hback] at hr
  cases hp : tx.protocol with
  | quick =>
      simp only [hp] at hr
      rw [hr]
  | byte | byteData =>
      simp only [hp] at hr
      obtain ⟨value, rfl⟩ := hr
      simp only [payloadBytes, byte_ofBytes, List.getD_cons_zero]
  | wordData | procCall =>
      simp only [hp] at hr
      obtain ⟨value, rfl⟩ := hr
      simp only [payloadBytes, word_ofBytes, List.getD_cons_zero, List.getD_cons_succ,
        LittleEndian.word_low_high]
  | blockData | blockProcCall =>
      simp only [hp] at hr
      obtain ⟨data, rfl, h1, hmax⟩ := hr
      simp only [payloadBytes, List.take_of_length_le hmax, byte_ofBytes, List.getD_cons_zero,
        checkReturnedLength_ofNat h1 hmax]
      exact congrArg (fun d => Except.ok (Payload.block d)) (drop_take_ofBytes hmax)

/-! ## Nothing is lost -/

/-- Buffers and words stand for each other. A request that is in order can be read from its words
but for packet error checking, which is all that two of them with the same words can differ in.
Data of the shape that a transaction reads back survives the words of the answer. -/
theorem words_lossless :
    (∀ buffer : Buffer, unpack (pack buffer).toList = buffer) ∧
    (∀ words : List UInt64, (pack (unpack words)).toList =
      words.take 5 ++ List.replicate (5 - words.length) 0) ∧
    (∀ tx : Transaction, tx.validate = .ok () →
      transactionOf (encode tx) = some { tx with pec := false }) ∧
    (∀ tx tx' : Transaction, tx.validate = .ok () → tx'.validate = .ok () →
      encode tx = encode tx' → { tx with pec := false } = { tx' with pec := false }) ∧
    ∀ (tx : Transaction) (payload : Payload), tx.readsBack = true → tx.Returns payload →
      decode tx (pack (bufferOf payload)).toList = .ok payload :=
  ⟨unpack_pack, pack_unpack, fun _ hv => transactionOf_encode hv,
    fun _ _ hv hv' h => (encode_inj hv hv').mp h, fun _ _ hback hr => decode_bufferOf hback hr⟩

/-- A block of three bytes, there and back, with and without packet error checking. -/
theorem words_lossless_block :
    let tx := Transaction.blockProcCall 0x50 0x10 [1, 2, 3]
    tx.validate = .ok () ∧ tx.readsBack = true ∧
      transactionOf (encode tx) = some tx ∧
      encode tx = encode tx.withPec ∧ tx = { tx.withPec with pec := false } ∧
      decode tx (pack (bufferOf tx.payload)).toList = .ok tx.payload := by
  intro tx
  obtain ⟨-, -, hread, hinj, hback⟩ := words_lossless
  have hshape : tx.Returns tx.payload := ⟨[1, 2, 3], rfl, by decide, by decide⟩
  exact ⟨rfl, rfl, hread tx rfl, rfl, hinj tx tx.withPec rfl rfl rfl, hback tx _ rfl hshape⟩

end Delegated

end DimmBus
