import DimmBus.Proofs.CleanCompletion
import DimmBus.Proofs.Delegation
import DimmBus.Session

/-!
# Answers are in shape

Whatever the bus or a routine answers, a transaction that succeeds brings data of the shape that it
asks for, and the data in the words of a routine lies inside the buffer.
-/

namespace DimmBus

open Access Attempt HostRegister

/-- The data has the shape that the transaction reads back. -/
def Transaction.Returns (tx : Transaction) (payload : Payload) : Prop :=
  if tx.readsBack then
    match tx.protocol with
    | .quick => payload = .none
    | .byte | .byteData => ∃ value, payload = .byte value
    | .wordData | .procCall => ∃ value, payload = .word value
    | .blockData | .blockProcCall =>
      ∃ data, payload = .block data ∧ 1 ≤ data.length ∧ data.length ≤ maxBlock
  else payload = .none

variable {tx : Transaction}

/-- A length that is accepted is the one announced, and that of a block. -/
theorem checkReturnedLength_eq_ok {announced : UInt8} {length : Nat} :
    checkReturnedLength announced = .ok length ↔
      length = announced.toNat ∧ 1 ≤ length ∧ length ≤ maxBlock := by
  unfold checkReturnedLength
  split
  · rename_i h
    exact ⟨fun he => Except.ok.inj he ▸ ⟨rfl, h⟩, fun he => he.1 ▸ rfl⟩
  · rename_i h
    exact ⟨nofun, fun he => absurd (he.1 ▸ he.2) h⟩

/-! ## Through registers -/

namespace HostData

theorem yields_readBytes (address : UInt16) (n : Nat) :
    (readBytes address n).Yields fun data => data.length = n := by
  induction n with
  | zero => exact .pure rfl
  | succ n ih =>
      exact .after fun b => ih.bind fun bs hlen => .pure (congrArg Nat.succ hlen)

theorem yields_collect (base : UInt16) (tx : Transaction) :
    (collect base tx).Yields tx.Returns := by
  have hblock : (collectBlock base).Yields fun payload =>
      ∃ data, payload = .block data ∧ 1 ≤ data.length ∧ data.length ≤ maxBlock :=
    .after fun _ => .bind (.ofExcept fun _ hlength => (checkReturnedLength_eq_ok.mp hlength).2)
      fun length hb => .after fun _ => .bind (yields_readBytes _ length) fun data hlen =>
        .pure ⟨data, rfl, hlen ▸ hb⟩
  unfold collect Transaction.Returns
  split
  · cases tx.protocol with
    | quick => exact .pure rfl
    | byte | byteData => exact .after fun value => .pure ⟨value, rfl⟩
    | wordData | procCall => exact .after fun lo => .after fun hi => .pure ⟨_, rfl⟩
    | blockData | blockProcCall => exact hblock
  · exact .pure rfl

end HostData

theorem Ich.yields_transferDirect (c : Ich) (tx : Transaction) :
    (c.transferDirect tx).Yields tx.Returns := by
  have hexecute : (c.execute tx).Yields tx.Returns :=
    .after fun _ => .after fun _ => .after fun _ => HostData.yields_collect _ tx
  have hidle : (c.runIdle tx).Yields tx.Returns :=
    .after fun _ => .bind hexecute.outcome fun _ hr => .after fun _ => .ofExcept hr
  have htransact : (c.transact tx).Yields tx.Returns :=
    .after fun _ => .ite (.after fun _ => .throw _) (.ite (.after fun _ => hidle) hidle)
  rw [transferDirect_eq]
  refine .bind htransact.outcome fun r hr => ?_
  have hfree : (c.free r).Yields tx.Returns := .after fun _ => .ofExcept hr
  exact .ite (.after fun _ => hfree) hfree

namespace Piix4

variable (c : Piix4)

theorem yields_transact (tx : Transaction) : (c.transact tx).Yields tx.Returns := by
  refine .after fun _ => .after fun _ => .after fun _ => .after fun final => .after fun _ =>
    .after fun _ => ?_
  split
  · exact .throw _
  · exact HostData.yields_collect _ tx

theorem yields_withPort {α : Type} {P : α → Prop} (s : Sb800) {body : Attempt α}
    (hbody : body.Yields P) : (c.withPort s body).Yields P :=
  .after fun _ => .ite hbody <| .after fun _ => .bind hbody.outcome fun _ hr =>
    .after fun _ => .ofExcept hr

theorem yields_transferSb800 (s : Sb800) (tx : Transaction) :
    (c.transferSb800 s tx).Yields tx.Returns := by
  have hrest : ∀ asleep : Bool, (c.underSemaphore s tx asleep).Yields tx.Returns := fun asleep => by
    refine .bind (c.yields_withPort s (c.yields_transact tx)).outcome fun r hr => ?_
    have hback : (c.giveBack r).Yields tx.Returns := .after fun _ => .ofExcept hr
    exact .ite (.after fun _ => hback) hback
  rw [transferSb800_eq]
  exact .after fun _ => .ite (.after hrest) (hrest false)

end Piix4

/-! ## Through words -/

namespace Delegated

/-- The bytes of every payload fit into the buffer. -/
theorem length_payloadBytes (payload : Payload) : (payloadBytes payload).length ≤ 40 := by
  cases payload with
  | none => exact Nat.zero_le 40
  | byte value => exact (by decide : 1 ≤ 40)
  | word value => exact (by decide : 2 ≤ 40)
  | block data =>
      simp only [payloadBytes, List.length_cons, List.length_take, maxBlock]
      omega

theorem take_bufferOf (payload : Payload) :
    (bufferOf payload).toList.take (payloadBytes payload).length = payloadBytes payload :=
  take_ofBytes _ (length_payloadBytes payload)

/-- The block of a well-formed transaction is not cut, and its length fits into a byte. -/
theorem payloadBytes_block {data : List UInt8} (hv : tx.validate = .ok ())
    (hp : tx.payload = .block data) : ∃ length : UInt8, length.toNat = data.length ∧
      payloadBytes tx.payload = length :: data := by
  have hmax := (Transaction.length_of_validate hv hp).2
  refine ⟨UInt8.ofNat data.length, ?_, ?_⟩
  · rw [UInt8.toNat_ofNat']
    exact Nat.mod_eq_of_lt (by unfold maxBlock at hmax; omega)
  · rw [hp, payloadBytes, List.take_of_length_le hmax]

/-- The words of a transaction have their number, and the buffer in them all bytes of the data. -/
structure Contained (tx : Transaction) : Prop where
  words : (encode tx).length = inputWords
  bytes : (payloadBytes tx.payload).length ≤ 40
  carried : (bufferOf tx.payload).toList.take (payloadBytes tx.payload).length =
    payloadBytes tx.payload
  /-- A block that is allowed is not cut. -/
  whole : ∀ data, tx.validate = .ok () → tx.payload = .block data →
    ∃ length : UInt8, length.toNat = data.length ∧ payloadBytes tx.payload = length :: data

theorem contained (tx : Transaction) : Contained tx where
  words := by simp [encode, inputWords, transferWords]
  bytes := length_payloadBytes tx.payload
  carried := take_bufferOf tx.payload
  whole _ := payloadBytes_block

/-- The block that the words announce lies in the buffer behind its length. -/
structure Lies (words : List UInt64) (data : List UInt8) : Prop where
  announced : data.length = (unpack words).byte.toNat
  inside : 1 + data.length ≤ 40
  bytes : ∀ i (h : i < data.length), data[i] = (unpack words)[1 + i]

theorem lies_of_decode {words : List UInt64} {data : List UInt8}
    (h : decode tx words = .ok (.block data)) :
    Lies words data ∧ 1 ≤ data.length ∧ data.length ≤ maxBlock := by
  have hblock : ∀ {length : Nat}, checkReturnedLength (unpack words).byte = .ok length →
      ((unpack words).toList.drop 1).take length = data →
      Lies words data ∧ 1 ≤ data.length ∧ data.length ≤ maxBlock := by
    intro length hlength hdata
    obtain ⟨hn, hbounds⟩ := checkReturnedLength_eq_ok.mp hlength
    have hin : 1 + length ≤ 40 := by unfold maxBlock at hbounds; omega
    have hlen : data.length = length := by
      rw [← hdata, List.length_take, List.length_drop, Vector.length_toList]
      omega
    subst hdata
    refine ⟨⟨hlen.trans hn, hlen.symm ▸ hin, fun i hi => ?_⟩, hlen.symm ▸ hbounds⟩
    simp [Nat.add_comm 1 i]
  unfold decode at h
  split at h
  · cases hp : tx.protocol with
    | quick | byte | byteData | wordData | procCall => simp [hp] at h
    | blockData | blockProcCall =>
        simp only [hp] at h
        cases hlength : checkReturnedLength (unpack words).byte with
        | error e =>
            rw [hlength] at h
            cases h
        | ok length =>
            rw [hlength] at h
            exact hblock hlength (Payload.block.inj (Except.ok.inj h))
  · cases h

theorem returns_of_decode {words : List UInt64} {payload : Payload}
    (h : decode tx words = .ok payload) : tx.Returns payload := by
  have hlies : ∀ data, payload = .block data →
      Lies words data ∧ 1 ≤ data.length ∧ data.length ≤ maxBlock := fun data hdata =>
    lies_of_decode (h.trans (congrArg Except.ok hdata))
  unfold Transaction.Returns
  unfold decode at h
  split
  · rename_i hback
    rw [if_pos hback] at h
    cases hp : tx.protocol with
    | quick =>
        simp only [hp] at h
        exact (Except.ok.inj h).symm
    | byte | byteData =>
        simp only [hp] at h
        exact ⟨_, (Except.ok.inj h).symm⟩
    | wordData | procCall =>
        simp only [hp] at h
        exact ⟨_, (Except.ok.inj h).symm⟩
    | blockData | blockProcCall =>
        simp only [hp] at h
        cases hlength : checkReturnedLength (unpack words).byte with
        | error e =>
            rw [hlength] at h
            cases h
        | ok length =>
            rw [hlength] at h
            have hdata := (Except.ok.inj h).symm
            exact ⟨_, hdata, (hlies _ hdata).2⟩
  · rename_i hback
    rw [if_neg hback] at h
    exact (Except.ok.inj h).symm

theorem yields_transfer (routine : String) (tx : Transaction) :
    (Delegated.transfer routine tx).Yields tx.Returns :=
  .after fun _ => .ite (.throw _) (.ofExcept fun _ h => returns_of_decode h)

end Delegated

theorem Controller.yields_transfer (c : Controller) (tx : Transaction) :
    (c.transfer tx).Yields tx.Returns := by
  cases c with
  | ich c =>
      change (c.transfer tx).Yields tx.Returns
      unfold Ich.transfer
      split
      · exact Delegated.yields_transfer _ tx
      · exact c.yields_transferDirect tx
  | piix4 c =>
      change (c.transfer tx).Yields tx.Returns
      unfold Piix4.transfer
      split
      · unfold Piix4.transferDelegated
        refine .ite (Delegated.yields_transfer _ tx) ?_
        exact .after fun _ => .bind (Delegated.yields_transfer _ tx).outcome fun _ hr =>
          .after fun _ => .ofExcept hr
      · exact c.yields_transferSb800 _ tx
      · exact c.yields_transact tx

/-! ## In a session -/

namespace Session

variable {α β : Type} {P : α → Prop} {Q : β → Prop}

/-- Every result that an operation can come to, whatever is remembered. -/
def Yields (P : α → Prop) (x : Operation α) : Prop :=
  ∀ m, (x.run.run m).Yields fun r => ∀ a, r.1 = .ok a → P a

theorem Yields.bind {x : Operation β} {f : β → Operation α} (hx : Yields Q x)
    (hf : ∀ b, Q b → Yields P (f b)) : Yields P (x >>= f) := fun m => by
  rw [ExceptT.run_bind, StateT.run_bind]
  refine (hx m).bind fun r hr => ?_
  obtain ⟨e | b, m'⟩ := r
  · exact nofun
  · exact hf b (hr b rfl) m'

theorem Yields.after {x : Operation β} {f : β → Operation α} (hf : ∀ b, Yields P (f b)) :
    Yields P (x >>= f) :=
  .bind (Q := fun _ => True) (fun _ => .always (fun _ _ _ => trivial) _) fun b _ => hf b

theorem yields_access {x : Attempt α} (hx : x.Yields P) : Yields P (access x) := fun _ =>
  Access.Yields.bind hx fun _ hr => hr

theorem yields_ofExcept {r : Except Error α} (h : ∀ a, r = .ok a → P a) :
    Yields P (ofExcept r) := fun _ => h

theorem Yields.outcome {x : Operation α} (hx : Yields P x) :
    Yields (fun r => ∀ a, r = .ok a → P a) (outcome x) := fun m => by
  unfold Session.outcome
  rw [ExceptT.run_lift, map_eq_pure_bind, StateT.run_bind]
  exact (hx m).bind fun r hr _ h => Except.ok.inj h ▸ hr

theorem yields_locked {link : Link} {body : Operation α} (hbody : Yields P body) :
    Yields P (locked link body) :=
  .after fun _ => hbody.outcome.bind fun _ hr => .after fun _ => yields_ofExcept hr

/-- What is done with results that never come up makes no difference. -/
theorem Yields.bind_congr {x : Operation β} {f g : β → Operation α} (hx : Yields Q x)
    (h : ∀ b, Q b → f b = g b) : x >>= f = x >>= g := by
  apply ExceptT.ext
  apply StateT.ext
  intro m
  rw [ExceptT.run_bind, ExceptT.run_bind, StateT.run_bind, StateT.run_bind]
  refine (hx m).bind_congr fun r hr => ?_
  obtain ⟨e | b, m'⟩ := r
  · rfl
  · exact congrArg (fun y => y.run.run m') (h b (hr b rfl))

theorem yields_send (link : Link) (tx : Transaction) : Yields tx.Returns (send link tx) :=
  .after fun _ => yields_access (link.controller.yields_transfer tx)

/-- A transaction that succeeds was well-formed. -/
theorem yields_transfer (link : Link) (tx : Transaction) :
    Yields (fun payload => tx.validate = .ok () ∧ tx.Returns payload) (transfer link tx) := by
  have haccept : Yields (fun _ => tx.validate = .ok ()) (accept link tx) :=
    .bind (yields_ofExcept fun _ h => h) fun _ hv _ => .always (fun _ _ _ => hv) _
  exact haccept.bind fun _ hv => .after fun _ => yields_locked <|
    yields_access ((link.controller.yields_transfer tx).mono fun _ hr => ⟨hv, hr⟩)

end Session

open Session

/-- In any state of a session and on any machine: a transaction that succeeds was well-formed and
returns what it asks for; the data of a routine's words lies inside the buffer; and no read of a
byte or a word comes upon anything else. -/
theorem answers_in_shape (s : Session) (tx : Transaction) {σ : Type}
    (step : (request : Request) → σ → request.Answer × σ) (machine : σ) :
    (∀ payload, ((s.run fun link => transfer link tx).run step machine).1.1 = .ok payload →
        tx.validate = .ok () ∧ tx.Returns payload) ∧
      Delegated.Contained tx ∧
      (∀ words data, Delegated.decode tx words = .ok (.block data) → Delegated.Lies words data) ∧
      (∀ slave command (otherwise : Payload → Operation UInt8),
        readByte s.link slave command = (do
          match ← send s.link (.readByteData slave command) with
          | .byte value => return value
          | other => otherwise other)) ∧
      ∀ slave command (otherwise : Payload → Operation UInt16),
        readWord s.link (.readWordData slave command) = (do
          match ← send s.link (.readWordData slave command) with
          | .word value => return value
          | other => otherwise other) := by
  refine ⟨?_, Delegated.contained tx, fun words data h => (Delegated.lies_of_decode h).1,
    fun slave command otherwise => ?_, fun slave command otherwise => ?_⟩
  · have hall : (s.run fun link => transfer link tx).Yields fun r =>
        ∀ payload, r.1 = .ok payload → tx.validate = .ok () ∧ tx.Returns payload :=
      (Session.yields_transfer s.link tx s.memory).bind fun _ hr => hr
    exact hall.run step machine
  · refine (yields_send s.link (.readByteData slave command)).bind_congr fun payload hshape => ?_
    obtain ⟨value, rfl⟩ := hshape
    rfl
  · refine (yields_send s.link (.readWordData slave command)).bind_congr fun payload hshape => ?_
    obtain ⟨value, rfl⟩ := hshape
    rfl

theorem answers_in_shape_prompt : ∃ c,
    ((Controller.init .ich .direct .sample {}).run.run Port.prompt.answer []).1 = .ok c ∧
    ((Session.run ⟨⟨c, {}⟩, .empty⟩ fun link => transfer link (.readByteData 0x50 2)).run
      Port.prompt.answer []).1.1 = .ok (.byte 0) ∧
    (Transaction.readByteData 0x50 2).Returns (.byte 0) ∧
    Delegated.decode (.readBlock 0x50 0) [0x0B0A02] = .ok (.block [0x0A, 0x0B]) ∧
    Delegated.Lies [0x0B0A02] [0x0A, 0x0B] := by
  obtain ⟨c, hc, hbyte⟩ : ∃ c,
      ((Controller.init .ich .direct .sample {}).run.run Port.prompt.answer []).1 = .ok c ∧
      ((Session.run ⟨⟨c, {}⟩, .empty⟩ fun link => transfer link (.readByteData 0x50 2)).run
        Port.prompt.answer []).1.1 = .ok (.byte 0) := ⟨_, rfl, rfl⟩
  exact ⟨c, hc, hbyte, ((answers_in_shape _ _ _ _).1 _ hbyte).2, rfl,
    (answers_in_shape default (.readBlock 0x50 0) Port.prompt.answer []).2.2.1 _ _ rfl⟩

end DimmBus
