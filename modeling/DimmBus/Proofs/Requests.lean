import DimmBus.Platform.Segment
import DimmBus.Transaction.Validate

/-!
# What a transaction asks of the bus

The operation on the bus that a transaction stands for, and what comes back from it. The slaves look
only at the fields that the protocol carries.
-/

namespace DimmBus

/-- Whatever holds of all values of eight bits holds of a byte. -/
theorem forall_byte {P : UInt8 → Prop} (h : ∀ n : BitVec 8, P ⟨n⟩) (value : UInt8) : P value :=
  h value.toBitVec

namespace Transaction

/-- Whether the protocol has a command byte on the wire. A sent byte counts as one. -/
def hasCommand (tx : Transaction) : Bool :=
  match tx.protocol, tx.direction with
  | .quick, _ | .byte, .read => false
  | _, _ => true

/-- The operation that the transaction stands for. -/
def request (tx : Transaction) : Transfer where
  slave := tx.slave
  direction := tx.direction
  command := tx.command
  protocol := tx.protocol
  word :=
    match tx.payload with
    | .byte value => LittleEndian.word value 0
    | .word value => value
    | _ => 0
  block := tx.payload.asBlock.getD []

/-- Whether the transaction is a process call to the page latches, which answer with nothing. -/
def callsLatch (tx : Transaction) : Bool :=
  (tx.protocol = .procCall ∨ tx.protocol = .blockProcCall) ∧ Segment.isLatch tx.slave

/-- Whether a reply has the shape that the transaction reads back. Blocks have their full length. -/
def Expects (tx : Transaction) (reply : Reply) : Prop :=
  if tx.readsBack then
    match tx.protocol with
    | .quick => reply = .ack
    | .byte | .byteData => ∃ value, reply = .byte value
    | .wordData | .procCall => ∃ value, reply = .word value
    | .blockData | .blockProcCall => ∃ data, reply = .block data ∧ data.length = maxBlock
  else reply = .ack

theorem slave_le_of_validate {tx : Transaction} (h : tx.validate = .ok ()) : tx.slave ≤ 0x7F := by
  unfold validate at h
  split at h
  · cases h
  · rename_i hs
    exact UInt8.not_lt.mp hs

theorem fits_of_validate {tx : Transaction} (h : tx.validate = .ok ()) : tx.fits = true := by
  unfold validate at h
  split at h
  · cases h
  · split at h
    · assumption
    · cases h

theorem length_of_validate {tx : Transaction} {data : List UInt8} (h : tx.validate = .ok ())
    (hp : tx.payload = .block data) : data ≠ [] ∧ data.length ≤ maxBlock := by
  unfold validate at h
  simp only [hp] at h
  split at h
  · cases h
  · split at h
    · split at h
      · cases h
      · rename_i hl
        simpa using hl
    · cases h

end Transaction

/-- An operation has all that a transaction puts on the wire. -/
structure Transfer.Carries (t : Transfer) (tx : Transaction) : Prop where
  slave : t.slave = tx.slave
  direction : t.direction = tx.direction
  protocol : t.protocol = tx.protocol
  command : tx.hasCommand → t.command = tx.command
  byte : ∀ value, tx.payload = .byte value → LittleEndian.low t.word = value
  word : ∀ value, tx.payload = .word value → t.word = value
  block : ∀ data, tx.payload = .block data → t.block = data

theorem Transaction.request_carries (tx : Transaction) : tx.request.Carries tx where
  slave := rfl
  direction := rfl
  protocol := rfl
  command _ := rfl
  byte value h := by simp [request, h, LittleEndian.low_word]
  word value h := by simp [request, h]
  block data h := by simp [request, h, Payload.asBlock]

/-- The payload that stands for a reply. -/
def Reply.payload : Reply → Payload
  | .ack => .none
  | .byte value => .byte value
  | .word value => .word value
  | .block data => .block data

namespace Segment

/-- What a slave makes of an operation depends on nothing but what the protocol carries. -/
theorem serve_congr {t : Transfer} {tx : Transaction} (slave : Slave) (page : UInt8)
    (hf : tx.fits = true) (h : t.Carries tx) :
    serve slave page t = serve slave page tx.request := by
  obtain ⟨address, direction, command, protocol, payload, pec⟩ := tx
  obtain ⟨-, hd, hp, hc, hb, hw, hk⟩ := h
  have hr := Transaction.request_carries ⟨address, direction, command, protocol, payload, pec⟩
  simp only [serve, hd, hp, hr.direction, hr.protocol]
  cases protocol <;> cases direction <;> cases payload <;>
    simp_all [Transaction.fits, Transaction.hasCommand, Transaction.request, Payload.asBlock,
      LittleEndian.low_word]

theorem execute_congr {t : Transfer} {tx : Transaction} (g : Segment) (hf : tx.fits = true)
    (h : t.Carries tx) : g.execute t = g.execute tx.request := by
  have hr := tx.request_carries
  simp only [execute, h.slave, h.direction, hr.slave, hr.direction]
  congr 2
  funext slave
  rw [serve_congr slave g.page hf h]

end Segment

namespace Slave

theorem length_readBytes (s : Slave) (page command : UInt8) (n : Nat) :
    (s.readBytes page command n).1.length = n := by
  induction n generalizing s command with
  | zero => rfl
  | succ n ih => simp [readBytes, ih]

end Slave

namespace Segment

theorem serve_expected {tx : Transaction} (slave : Slave) (page : UInt8) (hf : tx.fits = true) :
    tx.Expects (serve slave page tx.request).1 := by
  obtain ⟨address, direction, command, protocol, payload, pec⟩ := tx
  cases protocol <;> cases direction <;> cases payload <;>
    simp_all [Transaction.fits, Transaction.Expects, Transaction.readsBack, Transaction.request,
      serve, Slave.length_readBytes]

theorem execute_expected {tx : Transaction} {g : Segment} {reply : Reply} (hf : tx.fits = true)
    (hl : tx.callsLatch = false) (h : (g.execute tx.request).1 = some reply) :
    tx.Expects reply := by
  unfold execute at h
  split at h
  · rename_i hlatch
    split at h
    · cases h
    · rename_i hd
      cases h
      have hw : tx.readsBack = false := by
        simp_all [Transaction.callsLatch, Transaction.readsBack, Transaction.request]
      simp [Transaction.Expects, hw]
  · split at h
    · cases h
    · rename_i slave hs
      cases h
      exact serve_expected slave g.page hf

end Segment

end DimmBus
