import DimmBus.CommandLine.Program
import DimmBus.Proofs.Requests

/-!
# Transactions that are in order

What is accepted is what the constructors build, as long as the slave and the block keep to their
bounds; and the command line builds nothing else.
-/

namespace DimmBus

namespace Transaction

/-- What the constructors build. -/
inductive Constructed : Transaction → Prop
  | quick (slave : UInt8) (direction : Direction) : Constructed (quick slave direction)
  | readByte (slave : UInt8) : Constructed (readByte slave)
  | writeByte (slave value : UInt8) : Constructed (writeByte slave value)
  | readByteData (slave command : UInt8) : Constructed (readByteData slave command)
  | writeByteData (slave command value : UInt8) : Constructed (writeByteData slave command value)
  | readWordData (slave command : UInt8) : Constructed (readWordData slave command)
  | writeWordData (slave command : UInt8) (value : UInt16) :
      Constructed (writeWordData slave command value)
  | procCall (slave command : UInt8) (value : UInt16) : Constructed (procCall slave command value)
  | readBlock (slave command : UInt8) : Constructed (readBlock slave command)
  | writeBlock (slave command : UInt8) (data : List UInt8) :
      Constructed (writeBlock slave command data)
  | blockProcCall (slave command : UInt8) (data : List UInt8) :
      Constructed (blockProcCall slave command data)

/-- The slave address has seven bits, and a block has 1 to 32 bytes. -/
structure InBounds (tx : Transaction) : Prop where
  slave : tx.slave ≤ 0x7F
  block : ∀ data, tx.payload = .block data → 1 ≤ data.length ∧ data.length ≤ 32

/-- The same but for packet error checking and for a command that is not on the wire. -/
structure Matches (tx tx' : Transaction) : Prop where
  slave : tx.slave = tx'.slave
  direction : tx.direction = tx'.direction
  protocol : tx.protocol = tx'.protocol
  payload : tx.payload = tx'.payload
  command : tx.hasCommand → tx.command = tx'.command

variable {tx tx' : Transaction} {e : Error}

/-! ## Shapes -/

theorem Constructed.fits (h : Constructed tx) : tx.fits = true := by
  cases h <;> rfl

theorem Matches.fits (h : tx.Matches tx') : tx.fits = tx'.fits := by
  simp only [Transaction.fits, h.direction, h.protocol, h.payload]

theorem matches_pec {slave command : UInt8} {direction : Direction} {protocol : Protocol}
    {payload : Payload} {pec : Bool} :
    Matches ⟨slave, direction, command, protocol, payload, pec⟩
      ⟨slave, direction, command, protocol, payload, false⟩ where
  slave := rfl
  direction := rfl
  protocol := rfl
  payload := rfl
  command _ := rfl

theorem exists_constructed (h : tx.fits = true) :
    ∃ tx', Constructed tx' ∧ tx.Matches tx' := by
  obtain ⟨slave, direction, command, protocol, payload, pec⟩ := tx
  -- What does not fit has no case left; all else is one of the constructors.
  cases protocol <;> cases direction <;> cases payload <;> try cases h
  case quick.write.none => exact ⟨_, .quick slave .write, rfl, rfl, rfl, rfl, nofun⟩
  case quick.read.none => exact ⟨_, .quick slave .read, rfl, rfl, rfl, rfl, nofun⟩
  case byte.write.none => exact ⟨_, .writeByte slave command, matches_pec⟩
  case byte.read.none => exact ⟨_, .readByte slave, rfl, rfl, rfl, rfl, nofun⟩
  case byteData.write.byte value => exact ⟨_, .writeByteData slave command value, matches_pec⟩
  case byteData.read.none => exact ⟨_, .readByteData slave command, matches_pec⟩
  case wordData.write.word value => exact ⟨_, .writeWordData slave command value, matches_pec⟩
  case wordData.read.none => exact ⟨_, .readWordData slave command, matches_pec⟩
  case procCall.write.word value => exact ⟨_, .procCall slave command value, matches_pec⟩
  case blockData.write.block data => exact ⟨_, .writeBlock slave command data, matches_pec⟩
  case blockData.read.none => exact ⟨_, .readBlock slave command, matches_pec⟩
  case blockProcCall.write.block data => exact ⟨_, .blockProcCall slave command data, matches_pec⟩

/-- The data fits the shape just as the constructors would have it. -/
theorem fits_iff_constructed : tx.fits = true ↔ ∃ tx', Constructed tx' ∧ tx.Matches tx' := by
  constructor
  · exact exists_constructed
  · rintro ⟨tx', hc, hm⟩
    rw [hm.fits, hc.fits]

/-! ## Bounds -/

theorem Matches.inBounds (h : tx.Matches tx') : tx.InBounds ↔ tx'.InBounds := by
  constructor
  · rintro ⟨hs, hb⟩
    exact ⟨h.slave ▸ hs, h.payload ▸ hb⟩
  · rintro ⟨hs, hb⟩
    exact ⟨h.slave ▸ hs, h.payload ▸ hb⟩

theorem inBounds_of_validate (h : tx.validate = .ok ()) : tx.InBounds where
  slave := slave_le_of_validate h
  block data hp := by
    obtain ⟨hne, hle⟩ := length_of_validate h hp
    exact ⟨List.length_pos_iff.mpr hne, hle⟩

theorem validate_of_inBounds (hf : tx.fits = true) (h : tx.InBounds) : tx.validate = .ok () := by
  have hs : ¬0x7F < tx.slave := UInt8.not_lt.mpr h.slave
  simp only [validate, hs, hf, if_true, if_false]
  cases hp : tx.payload with
  | block data =>
      obtain ⟨hne, hle⟩ := h.block data hp
      have hlength : (data.isEmpty || maxBlock < data.length) = false := by
        cases data with
        | nil => cases hne
        | cons => simpa [maxBlock, Nat.lt_succ_iff] using hle
      simp [hlength]
  | _ => rfl

theorem validate_eq_ok_iff : tx.validate = .ok () ↔ tx.fits = true ∧ tx.InBounds := by
  constructor
  · intro h
    exact ⟨fits_of_validate h, inBounds_of_validate h⟩
  · rintro ⟨hf, hb⟩
    exact validate_of_inBounds hf hb

theorem param_of_validate (h : tx.validate = .error e) : ∃ cause, e = .param cause := by
  unfold validate at h
  repeat' split at h
  all_goals cases h
  all_goals exact ⟨_, rfl⟩

end Transaction

/-! ## The command line -/

namespace CommandLine

open Transaction

variable {slave command : UInt8} {shape : Protocol} {value : Option String} {tx : Transaction}

theorem constructed_readingOf (h : readingOf slave shape command = .ok tx) :
    Constructed tx ∧ tx.slave = slave := by
  cases shape <;> cases h
  case quick => exact ⟨.quick slave .read, rfl⟩
  case byte => exact ⟨.readByte slave, rfl⟩
  case byteData => exact ⟨.readByteData slave command, rfl⟩
  case wordData => exact ⟨.readWordData slave command, rfl⟩
  case blockData => exact ⟨.readBlock slave command, rfl⟩

theorem constructed_map {α : Type} {read : Except BadValue α} {build : α → Transaction}
    (hb : ∀ a, Constructed (build a) ∧ (build a).slave = slave)
    (h : read.map build = .ok tx) : Constructed tx ∧ tx.slave = slave := by
  cases read with
  | error bad => cases h
  | ok a =>
      cases h
      exact hb a

theorem constructed_writingOf {text : String}
    (h : writingOf slave shape command text = .ok tx) : Constructed tx ∧ tx.slave = slave := by
  cases shape with
  | quick =>
      cases h
      exact ⟨.quick slave .write, rfl⟩
  | byte => exact constructed_map (fun value => ⟨.writeByte slave value, rfl⟩) h
  | byteData => exact constructed_map (fun value => ⟨.writeByteData slave command value, rfl⟩) h
  | wordData => exact constructed_map (fun value => ⟨.writeWordData slave command value, rfl⟩) h
  | procCall => exact constructed_map (fun value => ⟨.procCall slave command value, rfl⟩) h
  | blockData => exact constructed_map (fun data => ⟨.writeBlock slave command data, rfl⟩) h
  | blockProcCall =>
      exact constructed_map (fun data => ⟨.blockProcCall slave command data, rfl⟩) h

theorem constructed_transactionOf (h : transactionOf slave shape command value = .ok tx) :
    Constructed tx ∧ tx.slave = slave := by
  cases value with
  | none => exact constructed_readingOf h
  | some text =>
      cases hw : writingOf slave shape command text with
      | error bad =>
          rw [transactionOf, hw] at h
          cases h
      | ok tx' =>
          rw [transactionOf, hw] at h
          cases h
          exact constructed_writingOf hw

end CommandLine

/-! ## What is accepted -/

/-- A transaction is accepted if and only if it matches one that a constructor builds within the
bounds, and every rejection is of a parameter. The command line builds transactions for the slave
that it is given, and they are accepted if and only if they keep to the bounds. -/
theorem accepts_what_is_constructed :
    (∀ tx : Transaction, tx.validate = .ok () ↔
      ∃ tx', tx'.Constructed ∧ tx'.InBounds ∧ tx.Matches tx') ∧
    (∀ (tx : Transaction) (e : Error), tx.validate = .error e → ∃ cause, e = .param cause) ∧
    ∀ slave shape command value tx,
      CommandLine.transactionOf slave shape command value = .ok tx →
      tx.slave = slave ∧ (tx.validate = .ok () ↔ tx.InBounds) := by
  refine ⟨?_, ?_, ?_⟩
  · intro tx
    rw [Transaction.validate_eq_ok_iff, Transaction.fits_iff_constructed]
    constructor
    · rintro ⟨⟨tx', hc, hm⟩, hb⟩
      exact ⟨tx', hc, hm.inBounds.mp hb, hm⟩
    · rintro ⟨tx', hc, hb, hm⟩
      exact ⟨⟨tx', hc, hm⟩, hm.inBounds.mpr hb⟩
  · intro tx e h
    exact Transaction.param_of_validate h
  · intro slave shape command value tx h
    obtain ⟨hc, hslave⟩ := CommandLine.constructed_transactionOf h
    refine ⟨hslave, ?_⟩
    rw [Transaction.validate_eq_ok_iff]
    simp [hc.fits]

/-- A block that is built from text, and a quick command for an address of eight bits. -/
theorem accepts_what_is_constructed_text :
    let block := Transaction.writeBlock 0x50 0x10 [1, 2]
    let quick := Transaction.quick 0x80 .read
    CommandLine.transactionOf 0x50 .blockData 0x10 (some "1, 0x02") = .ok block ∧
      block.InBounds ∧ block.validate = .ok () ∧
    CommandLine.transactionOf 0x80 .quick 0x10 none = .ok quick ∧
      ¬quick.InBounds ∧ quick.validate = .error (.param (.slave 0x80)) ∧
      ∃ cause, Error.param (.slave 0x80) = .param cause := by
  intro block quick
  obtain ⟨-, hparam, hbuilt⟩ := accepts_what_is_constructed
  have hblock : CommandLine.transactionOf 0x50 .blockData 0x10 (some "1, 0x02") = .ok block := by
    rfl
  have hquick : CommandLine.transactionOf 0x80 .quick 0x10 none = .ok quick := rfl
  have hin : block.InBounds := ⟨by decide, by rintro data ⟨⟩; decide⟩
  have hbad : quick.validate = .error (.param (.slave 0x80)) := rfl
  have hout : ¬quick.InBounds := by
    intro hb
    have hok := (hbuilt _ _ _ _ quick hquick).2.mpr hb
    cases hbad.symm.trans hok
  exact ⟨hblock, hin, (hbuilt _ _ _ _ block hblock).2.mpr hin, hquick, hout, hbad,
    hparam quick _ hbad⟩

end DimmBus
