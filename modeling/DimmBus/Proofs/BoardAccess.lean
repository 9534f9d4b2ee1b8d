import DimmBus.Controller.Piix4
import DimmBus.Proofs.HostData

/-!
# Accesses to the board around a host

The power-management block and the mailbox beside it, and the rules for the programs that reach
them.
-/

namespace DimmBus

open Access Attempt

/-! ## Register files -/

namespace RegisterFile

variable {n : Nat} [Positive n] {α : Type} (r : RegisterFile n α) (i : Nat) (v w : α)

theorem write_write : (r.write i v).write i w = r.write i w := by
  simp [write, Vector.setIfInBounds_setIfInBounds]

theorem write_read_self : r.write i (r.read i) = r := by
  have h : i % n < n := Nat.mod_lt _ Positive.pos
  unfold write read
  congr 1
  apply Vector.ext
  intro j hj
  rw [Vector.getElem_setIfInBounds hj]
  split
  · rename_i hij
    simp [hij]
  · rfl

theorem read_write_self : (r.write i v).read i = v := by
  rw [read_write, if_pos rfl]

end RegisterFile

namespace Platform

/-- The machine with this power-management block and this mailbox. -/
def equip (p : Platform) (b : PmBlock) (m? : Option Mailbox) : Platform :=
  { p with pm := some b, mailbox := m? }

/-- No host answers at an address, whatever the registers of this one are. -/
def Vacant (p : Platform) (model : HostModel) (base address : UInt16) : Prop :=
  ∀ h : Host, h.Is model base → (p.setHost h).decode? address = none

variable {p : Platform} {h : Host} {g : Segment} {k : Counters} {model : HostModel} {base : UInt16}
  {b : PmBlock} {m? : Option Mailbox} {bad : Error → Platform → Prop}

theorem setHost_equip : (p.equip b m?).setHost h = (p.setHost h).equip b m? := by
  unfold setHost
  split <;> rfl

theorem equip_has (fault : Fault) : (p.equip b m?).has fault = p.has fault := rfl

theorem decode_equip (address : UInt16) : (p.equip b m?).decode? address = p.decode? address := rfl

theorem Exposes.equip (hx : p.Exposes model base) : (p.equip b m?).Exposes model base := by
  intro h hh register hr
  rw [setHost_equip, decode_equip]
  exact hx h hh register hr

theorem put_equip : (p.equip b m?).put h g k = (p.put h g k).equip b m? := by
  unfold put
  rw [setHost_equip]
  rfl

theorem Vacant.decode_put {address : UInt16} (hv : p.Vacant model base address)
    (hh : h.Is model base) : (p.put h g k).decode? address = none := hv h hh

/-! ## Requests -/

/-- The addresses of the power-management block and of the mailbox are not those of a host. -/
structure Board (p : Platform) (model : HostModel) (base : UInt16) : Prop where
  pmIndex : p.Vacant model base Piix4.Pm.index
  pmData : p.Vacant model base Piix4.Pm.data
  imcIndex : p.Vacant model base Piix4.Imc.index
  imcData : p.Vacant model base Piix4.Imc.data

section Answers

variable {m : Mailbox} (value : UInt8)

theorem writeIo_pmIndex (hd : p.decode? Piix4.Pm.index = none) (hw : b.windowOnly = false) :
    (p.equip b m?).writeIo Piix4.Pm.index value = p.equip { b with index := value } m? := by
  rw [writeIo, decode_equip, hd]
  simp [equip, writePm, hw]

theorem readIo_pmData (hd : p.decode? Piix4.Pm.data = none) (hw : b.windowOnly = false) :
    (p.equip b m?).readIo Piix4.Pm.data =
      (b.registers.read b.index.toNat, p.equip b m?) := by
  rw [readIo, decode_equip, hd]
  simp [equip, hw, Option.filter, Piix4.Pm.data, Piix4.Pm.index]

theorem writeIo_pmData (hd : p.decode? Piix4.Pm.data = none) (hw : b.windowOnly = false) :
    (p.equip b m?).writeIo Piix4.Pm.data value =
      p.equip { b with registers := b.registers.write b.index.toNat value } m? := by
  rw [writeIo, decode_equip, hd]
  simp [equip, writePm, hw, Piix4.Pm.data, Piix4.Pm.index]

theorem writeIo_imcIndex (hd : p.decode? Piix4.Imc.index = none) :
    (p.equip b (some m)).writeIo Piix4.Imc.index value =
      p.equip b (some { m with index := value }) := by
  rw [writeIo, decode_equip, hd]
  simp [equip, Piix4.Imc.index, Piix4.Pm.data, Piix4.Pm.index]

theorem readIo_imcData (hd : p.decode? Piix4.Imc.data = none) :
    (p.equip b (some m)).readIo Piix4.Imc.data =
      (m.registers.read m.index.toNat, p.equip b (some m)) := by
  rw [readIo, decode_equip, hd]
  simp [equip, Piix4.Imc.index, Piix4.Imc.data, Piix4.Pm.data, Piix4.Pm.index]

theorem writeIo_imcData (hd : p.decode? Piix4.Imc.data = none) :
    (p.equip b (some m)).writeIo Piix4.Imc.data value =
      { p with counters :=
          { p.counters with handshakes := p.counters.handshakes +
              (if (m.write (p.has .imcSilent) value).2 then 1 else 0) } }.equip b
        (some (m.write (p.has .imcSilent) value).1) := by
  have hhas : (p.equip b (some m)).has .imcSilent = p.has .imcSilent := rfl
  rw [writeIo, decode_equip, hd]
  simp only [writeMailbox, hhas]
  rfl

end Answers

section Rules

variable {m : Mailbox} {value : UInt8} {ok : Unit → Platform → Prop}

theorem ends_writePmIndex (hb : p.Board model base) (hh : h.Is model base)
    (hw : b.windowOnly = false)
    (hok : ok () ((p.equip { b with index := value } m?).put h g k.called)) :
    Ends answer (writeIo8 Piix4.Pm.index value) ((p.equip b m?).put h g k) ok bad := by
  change ok () (((p.equip b m?).put h g k).counted.writeIo Piix4.Pm.index value)
  rw [counted_put, put_equip, writeIo_pmIndex _ (hb.pmIndex.decode_put hh) hw, ← put_equip]
  exact hok

theorem ends_readPmData {ok : UInt8 → Platform → Prop} (hb : p.Board model base)
    (hh : h.Is model base) (hw : b.windowOnly = false)
    (hok : ok (b.registers.read b.index.toNat) ((p.equip b m?).put h g k.called)) :
    Ends answer (readIo8 Piix4.Pm.data) ((p.equip b m?).put h g k) ok bad := by
  change ok (((p.equip b m?).put h g k).counted.readIo Piix4.Pm.data).1
    (((p.equip b m?).put h g k).counted.readIo Piix4.Pm.data).2
  rw [counted_put, put_equip, readIo_pmData (hb.pmData.decode_put hh) hw, ← put_equip]
  exact hok

theorem ends_writePmData (hb : p.Board model base) (hh : h.Is model base)
    (hw : b.windowOnly = false)
    (hok : ok () ((p.equip { b with registers := b.registers.write b.index.toNat value } m?).put h g
      k.called)) :
    Ends answer (writeIo8 Piix4.Pm.data value) ((p.equip b m?).put h g k) ok bad := by
  change ok () (((p.equip b m?).put h g k).counted.writeIo Piix4.Pm.data value)
  rw [counted_put, put_equip, writeIo_pmData _ (hb.pmData.decode_put hh) hw, ← put_equip]
  exact hok

theorem ends_readWindow {ok : UInt32 → Platform → Prop} {physical : UInt64}
    (hok : ok (b.readWindow physical) ((p.equip b m?).put h g k.called)) :
    Ends answer (readMmio32 physical) ((p.equip b m?).put h g k) ok bad := by
  rw [put_equip] at hok ⊢
  exact hok

theorem ends_writeWindow {physical : UInt64}
    (hok : ok () ((p.equip (b.writeWindow physical value) m?).put h g
      { k.called with memoryWrites := k.memoryWrites + 1 })) :
    Ends answer (writeMmio8 physical value) ((p.equip b m?).put h g k) ok bad := by
  rw [put_equip] at hok ⊢
  exact hok

theorem ends_writeImcIndex (hb : p.Board model base) (hh : h.Is model base)
    (hok : ok () ((p.equip b (some { m with index := value })).put h g k.called)) :
    Ends answer (writeIo8 Piix4.Imc.index value) ((p.equip b (some m)).put h g k) ok bad := by
  change ok () (((p.equip b (some m)).put h g k).counted.writeIo Piix4.Imc.index value)
  rw [counted_put, put_equip, writeIo_imcIndex _ (hb.imcIndex.decode_put hh), ← put_equip]
  exact hok

theorem ends_readImcData {ok : UInt8 → Platform → Prop} (hb : p.Board model base)
    (hh : h.Is model base)
    (hok : ok (m.registers.read m.index.toNat) ((p.equip b (some m)).put h g k.called)) :
    Ends answer (readIo8 Piix4.Imc.data) ((p.equip b (some m)).put h g k) ok bad := by
  change ok (((p.equip b (some m)).put h g k).counted.readIo Piix4.Imc.data).1
    (((p.equip b (some m)).put h g k).counted.readIo Piix4.Imc.data).2
  rw [counted_put, put_equip, readIo_imcData (hb.imcData.decode_put hh), ← put_equip]
  exact hok

theorem ends_writeImcData (hb : p.Board model base) (hh : h.Is model base)
    (hok : ∀ k', k'.log = k.log →
      ok () ((p.equip b (some (m.write (p.has .imcSilent) value).1)).put h g k')) :
    Ends answer (writeIo8 Piix4.Imc.data value) ((p.equip b (some m)).put h g k) ok bad := by
  change ok () (((p.equip b (some m)).put h g k).counted.writeIo Piix4.Imc.data value)
  have hk := hok { k.called with handshakes := k.handshakes +
    (if (m.write (p.has .imcSilent) value).2 then 1 else 0) } rfl
  rw [counted_put, put_equip, writeIo_imcData _ (hb.imcData.decode_put hh), put_has]
  rw [put_equip] at hk
  exact hk

end Rules

end Platform

/-! ## Registers of the power-management block -/

namespace Piix4

/-- A register of the block can be reached this way. -/
def PmAccess.Reaches (a : PmAccess) (b : PmBlock) (index : UInt8) : Prop :=
  match a with
  | .indexData => b.windowOnly = false
  | .window => index.toNat < Pm.windowSize

end Piix4

/-- A command, as it is put into the mailbox. -/
theorem Mailbox.write_handshake (m : Mailbox) (silent : Bool) {command : UInt8} {wish : Bool}
    (hw : wish? command = some wish) :
    let m₁ := (write { m with index := Piix4.Imc.argument } silent 0).1
    let m₂ := (write { m₁ with index := Piix4.Imc.command } silent command).1
    let m₃ := (write { m₂ with index := Piix4.Imc.doorbell } silent Piix4.Imc.ring).1
    m₃.asleep = (if silent then m.asleep else wish) ∧
      (0 < Piix4.imcPolls && m₃.registers.read Piix4.Imc.argument.toNat == Piix4.Imc.acknowledged) =
        !silent := by
  have hargument : Piix4.Imc.argument ≠ Piix4.Imc.doorbell := by decide
  have hcommand : Piix4.Imc.command ≠ Piix4.Imc.doorbell := by decide
  have h₁ : Piix4.Imc.doorbell.toNat ≠ Piix4.Imc.argument.toNat := by decide
  have h₂ : Piix4.Imc.command.toNat ≠ Piix4.Imc.argument.toNat := by decide
  have h₃ : Piix4.Imc.doorbell.toNat ≠ Piix4.Imc.command.toNat := by decide
  have hpolls : 0 < Piix4.imcPolls := by decide
  have hack : (0 : UInt8) ≠ Piix4.Imc.acknowledged := by decide
  cases silent <;>
    simp [write, hargument, hcommand, h₁, h₂, h₃, hpolls, hack, hw, RegisterFile.read_write]

namespace PmBlock

theorem readWindow_byte (b : PmBlock) (index : UInt8) (hi : index.toNat < Piix4.Pm.windowSize) :
    LittleEndian.digit (b.readWindow (Piix4.Pm.window + (index &&& ~~~3).toUInt64)).toNat
      (index.toNat % 4) = b.registers.read index.toNat := by
  have hall : ∀ index : UInt8, index.toNat < Piix4.Pm.windowSize →
      inWindow? (Piix4.Pm.window + (index &&& ~~~3).toUInt64) 4 = some (index.toNat / 4 * 4) :=
    forall_byte (by decide +kernel)
  rw [readWindow, hall index hi]
  simp only
  generalize hbs : (List.range 4).map (fun i => b.registers.read (index.toNat / 4 * 4 + i)) = bs
  have hlen : bs.length = 4 := by rw [← hbs]; simp
  have hlt := LittleEndian.ofBytes_lt bs
  rw [hlen] at hlt
  have hlt : LittleEndian.ofBytes bs < 4294967296 := hlt
  have hmod : LittleEndian.ofBytes bs % 2 ^ 32 = LittleEndian.ofBytes bs := by omega
  rw [UInt32.toNat_ofNat', hmod, LittleEndian.digit_ofBytes, ← hbs]
  have hm : index.toNat % 4 < 4 := Nat.mod_lt _ (by decide)
  have hsum : index.toNat / 4 * 4 + index.toNat % 4 = index.toNat := by omega
  simp [List.getD_eq_getElem?_getD, hm, hsum]

theorem writeWindow_byte (b : PmBlock) (index value : UInt8)
    (hi : index.toNat < Piix4.Pm.windowSize) :
    b.writeWindow (Piix4.Pm.window + index.toUInt64) value =
      { b with registers := b.registers.write index.toNat value } := by
  have hall : ∀ index : UInt8, index.toNat < Piix4.Pm.windowSize →
      inWindow? (Piix4.Pm.window + index.toUInt64) 1 = some index.toNat :=
    forall_byte (by decide +kernel)
  rw [writeWindow, hall index hi]

end PmBlock

namespace Piix4

open Platform

variable {p : Platform} {h : Host} {g : Segment} {k : Counters} {model : HostModel} {base : UInt16}
  {b : PmBlock} {m? : Option Mailbox} {bad : Error → Platform → Prop}

theorem PmAccess.ends_read {a : PmAccess} {index : UInt8} {ok : UInt8 → Platform → Prop}
    (hb : p.Board model base) (hh : h.Is model base) (ha : a.Reaches b index)
    (hok : ∀ i k', k'.log = k.log →
      ok (b.registers.read index.toNat) ((p.equip { b with index := i } m?).put h g k')) :
    Ends answer (a.read index) ((p.equip b m?).put h g k) ok bad := by
  cases a with
  | indexData =>
      rw [PmAccess.read, ends_bind]
      refine ends_writePmIndex hb hh ha ?_
      refine ends_readPmData (b := { b with index := index }) hb hh ha ?_
      exact hok _ _ rfl
  | window =>
      rw [PmAccess.read, ends_bind]
      refine ends_readWindow ?_
      rw [ends_pure, PmBlock.readWindow_byte b index ha]
      exact hok b.index _ rfl

theorem PmAccess.ends_write {a : PmAccess} {index value : UInt8} {ok : Unit → Platform → Prop}
    (hb : p.Board model base) (hh : h.Is model base) (ha : a.Reaches b index)
    (hok : ∀ i k', k'.log = k.log →
      ok ()
        ((p.equip { b with registers := b.registers.write index.toNat value, index := i } m?).put
          h g k')) :
    Ends answer (a.write index value) ((p.equip b m?).put h g k) ok bad := by
  cases a with
  | indexData =>
      rw [PmAccess.write, ends_bind]
      refine ends_writePmIndex hb hh ha ?_
      refine ends_writePmData (b := { b with index := index }) hb hh ha ?_
      exact hok _ _ rfl
  | window =>
      refine ends_writeWindow ?_
      rw [PmBlock.writeWindow_byte b index value ha]
      exact hok b.index _ rfl

/-! ## Commands to the micro-controller -/

theorem ends_writeMailbox {m : Mailbox} {index value : UInt8} {ok : Unit → Platform → Prop}
    (hb : p.Board model base) (hh : h.Is model base)
    (hok : ∀ k', k'.log = k.log → ok () ((p.equip b
      (some (Mailbox.write { m with index := index } (p.has .imcSilent) value).1)).put h g k')) :
    Ends answer (Piix4.writeMailbox index value) ((p.equip b (some m)).put h g k) ok bad := by
  rw [Piix4.writeMailbox, ends_bind]
  refine ends_writeImcIndex hb hh ?_
  exact ends_writeImcData hb hh hok

theorem ends_awaitImc {m : Mailbox} {n : Nat} {ok : Bool → Platform → Prop}
    (hb : p.Board model base) (hh : h.Is model base)
    (hok : ∀ i k', k'.log = k.log →
      ok (0 < n && m.registers.read Imc.argument.toNat == Imc.acknowledged)
        ((p.equip b (some { m with index := i })).put h g k')) :
    Ends answer (awaitImc n) ((p.equip b (some m)).put h g k) ok bad := by
  induction n generalizing m k with
  | zero => exact hok m.index k rfl
  | succ n ih =>
      rw [awaitImc, ends_bind]
      refine ends_writeImcIndex hb hh ?_
      rw [ends_bind]
      refine ends_readImcData (m := { m with index := Imc.argument }) hb hh ?_
      simp only
      split
      · rename_i hack
        have hk := hok Imc.argument k.called.called rfl
        rw [hack] at hk
        exact hk
      · rename_i hack
        have hne : (m.registers.read Imc.argument.toNat == Imc.acknowledged) = false := by
          simpa using hack
        rw [hne, Bool.and_false] at hok
        rw [ends_bind]
        refine ends_sleep (ih (m := { m with index := Imc.argument }) fun i k' hlog => ?_)
        simp only [hne, Bool.and_false]
        exact hok i k' hlog

theorem ends_imcCommand_iff {command : UInt8} {s : Platform} {ok : Bool → Platform → Prop} :
    Ends answer (ExceptT.lift (imcCommand command)) s ok bad ↔
      Ends answer (imcHandshake command) s ok (fun _ => ok false) := by
  rw [ends_lift, imcCommand, Access.run_bind]
  unfold Ends
  rcases (imcHandshake command).run.run answer s with ⟨e | acknowledged, s'⟩ <;> rfl

/-- The micro-controller carries a command out unless it is silent. -/
theorem ends_imcCommand {m : Mailbox} {command : UInt8} {wish : Bool} {ok : Bool → Platform → Prop}
    (hb : p.Board model base) (hh : h.Is model base) (hw : Mailbox.wish? command = some wish)
    (hok : ∀ m' k', k'.log = k.log →
      m'.asleep = (if p.has .imcSilent then m.asleep else wish) →
      ok (!p.has .imcSilent) ((p.equip b (some m')).put h g k')) :
    Ends answer (ExceptT.lift (imcCommand command)) ((p.equip b (some m)).put h g k) ok bad := by
  rw [ends_imcCommand_iff, imcHandshake]
  simp only [ends_bind]
  refine ends_writeMailbox hb hh fun k₁ hlog₁ => ?_
  refine ends_writeMailbox hb hh fun k₂ hlog₂ => ?_
  refine ends_writeMailbox hb hh fun k₃ hlog₃ => ?_
  refine ends_awaitImc hb hh fun i k₄ hlog₄ => ?_
  obtain ⟨hasleep, hack⟩ := Mailbox.write_handshake m (p.has .imcSilent) hw
  rw [hack]
  exact hok _ _ (by rw [hlog₄, hlog₃, hlog₂, hlog₁]) hasleep

end Piix4

end DimmBus
