import DimmBus.Proofs.SemaphoreReturn

/-!
# The micro-controller is woken

A transaction wakes the micro-controller that it has sent to sleep also when accesses fail. It stays
asleep if it cannot be woken, and if the command to sleep is given but the first look for the
acknowledgement fails: then it is not taken to be asleep, and nobody wakes it.
-/

namespace DimmBus

open Access Attempt HostRegister Platform
open Request (Touches Board Mail)

/-- One of the calls is an access that failed. -/
def Broken (calls : List Call) : Prop := ∃ call ∈ calls, call.failedAt?.isSome = true

theorem Broken.right {before after : List Call} (h : Broken after) : Broken (before ++ after) :=
  h.imp fun _ h => ⟨List.mem_append_right before h.1, h.2⟩

/-! ## The mailbox -/

theorem Mailbox.asleep_write (m : Mailbox) {index : UInt8} (hi : index ≠ Piix4.Imc.doorbell)
    (silent : Bool) (value : UInt8) :
    (write { m with index } silent value).1.asleep = m.asleep := by
  simp [write, hi]

namespace Platform

variable {p q : Platform} {m : Mailbox} {calls : List Call}

/-- Calls that do not write to the data address move the index at most. -/
theorem Evolves.pointed (he : p.Evolves calls q) (hp : p.Sited) (hm : p.mailbox = some m)
    (ha : Avoids [Piix4.Imc.data] calls) : ∃ i, q.mailbox = some { m with index := i } := by
  refine (he.keeps (P := fun q => q.Sited ∧ ∃ i, q.mailbox = some { m with index := i }) ha
    (fun p request hr h => ?_) ⟨hp, m.index, hm⟩).2
  obtain ⟨hp, i, hm⟩ := h
  refine ⟨sited_of_hosts hp (hp.places request), ?_⟩
  by_cases hindex : ∃ value, request = .writeIo8 Piix4.Imc.index value
  · obtain ⟨value, rfl⟩ := hindex
    exact ⟨value, hp.mailbox_index hm value⟩
  · refine ⟨i, (mailbox_answer fun address ha value heq => ?_).trans hm⟩
    obtain rfl | ha := List.mem_cons.mp ha
    · exact hindex ⟨value, heq⟩
    · exact hr address ha value heq

end Platform

namespace Piix4

variable {c : Piix4} {s : Sb800} {tx : Transaction} {p q : Platform} {m : Mailbox}
  {calls : List Call}

/-! ## Commands -/

/-- A command is given: all that is written up to the ring of the doorbell is granted. -/
def rung (command : UInt8) : List Call := [
  ⟨.writeIo8 Imc.index Imc.argument, .ok ()⟩, ⟨.writeIo8 Imc.data 0, .ok ()⟩,
  ⟨.writeIo8 Imc.index Imc.command, .ok ()⟩, ⟨.writeIo8 Imc.data command, .ok ()⟩,
  ⟨.writeIo8 Imc.index Imc.doorbell, .ok ()⟩, ⟨.writeIo8 Imc.data Imc.ring, .ok ()⟩]

/-- A command is given, and the first look for its acknowledgement fails. -/
inductive Unanswered (command : UInt8) : List Call → Prop
  | unaddressed (e : Error) :
      Unanswered command (rung command ++ [⟨.writeIo8 Imc.index Imc.argument, .error e⟩])
  | unread (e : Error) : Unanswered command (rung command ++
      [⟨.writeIo8 Imc.index Imc.argument, .ok ()⟩, ⟨.readIo8 Imc.data, .error e⟩])

theorem Unanswered.not_acknowledges {command : UInt8} (h : Unanswered command calls) :
    ¬ Acknowledges calls := by
  cases h <;> simp [Acknowledges, rung]

theorem broken_write {address : UInt16} {value : UInt8} {e : Error} :
    Broken [⟨.writeIo8 address value, .error e⟩] := ⟨_, List.mem_cons_self, rfl⟩

/-- A register of the mailbox is written, or an access fails and only the index may have moved. -/
theorem posted {α : Type} {index value : UInt8} {next : Unit → Attempt α} {r : Except Error α}
    (hp : p.Sited) (hm : p.mailbox = some m) (h : (writeMailbox index value >>= next).Path calls r)
    (he : p.Evolves calls q) :
    Broken calls ∧ (∃ i, q.mailbox = some { m with index := i }) ∨
    ∃ (rest : List Call) (q' : Platform),
      calls = [⟨.writeIo8 Imc.index index, .ok ()⟩, ⟨.writeIo8 Imc.data value, .ok ()⟩] ++ rest ∧
      (next ()).Path rest r ∧ q'.Evolves rest q ∧ q'.Sited ∧
      q'.has .imcSilent = p.has .imcSilent ∧
      q'.mailbox = some (Mailbox.write { m with index } (p.has .imcSilent) value).1 := by
  obtain ⟨e, hpost, -⟩ | ⟨_, before, rest, q', rfl, hpost, hposted, hrest, he⟩ := he.path_bind h
  · left
    obtain ⟨e, hfirst, -⟩ | ⟨_, _, _, q₁, rfl, hfirst, he₁, hsecond, he⟩ := he.path_bind hpost
    · rw [path_writeIo8.mp hfirst] at he ⊢
      obtain ⟨-, rfl⟩ | ⟨⟨⟩, -⟩ := he.write
      exact ⟨broken_write, m.index, hm⟩
    · rw [path_writeIo8.mp hfirst] at he₁
      rw [path_writeIo8.mp hsecond] at he ⊢
      obtain ⟨⟨_, ⟨⟩⟩, -⟩ | ⟨-, rfl⟩ := he₁.write
      obtain ⟨-, rfl⟩ | ⟨⟨⟩, -⟩ := he.write
      exact ⟨broken_write.right, index, hp.mailbox_index hm index⟩
  · right
    have hp' := hposted.sited hp
    have hhas := hposted.has .imcSilent
    obtain ⟨e, -, ⟨⟩⟩ | ⟨_, _, _, q₁, rfl, hfirst, hwrite₁, hsecond, hwrite₂⟩ :=
      hposted.path_bind hpost
    have hhas₁ := hwrite₁.has .imcSilent
    have hp₁ := hwrite₁.sited hp
    rw [path_writeIo8.mp hfirst] at hwrite₁ ⊢
    rw [path_writeIo8.mp hsecond] at hwrite₂ ⊢
    obtain ⟨⟨_, ⟨⟩⟩, -⟩ | ⟨-, rfl⟩ := hwrite₁.write
    obtain ⟨⟨_, ⟨⟩⟩, -⟩ | ⟨-, rfl⟩ := hwrite₂.write
    refine ⟨rest, _, rfl, hrest, he, hp', hhas, ?_⟩
    rw [hp₁.mailbox_data (hp.mailbox_index hm index) value, hhas₁]

theorem only_awaitImc (n : Nat) : (awaitImc n).Only (Request.Avoids [Imc.data]) := by
  have hsleep : Request.Avoids [Imc.data] (.sleep imcQuantumUs) := nofun
  have hread : Request.Avoids [Imc.data] (.readIo8 Imc.data) := nofun
  have hwrite : Request.Avoids [Imc.data] (.writeIo8 Imc.index Imc.argument) := by
    rintro _ ha value heq
    cases heq
    exact absurd ha (by decide)
  induction n with
  | zero => exact .pure _
  | succ n ih =>
      exact .bind (only_writeIo8 hwrite) fun _ => .bind (only_readIo8 hread) fun _ =>
        .ite (.pure _) (.bind (only_sleep hsleep) fun _ => ih)

/-- The first look finds an acknowledgement that is there, unless it fails. -/
theorem heard {n : Nat} {r : Except Error Bool} (hp : p.Sited) (hm : p.mailbox = some m)
    (hack : m.registers.read Imc.argument.toNat = Imc.acknowledged)
    (h : (awaitImc (n + 1)).Path calls r) (he : p.Evolves calls q) :
    r = .ok true ∨ (∃ e, calls = [⟨.writeIo8 Imc.index Imc.argument, .error e⟩]) ∨
      ∃ e, calls = [⟨.writeIo8 Imc.index Imc.argument, .ok ()⟩, ⟨.readIo8 Imc.data, .error e⟩] := by
  obtain ⟨e, hfirst, -⟩ | ⟨_, _, rest, q₁, rfl, hfirst, he₁, h, he⟩ := he.path_bind h
  · exact .inr (.inl ⟨e, path_writeIo8.mp hfirst⟩)
  rw [path_writeIo8.mp hfirst] at he₁ ⊢
  have hp₁ := he₁.sited hp
  obtain ⟨⟨_, ⟨⟩⟩, -⟩ | ⟨-, rfl⟩ := he₁.write
  have hm₁ := hp.mailbox_index hm Imc.argument
  obtain ⟨e, hsecond, -⟩ | ⟨answer, _, rest, q₂, rfl, hsecond, he₂, h, he⟩ := he.path_bind h
  · exact .inr (.inr ⟨e, by rw [path_readIo8.mp hsecond]; rfl⟩)
  rw [path_readIo8.mp hsecond] at he₂
  obtain ⟨⟨_, ⟨⟩⟩, -⟩ | ⟨hanswer, -⟩ := he₂.read
  have hanswer : answer = Imc.acknowledged :=
    (Except.ok.inj (hanswer.trans (hp₁.mailbox_read hm₁))).trans hack
  rw [if_pos hanswer] at h
  exact .inl (path_pure.mp h).2

/-- A command is not carried out, by a silent micro-controller or because an access failed, or it is
carried out and acknowledged, or the first look for the acknowledgement fails. -/
theorem commanded {command : UInt8} {wish acknowledged : Bool} (hp : p.Sited)
    (hm : p.mailbox = some m) (hw : Mailbox.wish? command = some wish)
    (h : (imcCommand command).Path calls acknowledged) (he : p.Evolves calls q) :
    q.mailboxAsleep? = some m.asleep ∧ (p.has .imcSilent = true ∨ Broken calls) ∨
    q.mailboxAsleep? = some wish ∧ p.has .imcSilent = false ∧
      (Acknowledges calls ∨ Unanswered command calls) := by
  have hack := (acknowledged_imcCommand h).2
  obtain ⟨r, hshake, hr⟩ := path_imcCommand h
  have hleft : ∀ {m' : Mailbox}, m'.asleep = m.asleep →
      (∃ i, q.mailbox = some { m' with index := i }) → q.mailboxAsleep? = some m.asleep :=
    fun hasleep ⟨i, hq⟩ => by rw [mailboxAsleep?, hq, Option.map_some, hasleep]
  -- Before the doorbell nothing is carried out.
  obtain ⟨hbroken, hq⟩ | ⟨_, q₁, rfl, hshake, he, hp₁, hhas₁, hm₁⟩ := posted hp hm hshake he
  · exact .inl ⟨hleft rfl hq, .inr hbroken⟩
  have hargument : Imc.argument ≠ Imc.doorbell := by decide
  have hasleep₁ := m.asleep_write hargument (p.has .imcSilent) 0
  obtain ⟨hbroken, hq⟩ | ⟨_, q₂, rfl, hshake, he, hp₂, hhas₂, hm₂⟩ := posted hp₁ hm₁ hshake he
  · exact .inl ⟨hleft hasleep₁ hq, .inr hbroken.right⟩
  rw [hhas₁] at hm₂ hhas₂
  have hcommand : Imc.command ≠ Imc.doorbell := by decide
  have hasleep₂ :=
    (Mailbox.asleep_write _ hcommand (p.has .imcSilent) command).trans hasleep₁
  obtain ⟨hbroken, hq⟩ | ⟨_, q₃, rfl, hshake, he, hp₃, -, hm₃⟩ := posted hp₂ hm₂ hshake he
  · exact .inl ⟨hleft hasleep₂ hq, .inr hbroken.right.right⟩
  rw [hhas₂] at hm₃
  obtain ⟨hasleep₃, hread⟩ := Mailbox.write_handshake m (p.has .imcSilent) hw
  obtain ⟨i, hq⟩ := he.pointed hp₃ hm₃ ((only_awaitImc _).path hshake)
  have hend : q.mailboxAsleep? = some (if p.has .imcSilent = true then m.asleep else wish) := by
    rw [mailboxAsleep?, hq, Option.map_some, ← hasleep₃]
  cases hsilent : p.has .imcSilent with
  | true =>
      rw [if_pos hsilent] at hend
      exact .inl ⟨hend, .inl rfl⟩
  | false =>
      rw [if_neg (by simp [hsilent])] at hend
      obtain ⟨-, hthere⟩ := Bool.and_eq_true_iff.mp (hread.trans (by rw [hsilent]; rfl))
      refine .inr ⟨hend, rfl, ?_⟩
      obtain hr' | ⟨e, rfl⟩ | ⟨e, rfl⟩ := heard hp₃ hm₃ (beq_iff_eq.mp hthere) hshake he
      · exact .inl (hack.mp (hr.mpr hr'))
      · exact .inr (.unaddressed e)
      · exact .inr (.unread e)

/-! ## Around the commands -/

theorem avoids_write {address : UInt16} (ha : address ∉ [Imc.index, Imc.data]) (value : UInt8) :
    Request.Avoids [Imc.index, Imc.data] (.writeIo8 address value) := by
  rintro _ hm value' heq
  cases heq
  exact ha hm

namespace PmAccess

variable (pm : PmAccess) (index value : UInt8)

theorem read_avoids : (pm.read index).Only (Request.Avoids [Imc.index, Imc.data]) := by
  have hread : Request.Avoids [Imc.index, Imc.data] (.readIo8 Pm.data) := nofun
  have hmmio : ∀ physical, Request.Avoids [Imc.index, Imc.data] (.readMmio32 physical) :=
    fun _ => nofun
  cases pm with
  | indexData =>
      exact .bind (only_writeIo8 (avoids_write (by decide) _)) fun _ => only_readIo8 hread
  | window => exact .bind (only_readMmio32 (hmmio _)) fun _ => .pure _

theorem write_avoids : (pm.write index value).Only (Request.Avoids [Imc.index, Imc.data]) := by
  have hmmio : ∀ physical, Request.Avoids [Imc.index, Imc.data] (.writeMmio8 physical value) :=
    fun _ => nofun
  cases pm with
  | indexData =>
      exact .bind (only_writeIo8 (avoids_write (by decide) _)) fun _ =>
        only_writeIo8 (avoids_write (by decide) _)
  | window => exact only_writeMmio8 (hmmio _)

end PmAccess

section

variable {t : Steps} {r : Except Error Payload}

theorem acquire_avoids (hbase : c.info.base = piix4Base) {r : Except Error Unit}
    (h : c.acquire.Path calls r) : Avoids [Imc.index, Imc.data] calls := fun call hc =>
  (hbase ▸ c.only_acquire.path h call hc).avoids rfl

theorem Taken.switched_avoids (hbase : c.info.base = piix4Base) (h : Taken c s tx r t) :
    Avoids [Imc.index, Imc.data] (t.selected ++ (t.worked ++ t.restored)) :=
  h.switched.all (s.pm.read_avoids _) (fun _ => s.pm.write_avoids _ _) fun hwork call hc =>
    (hbase ▸ (c.only_work tx).path hwork call hc).avoids rfl

theorem Released.avoids (h : Released piix4Base calls) : Avoids [Imc.index, Imc.data] calls := by
  cases h with
  | unread e => exact avoids_read
  | written value answer =>
      intro call hc
      obtain rfl | hc := List.mem_cons.mp hc
      · exact nofun
      · rw [List.mem_singleton.mp hc]
        exact avoids_write (by decide) _

theorem asleep_kept (he : p.Evolves calls q) (ha : Avoids [Imc.index, Imc.data] calls) :
    q.mailboxAsleep? = p.mailboxAsleep? := by
  rw [mailboxAsleep?, he.mailbox ha, mailboxAsleep?]

/-- How a micro-controller that was awake is left by the command to sleep. -/
theorem Taken.put_to_sleep (h : Taken c s tx r t) (hp : p.Sited)
    (hawake : p.mailboxAsleep? = some false) (he : p.Evolves t.slept q) :
    q.mailboxAsleep? = some false ∨ q.mailboxAsleep? = some true ∧ p.has .imcSilent = false ∧
      (Acknowledges t.slept ∨ Unanswered Imc.sleep t.slept) := by
  obtain ⟨m, hm, hasleep⟩ := Option.map_eq_some_iff.mp hawake
  have hslept := h.slept
  split at hslept
  · obtain ⟨acknowledged, hslept⟩ := hslept
    obtain ⟨hkept, -⟩ | hdone := commanded hp hm rfl hslept he
    · exact .inl (hkept.trans (congrArg some hasleep))
    · exact .inr hdone
  · rw [hslept] at he
    cases he
    exact .inl hawake

/-- How it is left by the command to wake up, if that is given. -/
theorem Taken.wake_up {asleep : Bool} (h : Taken c s tx r t) (hp : p.Sited)
    (hasleep : p.mailboxAsleep? = some asleep) (he : p.Evolves t.woken q) :
    q.mailboxAsleep? = some false ∨ q.mailboxAsleep? = some asleep ∧
      (Acknowledges t.slept → p.has .imcSilent = true ∨ Broken t.woken) ∧
      (¬ Acknowledges t.slept → t.woken = []) := by
  obtain ⟨m, hm, rfl⟩ := Option.map_eq_some_iff.mp hasleep
  obtain ha | ha := Classical.em (Acknowledges t.slept)
  · obtain ⟨-, acknowledged, hwoken⟩ := h.woken ha
    obtain ⟨hkept, hwhy⟩ | ⟨hdone, -⟩ := commanded hp hm rfl hwoken he
    · exact .inr ⟨hkept, fun _ => hwhy, fun hn => absurd ha hn⟩
    · exact .inl hdone
  · have hnone := h.left ha
    rw [hnone] at he
    cases he
    exact .inr ⟨hasleep, fun h => absurd h ha, fun _ => hnone⟩

/-- A micro-controller that was awake is awake again, or it is left asleep. -/
theorem Taken.awake_again (hbase : c.info.base = piix4Base) (hp : p.Sited)
    (hawake : p.mailboxAsleep? = some false) (h : Taken c s tx r t) (he : p.Evolves t.calls q) :
    q.mailboxAsleep? = some false ∨ Broken t.woken ∨
      Unanswered Imc.sleep t.slept ∧ t.woken = [] ∧ q.mailboxAsleep? = some true := by
  rw [t.calls_eq] at he
  obtain ⟨q₁, hasked, he⟩ := he.split
  obtain ⟨q₄, hbetween, hreleased⟩ := he.split
  obtain ⟨q₂, hslept, he⟩ := Evolves.split hbetween
  obtain ⟨q₃, hswitched, hwoken⟩ := he.split
  have hp₁ := hasked.sited hp
  have hp₂ := hslept.sited hp₁
  have hkept₁ := asleep_kept hasked (acquire_avoids hbase h.asked)
  have hkept₃ := asleep_kept hswitched (h.switched_avoids hbase)
  rw [asleep_kept hreleased (hbase ▸ h.released).avoids]
  obtain hawake₂ | ⟨hasleep₂, hheeds, hwhy⟩ := h.put_to_sleep hp₁ (hkept₁.trans hawake) hslept
  · obtain hend | ⟨hend, -⟩ := h.wake_up (hswitched.sited hp₂) (hkept₃.trans hawake₂) hwoken
    · exact .inl hend
    · exact .inl hend
  · obtain hend | ⟨hend, hacked, hunacked⟩ :=
      h.wake_up (hswitched.sited hp₂) (hkept₃.trans hasleep₂) hwoken
    · exact .inl hend
    have hheeds₃ : q₃.has .imcSilent = false :=
      (hswitched.has _).trans ((hslept.has _).trans hheeds)
    obtain ha | hu := hwhy
    · obtain hsilent | hbroken := hacked ha
      · rw [hheeds₃] at hsilent
        cases hsilent
      · exact .inr (.inl hbroken)
    · exact .inr (.inr ⟨hu, hunacked hu.not_acknowledges, hend⟩)

end

end Piix4

/-- A controller of the SB800 class leaves a micro-controller awake that was awake, whatever
accesses fail, unless an access fails while it is woken, or it is sent to sleep and the first look
for its acknowledgement fails: then it is not woken, and stays asleep. -/
theorem imc_left {c : Piix4} {s : Piix4.Sb800} {p : Platform} (hsited : p.Sited)
    (hawake : p.mailboxAsleep? = some false) (hbase : c.info.base = piix4Base)
    (hdirect : c.info.transport = .direct) (hs : c.sb800 = some s) (tx : Transaction)
    (outages : Outages) :
    let v := (c.transfer tx).run.run (Flaky.answer outages) ⟨p, []⟩
    v.2.platform.mailboxAsleep? = some false ∨
    ∃ t : Piix4.Steps, v.2.past = t.calls ∧ Piix4.Taken c s tx v.1 t ∧
      (Broken t.woken ∨ Piix4.Unanswered Piix4.Imc.sleep t.slept ∧ t.woken = [] ∧
        v.2.platform.mailboxAsleep? = some true) := by
  intro v
  obtain ⟨hevolves, ⟨e, hasked, -⟩ | ⟨t, hcalls, htaken⟩⟩ :=
    Piix4.flaky_transfer p hdirect hs tx outages
  · left
    exact (Piix4.asleep_kept hevolves (Piix4.acquire_avoids hbase hasked)).trans hawake
  · rw [hcalls] at hevolves
    obtain hend | hleft := htaken.awake_again hbase hsited hawake hevolves
    · exact .inl hend
    · exact .inr ⟨t, hcalls, htaken, hleft⟩

/-- No look at the mailbox is answered. -/
def Outages.ofMailbox : Outages := fun _ request =>
  match request with
  | .readIo8 address => if address = Piix4.Imc.data then some (.reported "outage") else none
  | _ => none

/-- Whether a call is the acknowledgement of a command. -/
def Call.acknowledges : Call → Bool
  | ⟨.readIo8 address, .ok value⟩ => address = Piix4.Imc.data ∧ value = Piix4.Imc.acknowledged
  | _ => false

/-- The micro-controller is not woken if it has acknowledged nothing. -/
theorem Piix4.Taken.any_acknowledges {c : Piix4} {s : Sb800} {tx : Transaction}
    {r : Except Error Payload} {t : Steps} (h : Taken c s tx r t) (hw : t.woken ≠ []) :
    t.calls.any Call.acknowledges = true := by
  have ha : Acknowledges t.slept := by
    by_contra hn
    exact hw (h.left hn)
  have hm := List.mem_of_getLast? ha
  refine List.any_eq_true.mpr ⟨_, ?_, (by decide :
    Call.acknowledges ⟨.readIo8 Imc.data, .ok Imc.acknowledged⟩ = true)⟩
  simp [t.calls_eq, Steps.between, hm]

theorem imc_stranded_amdSample : ∃ (c : Piix4) (s : Piix4.Sb800),
    ((Controller.probe .direct {}).run answer amdSample).1 = some (.piix4 c) ∧
    c.info.transport = .direct ∧ c.sb800 = some s ∧ amdSample.mailboxAsleep? = some false ∧
    let v := (c.transfer (.readByteData 0x50 2)).run.run (Flaky.answer .ofMailbox) ⟨amdSample, []⟩
    v.2.platform.mailboxAsleep? = some true ∧
    ¬ ∃ t : Piix4.Steps, v.2.past = t.calls ∧
      Piix4.Taken c s (.readByteData 0x50 2) v.1 t ∧ Broken t.woken := by
  have hrun : (((Controller.probe .direct {}).run answer amdSample).1.bind Controller.piix4?).any
      (fun c =>
        let v := (c.transfer (.readByteData 0x50 2)).run.run (Flaky.answer .ofMailbox)
          ⟨amdSample, []⟩
        c.info.transport == .direct && c.sb800.isSome &&
        v.2.platform.mailboxAsleep? == some true &&
        !v.2.past.any Call.acknowledges) = true := by
    decide +kernel
  obtain ⟨c, hc, hrun⟩ := Controller.exists_piix4 hrun
  simp only [Bool.and_eq_true, beq_iff_eq, Bool.not_eq_true'] at hrun
  obtain ⟨⟨⟨hdirect, hs⟩, hasleep⟩, hunheard⟩ := hrun
  obtain ⟨s, hs⟩ := Option.isSome_iff_exists.mp hs
  refine ⟨c, s, hc, hdirect, hs, rfl, hasleep, ?_⟩
  rintro ⟨t, hcalls, ht, call, hm, -⟩
  rw [hcalls, ht.any_acknowledges (List.ne_nil_of_mem hm)] at hunheard
  cases hunheard

theorem imc_left_amdSample : ∃ (c : Piix4) (s : Piix4.Sb800),
    ((Controller.probe .direct {}).run answer amdSample).1 = some (.piix4 c) ∧
    c.info.base = piix4Base ∧ c.info.transport = .direct ∧ c.sb800 = some s ∧
    s.notifyImc = true ∧ amdSample.mailboxAsleep? = some false ∧
    let v := (c.transfer (.readByteData 0x50 2)).run.run (Flaky.answer .ofMailbox) ⟨amdSample, []⟩
    (v.2.platform.mailboxAsleep? = some false ∨
      ∃ t : Piix4.Steps, v.2.past = t.calls ∧ Piix4.Taken c s (.readByteData 0x50 2) v.1 t ∧
        (Broken t.woken ∨ Piix4.Unanswered Piix4.Imc.sleep t.slept ∧ t.woken = [] ∧
          v.2.platform.mailboxAsleep? = some true)) := by
  obtain ⟨c, s, hc, hbase, hdirect, hs, himc⟩ := broughtUp_amdSample
  exact ⟨c, s, hc, hbase, hdirect, hs, himc, rfl,
    imc_left sited_amdSample rfl hbase hdirect hs (.readByteData 0x50 2) .ofMailbox⟩

end DimmBus
