import DimmBus.Platform.Inspect
import DimmBus.Proofs.AuxFeatures
import DimmBus.Proofs.Brackets

/-!
# What one request makes of a machine

Any request leaves the hosts where they are. Of the register that holds the semaphore and of the
mailbox it is told what becomes of them, so that a run of calls can be followed by these alone.
-/

namespace DimmBus

open Access Attempt HostRegister

/-! ## Hosts -/

namespace Host

/-- Something about a host that neither a read nor the course of a transaction changes. -/
structure Lasting {α : Type} (f : Host → α) : Prop where
  read : ∀ h stuck held register, f (Host.read h stuck held register).2 = f h
  stalled : ∀ h : Host, f { h with stalled := true } = f h
  status : ∀ (h : Host) status, f { h with status } = f h
  complete : ∀ h pecError reply, f (Host.complete h pecError reply) = f h

theorem lasting_place : Lasting place where
  read h stuck held register := h.place_read register stuck held
  stalled _ := rfl
  status _ _ := rfl
  complete h pecError reply := h.place_complete pecError reply

theorem lasting_slaveControl : Lasting Host.slaveControl where
  read h stuck held register := by
    simp only [Host.read, apply_ite Prod.snd, apply_ite Host.slaveControl, ite_self]
  stalled _ := rfl
  status _ _ := rfl
  complete h pecError reply := (h.complete_kept pecError reply).slaveControl

variable (h : Host) {register : UInt16} (value : UInt8)

theorem slaveControl_writeControl : (h.writeControl value).1.slaveControl = h.slaveControl := by
  simp only [writeControl, apply_ite Prod.fst, apply_ite Host.slaveControl, ite_self]

theorem slaveControl_write (hr : ¬(register = HostRegister.slaveControl ∧ h.isPiix4 = true)) :
    (h.write register value).1.slaveControl = h.slaveControl := by
  simp only [write, apply_ite Prod.fst, apply_ite Host.slaveControl, if_neg hr,
    slaveControl_writeControl, ite_self]

theorem eq_of_decode {address : UInt16} (hd : h.decode? address = some register) :
    h.base ≤ address ∧ address = h.base + register := by
  unfold decode? at hd
  split at hd
  · rename_i hin
    cases hd
    exact ⟨hin.1, by rw [UInt16.add_comm, UInt16.sub_add_cancel]⟩
  · cases hd

end Host

/-- The request does not write to any of these I/O addresses. -/
def Request.Avoids (addresses : List UInt16) (request : Request) : Prop :=
  ∀ address ∈ addresses, ∀ value, request ≠ .writeIo8 address value

/-! ## Machines -/

namespace Platform

variable {p : Platform} {h : Host} {register address : UInt16} {request : Request}

/-- Something about each of the hosts. -/
def hosts {α : Type} (f : Host → α) (p : Platform) : Option α × Option α :=
  (p.ich.map f, p.piix4.map f)

/-- The host that answers is one of the machine, and it answers from its base address on. -/
theorem Sited.decode (hp : p.Sited) (hd : p.decode? address = some (h, register)) :
    h.base ≤ address ∧ address = h.base + register ∧
      (p.ich = some h ∧ h.isPiix4 = false ∨ p.piix4 = some h ∧ h.isPiix4 = true) := by
  simp only [decode?, Option.orElse_eq_orElse, Option.orElse_eq_or, Option.or_eq_some_iff] at hd
  obtain hd | ⟨-, hd⟩ := hd
  · obtain ⟨h', hich, hd⟩ := Option.bind_eq_some_iff.mp hd
    obtain ⟨register', hdecode, heq⟩ := Option.bind_eq_some_iff.mp hd
    cases heq
    obtain ⟨f, hf⟩ := hp.ich h hich
    obtain ⟨hle, heq⟩ := h.eq_of_decode hdecode
    exact ⟨hle, heq, .inl ⟨hich, by simp [Host.isPiix4, hf.1]⟩⟩
  · obtain ⟨h', hpiix4, hd⟩ := Option.bind_eq_some_iff.mp hd
    obtain ⟨register', hdecode, heq⟩ := Option.bind_eq_some_iff.mp hd
    cases heq
    obtain ⟨hle, heq⟩ := h.eq_of_decode hdecode
    exact ⟨hle, heq, .inr ⟨hpiix4, by simp [Host.isPiix4, (hp.piix4 h hpiix4).1]⟩⟩

section

variable {α : Type} {f : Host → α}

theorem hosts_setHost (hp : p.Sited) (hd : p.decode? address = some (h, register)) {h' : Host}
    (hplace : h'.place = h.place) (hf : f h' = f h) : (p.setHost h').hosts f = p.hosts f := by
  have hm : h'.isPiix4 = h.isPiix4 := isPiix4_congr (congrArg Prod.fst hplace)
  obtain ⟨-, -, ⟨hich, hmodel⟩ | ⟨hpiix4, hmodel⟩⟩ := hp.decode hd
  · simp [hosts, setHost, hm, hmodel, hich, hf]
  · simp [hosts, setHost, hm, hmodel, hpiix4, hf]

theorem hosts_setHost_congr {q : Platform} {h' : Host} (hich : q.ich = p.ich)
    (hpiix4 : q.piix4 = p.piix4) (hm : h'.model = h.model) (hf : f h' = f h) :
    (q.setHost h').hosts f = (p.setHost h).hosts f := by
  cases hb : h.isPiix4 <;> simp [hosts, setHost, isPiix4_congr hm, hb, hf, hich, hpiix4]

theorem hosts_start (hf : Host.Lasting f) : (p.start h).hosts f = (p.setHost h).hosts f := by
  unfold start
  split
  · exact hosts_setHost_congr (p := p) rfl rfl rfl (hf.stalled h)
  · split
    · exact hosts_setHost_congr rfl rfl rfl (hf.status h _)
    · rw [runTransfer_eq]
      exact hosts_setHost_congr rfl rfl (h.complete_kept ..).model (hf.complete ..)

theorem hosts_follow (hf : Host.Lasting f) (event : HostEvent) :
    (p.follow h event).hosts f = (p.setHost h).hosts f := by
  cases event with
  | none => rfl
  | kill => rfl
  | start => exact hosts_start hf

end

/-- Hosts, mailbox and faults are the same. -/
structure Beside (p q : Platform) : Prop where
  ich : q.ich = p.ich
  piix4 : q.piix4 = p.piix4
  mailbox : q.mailbox = p.mailbox
  faults : q.faults = p.faults

theorem beside_transferFor (family : Family) (words : List UInt64) :
    p.Beside (p.transferFor family words).2 := by
  unfold transferFor
  simp only [runTransfer_eq]
  repeat' split
  all_goals exact ⟨rfl, rfl, rfl, rfl⟩

/-- Routines work beside the registers. -/
theorem beside_runRoutine (routine : String) (words : List UInt64) :
    p.Beside (p.runRoutine routine words).2 := by
  unfold runRoutine
  repeat' split
  · exact ⟨rfl, rfl, rfl, rfl⟩
  · exact ⟨rfl, rfl, rfl, rfl⟩
  · exact beside_transferFor ..
  · exact beside_transferFor ..
  · unfold selectPort
    split <;> exact ⟨rfl, rfl, rfl, rfl⟩
  · exact ⟨rfl, rfl, rfl, rfl⟩

section

variable {α : Type} {f : Host → α}

/-- A request keeps what lasts about the hosts, unless it writes to one of them. -/
theorem hosts_answer (hp : p.Sited) (hf : Host.Lasting f)
    (hw : ∀ address value, request = .writeIo8 address value → ∀ h register,
      p.decode? address = some (h, register) → f (h.write register value).1 = f h) :
    (p.answer request).2.hosts f = p.hosts f := by
  have hc : p.counted.Sited := ⟨hp.ich, hp.piix4⟩
  cases request with
  | readIo8 address =>
      simp only [answer, readIo]
      split
      · rename_i h register hd
        exact hosts_setHost hc hd (h.place_read ..) (hf.read ..)
      · rfl
  | writeIo8 address value =>
      simp only [answer, writeIo]
      split
      · rename_i h register hd
        rw [hosts_follow hf]
        exact hosts_setHost hc hd (h.place_write ..) (hw _ _ rfl _ _ hd)
      · repeat' split
        all_goals first | rfl | skip
        unfold writeMailbox
        split <;> rfl
  | lock timeoutUs =>
      simp only [answer, takeLock]
      split <;> rfl
  | delegate routine words answerWords =>
      simp only [answer]
      split
      · rfl
      · have hb := p.counted.beside_runRoutine routine words
        simp only [hosts, hb.ich, hb.piix4]
        rfl
  | _ => rfl

end

/-! ### The hosts and the semaphore -/

theorem sited_of_hosts {q : Platform} (hp : p.Sited)
    (hq : q.hosts Host.place = p.hosts Host.place) : q.Sited := by
  have hich : q.ich.map Host.place = p.ich.map Host.place := congrArg Prod.fst hq
  have hpiix4 : q.piix4.map Host.place = p.piix4.map Host.place := congrArg Prod.snd hq
  constructor
  · intro h hh
    rw [hh, Option.map_some, eq_comm, Option.map_eq_some_iff] at hich
    obtain ⟨h₀, hh₀, hplace⟩ := hich
    obtain ⟨f, hf⟩ := hp.ich h₀ hh₀
    exact ⟨f, hf.of_place hplace.symm⟩
  · intro h hh
    rw [hh, Option.map_some, eq_comm, Option.map_eq_some_iff] at hpiix4
    obtain ⟨h₀, hh₀, hplace⟩ := hpiix4
    exact (hp.piix4 h₀ hh₀).of_place hplace.symm

theorem Sited.places (hp : p.Sited) (request : Request) :
    (p.answer request).2.hosts Host.place = p.hosts Host.place :=
  hosts_answer hp Host.lasting_place fun _ value _ h register _ => h.place_write register value

/-- The register that holds the semaphore of the PIIX4-compatible host. -/
def slaveControl? (p : Platform) : Option UInt8 := p.piix4.map Host.slaveControl

/-- Nothing but a write to it changes the register. -/
theorem Sited.slaveControl_answer (hp : p.Sited)
    (hr : request.Avoids [piix4Base + slaveControl]) :
    (p.answer request).2.slaveControl? = p.slaveControl? := by
  refine congrArg Prod.snd (hosts_answer hp Host.lasting_slaveControl
    fun address value heq h register hd => h.slaveControl_write value ?_)
  rintro ⟨rfl, hm⟩
  obtain ⟨-, rfl, ⟨-, hm'⟩ | ⟨hpiix4, -⟩⟩ := hp.decode hd
  · rw [hm] at hm'
    cases hm'
  · exact hr _ List.mem_cons_self value ((hp.piix4 h hpiix4).2 ▸ heq)

theorem slaveControl_put {g : Segment} {k : Counters} (hm : h.isPiix4 = true) :
    (p.put h g k).slaveControl? = some h.slaveControl := by
  rw [put_eq_piix4 hm]
  rfl

/-- A write changes the register, by releasing the semaphore or altogether. -/
theorem Sited.slaveControl_write (hp : p.Sited) {before : UInt8}
    (hb : p.slaveControl? = some before) (value : UInt8) :
    (p.answer (.writeIo8 (piix4Base + slaveControl) value)).2.slaveControl? =
      some (if hasAny value Piix4.SlaveControl.hostRelease then
        before &&& ~~~Piix4.SlaveControl.hostSemaphore else value) := by
  obtain ⟨h, hh, rfl⟩ := Option.map_eq_some_iff.mp hb
  have his := hp.piix4 h hh
  have hm : h.isPiix4 = true := by simp [Host.isPiix4, his.1]
  have hwrite : Ends Platform.answer (writeIo8 (piix4Base + slaveControl) value)
      (p.put h p.segment p.counters) (fun _ q => q.slaveControl? =
        some (if hasAny value Piix4.SlaveControl.hostRelease then
          h.slaveControl &&& ~~~Piix4.SlaveControl.hostSemaphore else value))
      fun _ _ => False :=
    ends_writeIo8 hp.exposes_piix4 his (by decide) (Piix4.write_slaveControl his.1 value) his
      (slaveControl_put (by exact hm))
  rw [put_piix4 hh hm] at hwrite
  exact hwrite

/-- Firmware that does not hold the semaphore lets the register be read. -/
theorem Sited.slaveControl_read (hp : p.Sited) (hheld : p.has .semaphoreHeld = false)
    {value : UInt8} (hv : p.slaveControl? = some value) :
    (p.answer (.readIo8 (piix4Base + slaveControl))).1 = .ok value := by
  obtain ⟨h, hh, rfl⟩ := Option.map_eq_some_iff.mp hv
  have his := hp.piix4 h hh
  have hm : h.isPiix4 = true := by simp [Host.isPiix4, his.1]
  have hread : Ends Platform.answer (readIo8 (piix4Base + slaveControl))
      (p.put h p.segment p.counters) (fun shown _ => shown = h.slaveControl) fun _ _ => False :=
    ends_readIo8 hp.exposes_piix4 his (by decide) (Piix4.read_slaveControl his.1 ..) his
      (by simp [hheld])
  rw [put_piix4 hh hm] at hread
  exact congrArg Except.ok hread

/-! ### The mailbox and the faults -/

/-- The mailbox and the faults are no part of a host. -/
theorem follow_mailbox (event : HostEvent) : (p.follow h event).mailbox = p.mailbox ∧
    (p.follow h event).faults = p.faults := by
  unfold follow start setHost
  simp only [runTransfer_eq]
  repeat' split
  all_goals exact ⟨rfl, rfl⟩

theorem setHost_mailbox : (p.setHost h).mailbox = p.mailbox ∧ (p.setHost h).faults = p.faults := by
  unfold setHost
  split <;> exact ⟨rfl, rfl⟩

theorem writeMailbox_faults (value : UInt8) : (p.writeMailbox value).faults = p.faults := by
  unfold writeMailbox
  split <;> rfl

/-- No request switches a fault on or off. -/
theorem faults_answer (request : Request) : (p.answer request).2.faults = p.faults := by
  cases request with
  | readIo8 address =>
      simp only [answer, readIo]
      split
      · exact setHost_mailbox.2
      · rfl
  | writeIo8 address value =>
      simp only [answer, writeIo]
      repeat' split
      · exact (follow_mailbox _).2
      · rfl
      · rfl
      · exact writeMailbox_faults value
      · rfl
  | lock timeoutUs =>
      simp only [answer, takeLock]
      split <;> rfl
  | delegate routine words answerWords =>
      simp only [answer]
      split
      · rfl
      · exact (p.counted.beside_runRoutine routine words).faults
  | _ => rfl

/-- Nothing but a write to one of its two addresses changes the mailbox. -/
theorem mailbox_answer (hr : request.Avoids [Piix4.Imc.index, Piix4.Imc.data]) :
    (p.answer request).2.mailbox = p.mailbox := by
  cases request with
  | readIo8 address =>
      simp only [answer, readIo]
      split
      · exact setHost_mailbox.1
      · rfl
  | writeIo8 address value =>
      have hindex : address ≠ Piix4.Imc.index := fun heq => hr address (by simp [heq]) value rfl
      have hdata : address ≠ Piix4.Imc.data := fun heq => hr address (by simp [heq]) value rfl
      simp only [answer, writeIo, if_neg hindex, if_neg hdata]
      repeat' split
      · exact (follow_mailbox _).1
      · rfl
      · rfl
  | lock timeoutUs =>
      simp only [answer, takeLock]
      split <;> rfl
  | delegate routine words answerWords =>
      simp only [answer]
      split
      · rfl
      · exact (p.counted.beside_runRoutine routine words).mailbox
  | _ => rfl

section

variable {m : Mailbox}

theorem Sited.mailbox_index (hp : p.Sited) (hm : p.mailbox = some m) (value : UInt8) :
    (p.answer (.writeIo8 Piix4.Imc.index value)).2.mailbox = some { m with index := value } := by
  have hd : p.counted.decode? Piix4.Imc.index = none := hp.decode_none (by decide) (by decide)
  have hm : p.counted.mailbox = some m := hm
  simp only [answer, writeIo, hd, hm]
  rfl

theorem Sited.mailbox_data (hp : p.Sited) (hm : p.mailbox = some m) (value : UInt8) :
    (p.answer (.writeIo8 Piix4.Imc.data value)).2.mailbox =
      some (m.write (p.has .imcSilent) value).1 := by
  have hd : p.counted.decode? Piix4.Imc.data = none := hp.decode_none (by decide) (by decide)
  have hm : p.counted.mailbox = some m := hm
  have hw : p.counted.writeIo Piix4.Imc.data value = p.counted.writeMailbox value := by
    simp only [writeIo, hd]
    rfl
  simp only [answer, hw, writeMailbox, hm]
  rfl

theorem Sited.mailbox_read (hp : p.Sited) (hm : p.mailbox = some m) :
    (p.answer (.readIo8 Piix4.Imc.data)).1 = .ok (m.registers.read m.index.toNat) := by
  have hd : p.counted.decode? Piix4.Imc.data = none := hp.decode_none (by decide) (by decide)
  have hm : p.counted.mailbox = some m := hm
  simp only [answer, readIo, hd, hm]
  rfl

end

/-! ## Runs of calls -/

/-- None of the calls writes to any of these I/O addresses. -/
def Avoids (addresses : List UInt16) (calls : List Call) : Prop :=
  ∀ call ∈ calls, call.request.Avoids addresses

section

variable {addresses : List UInt16} {before after calls : List Call} {q : Platform}

theorem Avoids.append (hb : Avoids addresses before) (ha : Avoids addresses after) :
    Avoids addresses (before ++ after) := fun call hc =>
  (List.mem_append.mp hc).elim (hb call) (ha call)

theorem Avoids.left (h : Avoids addresses (before ++ after)) : Avoids addresses before :=
  fun call hc => h call (List.mem_append_left _ hc)

theorem Avoids.right (h : Avoids addresses (before ++ after)) : Avoids addresses after :=
  fun call hc => h call (List.mem_append_right _ hc)

theorem avoids_read {address : UInt16} {answer : Except Error UInt8} :
    Avoids addresses [⟨.readIo8 address, answer⟩] := by
  intro call hc address' _ value heq
  rw [List.mem_singleton.mp hc] at heq
  cases heq

theorem avoids_sleep {us : UInt32} {answer : Unit} : Avoids addresses [⟨.sleep us, answer⟩] := by
  intro call hc address _ value heq
  rw [List.mem_singleton.mp hc] at heq
  cases heq

theorem Evolves.cons {call : Call} (he : p.Evolves (call :: calls) q) :
    ∃ q', p.Evolves [call] q' ∧ q'.Evolves calls q := by
  rw [← List.singleton_append] at he
  exact he.split

/-- What every granted request keeps, all calls keep. -/
theorem Evolves.always {P : Platform → Prop} (he : p.Evolves calls q)
    (hstep : ∀ p request, P p → P (p.answer request).2) (hp : P p) : P q :=
  @keeps p q (fun _ => True) P calls he (fun _ _ => trivial)
    (fun p request _ h => hstep p request h) hp

/-- The hosts stay where they are. -/
theorem Evolves.places (he : p.Evolves calls q) (hp : p.Sited) :
    q.hosts Host.place = p.hosts Host.place :=
  he.always (P := fun q => q.hosts Host.place = p.hosts Host.place)
    (fun _ request h => ((sited_of_hosts hp h).places request).trans h) rfl

theorem Evolves.sited (he : p.Evolves calls q) (hp : p.Sited) : q.Sited :=
  sited_of_hosts hp (he.places hp)

theorem Evolves.isSome_piix4 (he : p.Evolves calls q) (hp : p.Sited) :
    q.piix4.isSome = p.piix4.isSome := by
  have hplace := congrArg (fun places => places.2.isSome) (he.places hp)
  simpa only [hosts, Option.isSome_map] using hplace

theorem Evolves.has (he : p.Evolves calls q) (fault : Fault) : q.has fault = p.has fault := by
  have hfaults : q.faults = p.faults :=
    he.always (P := fun q => q.faults = p.faults)
      (fun _ request h => (faults_answer request).trans h) rfl
  simp only [Platform.has, hfaults]

theorem Evolves.semaphore (he : p.Evolves calls q) (hp : p.Sited)
    (hs : Avoids [piix4Base + slaveControl] calls) : q.slaveControl? = p.slaveControl? :=
  (he.keeps (P := fun q => q.Sited ∧ q.slaveControl? = p.slaveControl?) hs
    (fun _ request hr h => ⟨sited_of_hosts h.1 (h.1.places request),
      (h.1.slaveControl_answer hr).trans h.2⟩)
    ⟨hp, rfl⟩).2

theorem Evolves.mailbox (he : p.Evolves calls q)
    (hs : Avoids [Piix4.Imc.index, Piix4.Imc.data] calls) : q.mailbox = p.mailbox :=
  he.keeps (P := fun q => q.mailbox = p.mailbox) hs
    (fun _ _ hr h => (mailbox_answer hr).trans h) rfl

end

end Platform

end DimmBus
