import DimmBus.Proofs.OwnRegisters
import DimmBus.Proofs.Paths

/-!
# The brackets around a transaction

On parts of the SB800 class a transaction stands between three things that are done and undone: the
semaphore, the sleep of the micro-controller and the setting of the bus multiplexer. Whatever is
answered, what was done is undone in the opposite order, and without a say in the result.
-/

namespace DimmBus

open Access Attempt HostRegister
open Request (Touches Board Mail)

/-! ## Where the host is run -/

/-- An access to the status or the control register of the host at `base`. -/
def Request.Runs (base : UInt16) : Request → Prop
  | .readIo8 address | .writeIo8 address _ => address = base + status ∨ address = base + control
  | _ => False

section

variable {base : UInt16} {pauses : Bool} {request : Request}

theorem Request.Touches.not_runs (h : request.Touches base [slaveControl] [slaveControl] pauses) :
    ¬ request.Runs base := by
  have hne : ∀ {offset : UInt16}, offset ∈ [slaveControl] →
      ¬ (base + offset = base + status ∨ base + offset = base + control) := by
    intro offset ho
    rw [List.mem_singleton.mp ho, UInt16.add_right_inj, UInt16.add_right_inj]
    decide
  cases h with
  | read ho => exact hne ho
  | write ho value => exact hne ho
  | sleep => exact id

theorem Request.Board.not_runs (h : request.Board pauses) (hbase : base.toNat % 32 = 0) :
    ¬ request.Runs base := by
  have hne : ∀ {address : UInt16},
      address ∈ [Piix4.Pm.index, Piix4.Pm.data, Piix4.Imc.index, Piix4.Imc.data] →
      ¬ (address = base + status ∨ address = base + control) := by
    intro address ha
    have hfar : ∀ offset : UInt16, address.toNat % 32 ≠ offset.toNat % 32 →
        address ≠ base + offset := by
      rintro offset hne rfl
      apply hne
      rw [UInt16.toNat_add]
      omega
    simp only [List.mem_cons, List.not_mem_nil, or_false] at ha
    obtain rfl | rfl | rfl | rfl := ha <;>
      exact not_or.mpr ⟨hfar _ (by decide), hfar _ (by decide)⟩
  cases h with
  | read ha => exact hne (subset_of_all rfl ha)
  | write ha value => exact hne ha
  | readMmio | writeMmio | sleep => exact id

end

namespace Piix4

/-! ## The register of the multiplexer -/

/-- The calls that look up a byte of the power-management block, and what they find. -/
inductive PmAccess.Found (index : UInt8) : PmAccess → List Call → Except Error UInt8 → Prop
  | unaddressed (e : Error) :
      Found index .indexData [⟨.writeIo8 Pm.index index, .error e⟩] (.error e)
  | pair (found : Except Error UInt8) : Found index .indexData
      [⟨.writeIo8 Pm.index index, .ok ()⟩, ⟨.readIo8 Pm.data, found⟩] found
  | unread (e : Error) : Found index .window
      [⟨.readMmio32 (Pm.window + (index &&& ~~~3).toUInt64), .error e⟩] (.error e)
  | window (word : UInt32) : Found index .window
      [⟨.readMmio32 (Pm.window + (index &&& ~~~3).toUInt64), .ok word⟩]
      (.ok (LittleEndian.digit word.toNat (index.toNat % 4)))

/-- The calls that set a byte of the power-management block, and how that went. -/
inductive PmAccess.Put (index value : UInt8) : PmAccess → List Call → Except Error Unit → Prop
  | unaddressed (e : Error) :
      Put index value .indexData [⟨.writeIo8 Pm.index index, .error e⟩] (.error e)
  | pair (answer : Except Error Unit) : Put index value .indexData
      [⟨.writeIo8 Pm.index index, .ok ()⟩, ⟨.writeIo8 Pm.data value, answer⟩] answer
  | window (answer : Except Error Unit) : Put index value .window
      [⟨.writeMmio8 (Pm.window + index.toUInt64) value, answer⟩] answer

namespace PmAccess

variable {pm : PmAccess} {index value : UInt8} {calls : List Call}

theorem path_read {r : Except Error UInt8} :
    (pm.read index).Path calls r ↔ pm.Found index calls r := by
  cases pm with
  | indexData =>
      simp only [read, path_bind, path_writeIo8, path_readIo8]
      constructor
      · rintro (⟨e, rfl, rfl⟩ | ⟨_, _, _, rfl, rfl, rfl⟩)
        · exact .unaddressed e
        · exact .pair r
      · intro h
        cases h with
        | unaddressed e => exact .inl ⟨e, rfl, rfl⟩
        | pair found => exact .inr ⟨(), _, _, rfl, rfl, rfl⟩
  | window =>
      simp only [read, path_bind, path_readMmio32, path_pure]
      constructor
      · rintro (⟨e, rfl, rfl⟩ | ⟨word, _, _, rfl, rfl, rfl, rfl⟩)
        · exact .unread e
        · exact .window word
      · intro h
        cases h with
        | unread e => exact .inl ⟨e, rfl, rfl⟩
        | window word => exact .inr ⟨word, _, [], rfl, rfl, rfl, rfl⟩

theorem path_write {r : Except Error Unit} :
    (pm.write index value).Path calls r ↔ pm.Put index value calls r := by
  cases pm with
  | indexData =>
      simp only [write, path_bind, path_writeIo8]
      constructor
      · rintro (⟨e, rfl, rfl⟩ | ⟨_, _, _, rfl, rfl, rfl⟩)
        · exact .unaddressed e
        · exact .pair r
      · intro h
        cases h with
        | unaddressed e => exact .inl ⟨e, rfl, rfl⟩
        | pair answer => exact .inr ⟨(), _, _, rfl, rfl, rfl⟩
  | window =>
      simp only [write, path_writeMmio8]
      constructor
      · rintro rfl
        exact .window r
      · rintro ⟨answer⟩
        rfl

end PmAccess

/-! ## The micro-controller -/

/-- The calls end with the acknowledgement of a command. -/
def Acknowledges (calls : List Call) : Prop :=
  calls.getLast? = some ⟨.readIo8 Imc.data, .ok Imc.acknowledged⟩

theorem acknowledges_append {before after : List Call}
    (h : (⟨.readIo8 Imc.data, .ok Imc.acknowledged⟩ : Call) ∉ before) :
    Acknowledges (before ++ after) ↔ Acknowledges after := by
  unfold Acknowledges
  rw [List.getLast?_append]
  cases hafter : after.getLast? with
  | some call => rfl
  | none => simpa using fun heq => h (List.mem_of_getLast? heq)

/-- An acknowledgement is not to be had before the mailbox has been written. -/
theorem acknowledged_bind {x : Attempt Unit} {f : Unit → Attempt Bool} {calls : List Call}
    {r : Except Error Bool} (hx : x.Only fun request => ∃ a v, request = .writeIo8 a v)
    (hf : ∀ {calls}, (f ()).Path calls r → (r = .ok true ↔ Acknowledges calls))
    (h : (x >>= f).Path calls r) : r = .ok true ↔ Acknowledges calls := by
  have hnot : ∀ {before r'}, x.Path before r' →
      (⟨.readIo8 Imc.data, .ok Imc.acknowledged⟩ : Call) ∉ before := fun hbefore hm => by
    obtain ⟨_, _, heq⟩ := hx.path hbefore _ hm
    cases heq
  obtain ⟨e, hfailed, rfl⟩ | ⟨_, before, after, rfl, hbefore, hafter⟩ := path_bind.mp h
  · have hend : Acknowledges (calls ++ []) ↔ Acknowledges [] := acknowledges_append (hnot hfailed)
    rw [List.append_nil] at hend
    rw [hend]
    exact ⟨nofun, nofun⟩
  · rw [acknowledges_append (hnot hbefore)]
    exact hf hafter

theorem acknowledged_awaitImc {n : Nat} {calls : List Call} {r : Except Error Bool}
    (h : (awaitImc n).Path calls r) : r = .ok true ↔ Acknowledges calls := by
  induction n generalizing calls with
  | zero =>
      obtain ⟨rfl, rfl⟩ := path_pure.mp h
      exact ⟨nofun, nofun⟩
  | succ n ih =>
      refine acknowledged_bind (only_writeIo8 ⟨_, _, rfl⟩) (fun h => ?_) h
      obtain ⟨e, hread, rfl⟩ | ⟨answer, _, after, rfl, hread, h⟩ := path_bind.mp h
      · rw [path_readIo8.mp hread]
        simp [Acknowledges]
      rw [path_readIo8.mp hread]
      split at h
      · rename_i hack
        obtain ⟨rfl, rfl⟩ := path_pure.mp h
        simp [Acknowledges, hack]
      · rename_i hack
        -- What was read is no acknowledgement, and so nothing before the rest of the calls is.
        obtain ⟨e, hsleep, -⟩ | ⟨_, _, rest, rfl, hsleep, h⟩ := path_bind.mp h
        · cases (path_sleep.mp hsleep).2
        · rw [(path_sleep.mp hsleep).1, ← List.append_assoc, acknowledges_append]
          · exact ih h
          · simpa using Ne.symm hack

theorem path_bind_ne_nil {α β : Type} {x : Attempt α} {f : α → Attempt β} {calls : List Call}
    {r : Except Error β} (hx : ∀ {calls r}, x.Path calls r → calls ≠ [])
    (h : (x >>= f).Path calls r) : calls ≠ [] := by
  obtain ⟨e, h, -⟩ | ⟨_, before, after, rfl, h, -⟩ := path_bind.mp h
  · exact hx h
  · exact fun heq => hx h (List.append_eq_nil_iff.mp heq).1

/-- A command is a handshake of which only the acknowledgement counts. -/
theorem path_imcCommand {command : UInt8} {calls : List Call} {acknowledged : Bool}
    (h : (imcCommand command).Path calls acknowledged) :
    ∃ r, (imcHandshake command).Path calls r ∧ (acknowledged = true ↔ r = .ok true) := by
  obtain ⟨r, before, after, rfl, hshake, h⟩ := Access.path_bind.mp h
  refine ⟨r, ?_⟩
  cases r with
  | ok acknowledged' =>
      obtain ⟨rfl, rfl⟩ := Access.path_done.mp h
      rw [List.append_nil, Except.ok.injEq]
      exact ⟨hshake, Iff.rfl⟩
  | error e =>
      obtain ⟨rfl, rfl⟩ := Access.path_done.mp h
      rw [List.append_nil]
      exact ⟨hshake, nofun, nofun⟩

/-- A command is acknowledged if and only if the calls end so. -/
theorem acknowledged_imcCommand {command : UInt8} {calls : List Call} {acknowledged : Bool}
    (h : (imcCommand command).Path calls acknowledged) :
    calls ≠ [] ∧ (acknowledged = true ↔ Acknowledges calls) := by
  have hwrites : ∀ index value, (writeMailbox index value).Only
      fun request => ∃ a v, request = .writeIo8 a v := fun _ _ =>
    .bind (only_writeIo8 ⟨_, _, rfl⟩) fun _ => only_writeIo8 ⟨_, _, rfl⟩
  obtain ⟨r, hshake, hr⟩ := path_imcCommand h
  have hbegun : calls ≠ [] :=
    path_bind_ne_nil (path_bind_ne_nil fun h => by rw [path_writeIo8.mp h]; nofun) hshake
  have hacknowledged : r = .ok true ↔ Acknowledges calls :=
    acknowledged_bind (hwrites _ _) (acknowledged_bind (hwrites _ _)
      (acknowledged_bind (hwrites _ _) acknowledged_awaitImc)) hshake
  exact ⟨hbegun, hr.trans hacknowledged⟩

/-! ## The steps of a transaction -/

/-- The calls that move the multiplexer to an output, do some work there and move it back, and the
result of that. The work is not done when the multiplexer cannot be moved. -/
inductive Switched {α : Type} (s : Sb800) (output : UInt8)
    (Work : List Call → Except Error α → Prop) :
    (selected worked restored : List Call) → Except Error α → Prop
  | unread {looked : List Call} {e : Error}
      (hlook : s.pm.Found s.selector.register looked (.error e)) :
      Switched s output Work looked [] [] (.error e)
  | same {looked worked : List Call} {saved : UInt8} {r : Except Error α}
      (hlook : s.pm.Found s.selector.register looked (.ok saved))
      (hsame : s.selector.set saved output = saved) (hwork : Work worked r) :
      Switched s output Work looked worked [] r
  | stuck {looked moved : List Call} {saved : UInt8} {e : Error}
      (hlook : s.pm.Found s.selector.register looked (.ok saved))
      (hother : s.selector.set saved output ≠ saved)
      (hmove : s.pm.Put s.selector.register (s.selector.set saved output) moved (.error e)) :
      Switched s output Work (looked ++ moved) [] [] (.error e)
  | moved {looked moved worked back : List Call} {saved : UInt8} {r : Except Error α}
      {answer : Except Error Unit} (hlook : s.pm.Found s.selector.register looked (.ok saved))
      (hother : s.selector.set saved output ≠ saved)
      (hmove : s.pm.Put s.selector.register (s.selector.set saved output) moved (.ok ()))
      (hwork : Work worked r) (hback : s.pm.Put s.selector.register saved back answer) :
      Switched s output Work (looked ++ moved) worked back r

/-- The calls that give the semaphore of the host at `base` back. -/
inductive Released (base : UInt16) : List Call → Prop
  | unread (e : Error) : Released base [⟨.readIo8 (base + slaveControl), .error e⟩]
  | written (value : UInt8) (answer : Except Error Unit) :
      Released base [⟨.readIo8 (base + slaveControl), .ok value⟩,
        ⟨.writeIo8 (base + slaveControl) (value ||| SlaveControl.hostRelease), answer⟩]

/-- The calls of a transaction, step by step. -/
structure Steps where
  /-- Up to the answer to the request for the semaphore. -/
  asked : List Call
  /-- The micro-controller is sent to sleep. -/
  slept : List Call
  /-- The multiplexer is moved. -/
  selected : List Call
  worked : List Call
  /-- The multiplexer is moved back. -/
  restored : List Call
  /-- The micro-controller is woken. -/
  woken : List Call
  /-- The semaphore is given back. -/
  released : List Call

namespace Steps

/-- The steps that decide the result. -/
def decisive (t : Steps) : List Call := t.asked ++ (t.slept ++ (t.selected ++ t.worked))

/-- The steps around the work. -/
def around (t : Steps) : List Call :=
  t.asked ++ t.slept ++ t.selected ++ t.restored ++ t.woken ++ t.released

def calls (t : Steps) : List Call := t.decisive ++ (t.restored ++ (t.woken ++ t.released))

end Steps

variable {c : Piix4} {s : Sb800} {tx : Transaction} {calls : List Call}

theorem path_release {u : Unit} (h : c.release.Path calls u) : Released c.info.base calls := by
  obtain ⟨r, h⟩ := path_quietly.mp h
  obtain ⟨e, h, -⟩ | ⟨value, _, after, rfl, hread, h⟩ := path_bind.mp h
  · rw [path_readIo8.mp h]
    exact .unread e
  · rw [path_readIo8.mp hread, path_writeIo8.mp h]
    exact .written value r

theorem path_giveBack {r r' : Except Error Payload} (h : (c.giveBack r).Path calls r') :
    Released c.info.base calls ∧ r' = r := by
  obtain ⟨_, released, _, rfl, hreleased, h⟩ := path_lift_bind.mp h
  obtain ⟨rfl, rfl⟩ := path_ofExcept.mp h
  rw [List.append_nil]
  exact ⟨path_release hreleased, rfl⟩

theorem path_withPort {α : Type} {body : Attempt α} {r : Except Error α}
    (h : (c.withPort s body).Path calls r) : ∃ selected worked restored,
      calls = selected ++ (worked ++ restored) ∧
      Switched s c.port body.Path selected worked restored r := by
  obtain ⟨e, hfailed, rfl⟩ | ⟨saved, looked, rest, rfl, hlook, h⟩ := path_bind.mp h
  · exact ⟨calls, [], [], by simp, .unread (PmAccess.path_read.mp hfailed)⟩
  have hlook := PmAccess.path_read.mp hlook
  dsimp only at h
  split at h
  · rename_i hsame
    exact ⟨looked, rest, [], by simp, .same hlook hsame h⟩
  · rename_i hother
    obtain ⟨e, hfailed, rfl⟩ | ⟨_, moved, rest, rfl, hmove, h⟩ := path_bind.mp h
    · exact ⟨_, [], [], by simp, .stuck hlook hother (PmAccess.path_write.mp hfailed)⟩
    have hmove := PmAccess.path_write.mp hmove
    obtain ⟨r', worked, rest, rfl, hwork, h⟩ := path_outcome_bind.mp h
    obtain ⟨_, back, rest, rfl, hback, h⟩ := path_lift_bind.mp h
    obtain ⟨rfl, rfl⟩ := path_ofExcept.mp h
    obtain ⟨answer, hback⟩ := path_quietly.mp hback
    exact ⟨_, worked, back, by simp,
      .moved hlook hother hmove hwork (PmAccess.path_write.mp hback)⟩

/-! ## Taking them in order -/

section

variable {r : Except Error Payload}

/-- The calls after the micro-controller has been sent to sleep. -/
theorem path_underSemaphore {asleep : Bool} (h : (c.underSemaphore s tx asleep).Path calls r) :
    ∃ selected worked restored woken released,
      calls = selected ++ (worked ++ (restored ++ (woken ++ released))) ∧
      Switched s c.port (c.transact tx).Path selected worked restored r ∧
      (if asleep then ∃ acknowledged, (imcCommand Imc.wake).Path woken acknowledged
        else woken = []) ∧
      Released c.info.base released := by
  obtain ⟨r', _, rest, rfl, hport, hrest⟩ := path_outcome_bind.mp h
  obtain ⟨selected, worked, restored, rfl, hswitched⟩ := path_withPort hport
  cases asleep with
  | true =>
      obtain ⟨acknowledged, woken, released, rfl, hwake, hrest⟩ := path_lift_bind.mp hrest
      obtain ⟨hreleased, rfl⟩ := path_giveBack hrest
      exact ⟨selected, worked, restored, woken, released, by simp, hswitched,
        ⟨acknowledged, hwake⟩, hreleased⟩
  | false =>
      obtain ⟨hreleased, rfl⟩ := path_giveBack hrest
      exact ⟨selected, worked, restored, [], rest, by simp, hswitched, rfl, hreleased⟩

/-- What the steps of a transaction are. -/
structure Taken (c : Piix4) (s : Sb800) (tx : Transaction) (r : Except Error Payload)
    (t : Steps) : Prop where
  asked : c.acquire.Path t.asked (.ok ())
  slept : if s.notifyImc then ∃ acknowledged, (imcCommand Imc.sleep).Path t.slept acknowledged
    else t.slept = []
  switched : Switched s c.port (c.transact tx).Path t.selected t.worked t.restored r
  /-- The micro-controller is woken if it has acknowledged its sleep. -/
  woken : Acknowledges t.slept →
    t.woken ≠ [] ∧ ∃ acknowledged, (imcCommand Imc.wake).Path t.woken acknowledged
  left : ¬ Acknowledges t.slept → t.woken = []
  released : Released c.info.base t.released

/-- Without the semaphore there is no transaction, and with it all steps are taken. -/
theorem path_transferSb800 (h : (c.transferSb800 s tx).Path calls r) :
    (∃ e, c.acquire.Path calls (.error e) ∧ r = .error e) ∨
      ∃ t : Steps, calls = t.calls ∧ Taken c s tx r t := by
  rw [transferSb800_eq] at h
  obtain ⟨e, hasked, rfl⟩ | ⟨_, asked, rest, rfl, hasked, hrest⟩ := path_bind.mp h
  · exact .inl ⟨e, hasked, rfl⟩
  refine .inr ?_
  split at hrest
  · rename_i himc
    obtain ⟨asleep, slept, rest, rfl, hslept, hrest⟩ := path_lift_bind.mp hrest
    obtain ⟨selected, worked, restored, woken, released, rfl, hswitched, hwoken, hreleased⟩ :=
      path_underSemaphore hrest
    obtain ⟨-, hack⟩ := acknowledged_imcCommand hslept
    refine ⟨⟨asked, slept, selected, worked, restored, woken, released⟩,
      by simp [Steps.calls, Steps.decisive], hasked, ?_, hswitched, fun ha => ?_, fun ha => ?_,
      hreleased⟩
    · rw [if_pos himc]
      exact ⟨asleep, hslept⟩
    · rw [if_pos (hack.mpr ha)] at hwoken
      exact ⟨(acknowledged_imcCommand hwoken.choose_spec).1, hwoken⟩
    · rwa [if_neg fun hasleep => ha (hack.mp hasleep)] at hwoken
  · rename_i himc
    obtain ⟨selected, worked, restored, woken, released, rfl, hswitched, hwoken, hreleased⟩ :=
      path_underSemaphore hrest
    refine ⟨⟨asked, [], selected, worked, restored, woken, released⟩,
      by simp [Steps.calls, Steps.decisive], hasked, ?_, hswitched, nofun, fun _ => hwoken,
      hreleased⟩
    rw [if_neg himc]

end

/-! ## What the steps come to -/

theorem Selector.set_outside (s : Selector) (value output : UInt8) :
    s.set value output &&& ~~~s.mask = value &&& ~~~s.mask := by
  apply UInt8.eq_of_toBitVec_eq
  ext i hi
  simp only [set, UInt8.toBitVec_and, UInt8.toBitVec_or, UInt8.toBitVec_not, BitVec.getElem_and,
    BitVec.getElem_or, BitVec.getElem_not]
  cases s.mask.toBitVec[i] <;> simp

theorem granted_of_path {n : Nat} {last : UInt8}
    (h : (c.acquireWithin n last).Path calls (.ok ())) :
    ∃ before value, calls = before ++ [⟨.readIo8 (c.info.base + slaveControl), .ok value⟩] ∧
      hasAny value SlaveControl.hostSemaphore = true := by
  induction n generalizing last calls with
  | zero => cases (path_throw.mp h).2
  | succ n ih =>
      obtain ⟨e, -, ⟨⟩⟩ | ⟨_, asked, _, rfl, -, hrest⟩ := path_bind.mp h
      obtain ⟨e, -, ⟨⟩⟩ | ⟨_, written, _, rfl, -, hrest⟩ := path_bind.mp hrest
      obtain ⟨e, -, ⟨⟩⟩ | ⟨value, shown, rest, rfl, hread, hrest⟩ := path_bind.mp hrest
      split at hrest
      · rename_i hgranted
        obtain ⟨rfl, -⟩ := path_pure.mp hrest
        refine ⟨asked ++ written, value, ?_, hgranted⟩
        rw [path_readIo8.mp hread]
        simp [register]
      · obtain ⟨e, -, ⟨⟩⟩ | ⟨_, slept, _, rfl, -, hrest⟩ := path_bind.mp hrest
        obtain ⟨before, value, rfl, hgranted⟩ := ih hrest
        exact ⟨asked ++ (written ++ (shown ++ (slept ++ before))), value, by simp, hgranted⟩

/-- The work at an output of the multiplexer, which is left there. -/
def atPort {α : Type} (c : Piix4) (s : Sb800) (body : Attempt α) : Attempt α := do
  let saved ← s.pm.read s.selector.register
  let wanted := s.selector.set saved c.port
  if wanted = saved then
    body
  else
    s.pm.write s.selector.register wanted
    body

/-- A transaction of which nothing is undone. -/
def advance (c : Piix4) (s : Sb800) (tx : Transaction) : Attempt Payload := do
  c.acquire
  if s.notifyImc then
    let _ ← ExceptT.lift (imcCommand Imc.sleep)
  c.atPort s (c.transact tx)

theorem sameResult_atPort {α : Type} {body : Attempt α} :
    (c.withPort s body).SameResult (c.atPort s body) := by
  refine .bind fun saved => ?_
  dsimp only
  split
  · exact .refl
  · exact .bind fun _ => .outcome_bind fun _ => .lift_bind fun _ => .refl

/-- What is undone has no say in the result. -/
theorem sameResult_advance : (c.transferSb800 s tx).SameResult (c.advance s tx) := by
  have hrest : ∀ asleep : Bool,
      (c.underSemaphore s tx asleep).SameResult (c.atPort s (c.transact tx)) := fun asleep => by
    refine .trans (.outcome_bind fun r => ?_) sameResult_atPort
    cases asleep with
    | true => exact .lift_bind fun _ => .lift_bind fun _ => .refl
    | false => exact .lift_bind fun _ => .refl
  rw [transferSb800_eq]
  refine .bind fun _ => ?_
  dsimp only
  split
  · exact .bind fun asleep => hrest asleep
  · exact hrest false

theorem Switched.path_atPort {α : Type} {body : Attempt α} {r : Except Error α}
    {selected worked restored : List Call}
    (h : Switched s c.port body.Path selected worked restored r) :
    (c.atPort s body).Path (selected ++ worked) r := by
  cases h with
  | @unread _ e hlook =>
      rw [List.append_nil]
      exact path_bind.mpr (.inl ⟨e, PmAccess.path_read.mpr hlook, rfl⟩)
  | same hlook hsame hwork =>
      refine path_bind.mpr (.inr ⟨_, _, _, rfl, PmAccess.path_read.mpr hlook, ?_⟩)
      dsimp only
      rwa [if_pos hsame]
  | @stuck _ _ _ e hlook hother hmove =>
      rw [List.append_nil]
      refine path_bind.mpr (.inr ⟨_, _, _, rfl, PmAccess.path_read.mpr hlook, ?_⟩)
      dsimp only
      rw [if_neg hother]
      exact path_bind.mpr (.inl ⟨e, PmAccess.path_write.mpr hmove, rfl⟩)
  | moved hlook hother hmove hwork hback =>
      rw [List.append_assoc]
      refine path_bind.mpr (.inr ⟨_, _, _, rfl, PmAccess.path_read.mpr hlook, ?_⟩)
      dsimp only
      rw [if_neg hother]
      exact path_bind.mpr (.inr ⟨_, _, _, rfl, PmAccess.path_write.mpr hmove, hwork⟩)

theorem Taken.path_advance {r : Except Error Payload} {t : Steps} (h : Taken c s tx r t) :
    (c.advance s tx).Path t.decisive r := by
  refine path_bind.mpr (.inr ⟨(), _, _, rfl, h.asked, ?_⟩)
  have hslept := h.slept
  dsimp only
  split at hslept
  · rename_i himc
    rw [if_pos himc]
    obtain ⟨asleep, hslept⟩ := hslept
    exact path_lift_bind.mpr ⟨asleep, _, _, rfl, hslept, h.switched.path_atPort⟩
  · rename_i himc
    rw [if_neg himc, hslept]
    exact h.switched.path_atPort

/-- What the steps of a transaction are, and what they are not. -/
structure Bracketed (c : Piix4) (s : Sb800) (tx : Transaction) (r : Except Error Payload)
    (t : Steps) : Prop extends Taken c s tx r t where
  /-- The semaphore is granted before anything else is done. -/
  granted : ∃ before value,
    t.asked = before ++ [⟨.readIo8 (c.info.base + slaveControl), .ok value⟩] ∧
      hasAny value SlaveControl.hostSemaphore = true
  /-- The host is run by the work alone. -/
  confined : ∀ call ∈ t.around, ¬ call.request.Runs c.info.base
  /-- To move the multiplexer leaves the rest of the register as it is. -/
  masked : ∀ saved, s.selector.set saved c.port &&& ~~~s.selector.mask =
    saved &&& ~~~s.selector.mask

section

variable {α : Type} {ok : Request → Prop} {output : UInt8}
  {Work : List Call → Except Error α → Prop} {r : Except Error α}
  {selected worked restored : List Call}

/-- Moving the multiplexer is looking up and setting its register. -/
theorem Switched.moving (hread : (s.pm.read s.selector.register).Only ok)
    (hwrite : ∀ value, (s.pm.write s.selector.register value).Only ok)
    (h : Switched s output Work selected worked restored r) :
    ∀ call ∈ selected ++ restored, ok call.request := by
  have hlooked : ∀ {calls r}, s.pm.Found s.selector.register calls r →
      ∀ call ∈ calls, ok call.request := fun h => hread.path (PmAccess.path_read.mpr h)
  have hmoved : ∀ {value calls r}, s.pm.Put s.selector.register value calls r →
      ∀ call ∈ calls, ok call.request := fun h => (hwrite _).path (PmAccess.path_write.mpr h)
  intro call hc
  cases h with
  | unread hlook | same hlook => exact hlooked hlook call (by simpa using hc)
  | stuck hlook _ hmove =>
      rw [List.append_nil] at hc
      exact (List.mem_append.mp hc).elim (hlooked hlook call) (hmoved hmove call)
  | moved hlook _ hmove _ hback =>
      rw [List.append_assoc, List.mem_append, List.mem_append] at hc
      exact hc.elim (hlooked hlook call) fun hc => hc.elim (hmoved hmove call) (hmoved hback call)

/-- So are all the calls, but for those of the work. -/
theorem Switched.all (hread : (s.pm.read s.selector.register).Only ok)
    (hwrite : ∀ value, (s.pm.write s.selector.register value).Only ok)
    (hwork : ∀ {calls r}, Work calls r → ∀ call ∈ calls, ok call.request)
    (h : Switched s output Work selected worked restored r) :
    ∀ call ∈ selected ++ (worked ++ restored), ok call.request := by
  have hmoving := h.moving hread hwrite
  have hworked : ∀ call ∈ worked, ok call.request := by
    cases h with
    | unread | stuck => exact List.forall_mem_nil _
    | same _ _ hdone | moved _ _ _ hdone => exact hwork hdone
  intro call hc
  simp only [List.mem_append] at hc hmoving
  obtain hc | hc | hc := hc
  · exact hmoving call (.inl hc)
  · exact hworked call hc
  · exact hmoving call (.inr hc)

theorem Switched.confined {base : UInt16} (hbase : base.toNat % 32 = 0)
    (h : Switched s output Work selected worked restored r) :
    ∀ call ∈ selected ++ restored, ¬ call.request.Runs base :=
  have hboard : ∀ request : Request, request.Board false → ¬ request.Runs base :=
    fun _ h => h.not_runs hbase
  h.moving ((s.pm.only_read _).mono hboard) fun _ => (s.pm.only_write _ _).mono hboard

end

theorem Released.confined {base : UInt16} (h : Released base calls) :
    ∀ call ∈ calls, ¬ call.request.Runs base := by
  have htouches : ∀ call ∈ calls,
      call.request.Touches base [slaveControl] [slaveControl] false := by
    intro call hc
    cases h with
    | unread e =>
        rw [List.mem_singleton.mp hc]
        exact .read List.mem_cons_self
    | written value answer =>
        obtain rfl | hc := List.mem_cons.mp hc
        · exact .read List.mem_cons_self
        · rw [List.mem_singleton.mp hc]
          exact .write List.mem_cons_self _
  exact fun call hc => (htouches call hc).not_runs

/-- The micro-controller is reached through its mailbox. -/
theorem Taken.mail {r : Except Error Payload} {t : Steps} (h : Taken c s tx r t) :
    ∀ call ∈ t.slept ++ t.woken, call.request.Mail true := by
  have himc : ∀ {command calls acknowledged}, (imcCommand command).Path calls acknowledged →
      ∀ call ∈ calls, call.request.Mail true := fun h => (only_imcCommand _).path h
  intro call hc
  obtain hc | hc := List.mem_append.mp hc
  · have hslept := h.slept
    split at hslept
    · exact himc hslept.choose_spec call hc
    · rw [hslept] at hc
      cases hc
  · obtain ha | ha := Classical.em (Acknowledges t.slept)
    · exact himc (h.woken ha).2.choose_spec call hc
    · rw [h.left ha] at hc
      cases hc

theorem Taken.bracketed {r : Except Error Payload} {t : Steps}
    (hbase : c.info.base.toNat % 32 = 0) (h : Taken c s tx r t) : Bracketed c s tx r t := by
  refine ⟨h, granted_of_path h.asked, fun call hc => ?_, fun saved => s.selector.set_outside _ _⟩
  have hswitched := h.switched.confined hbase call
  have hmail := h.mail call
  simp only [Steps.around, List.mem_append] at hc hswitched hmail
  obtain ((((hc | hc) | hc) | hc) | hc) | hc := hc
  · exact (c.only_acquire.path h.asked call hc).not_runs
  · exact (hmail (.inl hc)).board.not_runs hbase
  · exact hswitched (.inl hc)
  · exact hswitched (.inr hc)
  · exact (hmail (.inr hc)).board.not_runs hbase
  · exact h.released.confined call hc

end Piix4

/-- On any machine, a transaction of a part of the SB800 class is not begun without the semaphore.
With it, it is done step by step, and what was done is undone whatever is answered. The result is
the same however the steps that undo are answered. -/
theorem brackets_unwound {found : Detected} {config : Config} {port₀ : Port} {past₀ : List Call}
    {c : Piix4} {s : Piix4.Sb800}
    (hc : ((Controller.init .piix4 .direct found config).run.run port₀.answer past₀).1 =
      .ok (.piix4 c))
    (hs : c.sb800 = some s) (tx : Transaction) (port : Port) :
    (∀ e, (c.acquire.run.run port.answer []).1 = .error e →
      ((c.transfer tx).run.run port.answer []).1 = .error e ∧
      ∀ call ∈ ((c.transfer tx).run.run port.answer []).2, ¬ call.request.Runs c.info.base) ∧
    ((c.acquire.run.run port.answer []).1 = .ok () → ∃ t : Piix4.Steps,
      ((c.transfer tx).run.run port.answer []).2 = t.calls ∧
      Piix4.Bracketed c s tx ((c.transfer tx).run.run port.answer []).1 t ∧
      ∀ port' : Port, port'.Gives [] t.decisive →
        ((c.transfer tx).run.run port'.answer []).1 =
          ((c.transfer tx).run.run port.answer []).1) := by
  obtain ⟨htransport, -, hwide⟩ :=
    (Controller.yields_init .piix4 found config).run port₀.answer past₀ _ hc
  have hbase := hwide (by rw [hs]; rfl)
  have htransfer : c.transfer tx = c.transferSb800 s tx := by rw [Piix4.transfer, htransport, hs]
  rw [htransfer]
  obtain ⟨calls, hrun, hpath, hgives⟩ := path_run (c.transferSb800 s tx).run port []
  rw [List.nil_append] at hrun
  rw [hrun]
  obtain ⟨e, hasked, hresult⟩ | ⟨t, rfl, htaken⟩ := Piix4.path_transferSb800 hpath
  · -- The path through the request for the semaphore is the one that it takes alone.
    have hacquire := hasked.run hgives
    refine ⟨fun e' he => ?_, fun hok => ?_⟩
    · rw [hacquire] at he
      cases he
      exact ⟨hresult, fun call hc => (c.only_acquire.path hasked call hc).not_runs⟩
    · rw [hacquire] at hok
      cases hok
  · have hacquire := htaken.asked.run hgives.left.left
    refine ⟨fun e he => ?_, fun _ => ⟨t, rfl, htaken.bracketed hbase, fun port' hgives' => ?_⟩⟩
    · rw [hacquire] at he
      cases he
    · rw [Piix4.sameResult_advance _ port'.answer, htaken.path_advance.run hgives']

/-- A memory-mapped part that grants the semaphore and completes every transaction, and whose
micro-controller acknowledges every command. -/
def Port.obliging : Port := fun past request =>
  match request with
  | .readIo8 address =>
    if address = 0x0B08 then .ok Piix4.SlaveControl.hostSemaphore
    else if address = Piix4.Imc.data then .ok Piix4.Imc.acknowledged
    else if address = 0x0B00 ∧ past.any fun call => Call.asksStart 0x0B00 call.request then
      .ok Status.interrupt
    else .ok 0
  | other => Port.mapped past other

theorem brackets_unwound_obliging : ∃ c s,
    ((Controller.init .piix4 .direct ⟨⟨Piix4.amdLocation, Pci.Vendor.amd, 0x790B, 0x51⟩, none⟩
      { piix4Port := 1 }).run.run Port.obliging.answer []).1 = .ok (.piix4 c) ∧
    c.sb800 = some s ∧ s.notifyImc = true ∧
    (c.acquire.run.run Port.obliging.answer []).1 = .ok () ∧
    ((c.transfer (.readByteData 0x50 2)).run.run Port.obliging.answer []).1 = .ok (.byte 0) ∧
    ∃ t : Piix4.Steps,
      ((c.transfer (.readByteData 0x50 2)).run.run Port.obliging.answer []).2 = t.calls ∧
      Piix4.Bracketed c s (.readByteData 0x50 2)
        ((c.transfer (.readByteData 0x50 2)).run.run Port.obliging.answer []).1 t := by
  obtain ⟨c, s, hc, hs, himc, hacquire, hresult⟩ : ∃ c s,
      ((Controller.init .piix4 .direct ⟨⟨Piix4.amdLocation, Pci.Vendor.amd, 0x790B, 0x51⟩, none⟩
        { piix4Port := 1 }).run.run Port.obliging.answer []).1 = .ok (.piix4 c) ∧
      c.sb800 = some s ∧ s.notifyImc = true ∧
      (c.acquire.run.run Port.obliging.answer []).1 = .ok () ∧
      ((c.transfer (.readByteData 0x50 2)).run.run Port.obliging.answer []).1 = .ok (.byte 0) :=
    ⟨_, _, rfl, rfl, rfl, rfl, rfl⟩
  obtain ⟨t, hcalls, hbracketed, -⟩ :=
    (brackets_unwound hc hs (.readByteData 0x50 2) Port.obliging).2 hacquire
  exact ⟨c, s, hc, hs, himc, hacquire, hresult, t, hcalls, hbracketed⟩

end DimmBus
