import DimmBus.Proofs.BringUp
import DimmBus.Proofs.CleanCompletion
import DimmBus.Proofs.Operations
import DimmBus.Proofs.Scripts

/-!
# Waiting is bounded

Whatever a machine answers, the pauses of a transaction add up to no more than its controller's
patience, and a read of a known module takes no more than its share of attempts.
-/

namespace DimmBus

open Access HostRegister
open Request (Touches Board)

variable {α β : Type} {cost : Request → Nat}

/-! ## What programs spend -/

/-- How long a request pauses, in microseconds. -/
def Request.pause : Request → Nat
  | .sleep us => us.toNat
  | _ => 0

/-- Whether a request looks at the status of the host at a base address. -/
def Request.look (base : UInt16) (request : Request) : Nat :=
  if request = .readIo8 (base + status) then 1 else 0

/-- The cost of all calls. -/
def spent (cost : Request → Nat) : List Call → Nat
  | [] => 0
  | made :: calls => cost made.request + spent cost calls

namespace Access

/-- Whatever the answers, the requests of the program cost no more than the budget. -/
def Spends (cost : Request → Nat) : (budget : Nat) → Access α → Prop
  | _, .done _ => True
  | budget, .call request next =>
    ∃ rest, cost request + rest ≤ budget ∧ ∀ answer, (next answer).Spends cost rest

variable {n m : Nat}

theorem Spends.mono {x : Access α} (hx : x.Spends cost n) (h : n ≤ m) : x.Spends cost m := by
  cases x with
  | done value => trivial
  | call request next =>
      obtain ⟨rest, hcost, hnext⟩ := hx
      exact ⟨rest, Nat.le_trans hcost h, hnext⟩

theorem Spends.bind {x : Access α} {f : α → Access β} (hx : x.Spends cost n)
    (hf : ∀ a, (f a).Spends cost m) : (x >>= f).Spends cost (n + m) := by
  induction x generalizing n with
  | done value => exact (hf value).mono (Nat.le_add_left m n)
  | call request next ih =>
      obtain ⟨rest, hcost, hnext⟩ := hx
      exact ⟨rest + m, by omega, fun answer => ih answer (hnext answer)⟩

/-- Free requests need no budget. -/
theorem Only.free {x : Access α} {ok : Request → Prop} (hx : x.Only ok)
    (h : ∀ request, ok request → cost request = 0) : x.Spends cost 0 := by
  induction x with
  | done value => trivial
  | call request next ih =>
      exact ⟨0, Nat.le_of_eq (h request hx.1), fun answer => ih answer (hx.2 answer)⟩

theorem Spends.calls {x : Access α} (hx : x.Spends cost n) (port : Port) (past : List Call) :
    ∃ calls, (x.run port.answer past).2 = past ++ calls ∧ spent cost calls ≤ n := by
  induction x generalizing n past with
  | done value => exact ⟨[], (List.append_nil past).symm, Nat.zero_le n⟩
  | call request next ih =>
      let call : Call := ⟨request, port past request⟩
      obtain ⟨rest, hcost, hnext⟩ := hx
      obtain ⟨calls, hrun, hspent⟩ := ih call.answer (hnext call.answer) (past ++ [call])
      refine ⟨call :: calls, hrun.trans (List.append_assoc ..), ?_⟩
      calc spent cost (call :: calls) = cost request + spent cost calls := rfl
        _ ≤ n := by omega

/-- On a fresh port. -/
theorem Spends.run {x : Access α} (hx : x.Spends cost n) (port : Port) :
    spent cost (x.run port.answer []).2 ≤ n := by
  obtain ⟨calls, hrun, hspent⟩ := hx.calls port []
  rw [hrun]
  exact hspent

end Access

namespace Attempt

/-- The same for a program that can fail. -/
def Spends (cost : Request → Nat) (budget : Nat) (x : Attempt α) : Prop := x.run.Spends cost budget

variable {n m : Nat}

theorem Spends.mono {x : Attempt α} (hx : x.Spends cost n) (h : n ≤ m) : x.Spends cost m :=
  Access.Spends.mono hx h

theorem Spends.pure (a : α) : Spends cost n (pure a) := trivial

theorem Spends.throw (e : Error) : Spends cost n (throw e : Attempt α) := trivial

theorem Spends.ofExcept (r : Except Error α) : Spends cost n (ofExcept r) := trivial

theorem Spends.bind {x : Attempt β} {f : β → Attempt α} (hx : x.Spends cost n)
    (hf : ∀ b, (f b).Spends cost m) : (x >>= f).Spends cost (n + m) := by
  unfold Spends
  rw [ExceptT.run_bind]
  refine Access.Spends.bind hx fun r => ?_
  cases r with
  | ok b => exact hf b
  | error e => trivial

theorem Spends.ite {p : Prop} [Decidable p] {x y : Attempt α} (hx : x.Spends cost n)
    (hy : y.Spends cost n) : (if p then x else y).Spends cost n := by
  split
  · exact hx
  · exact hy

theorem Spends.lift {x : Access α} (hx : x.Spends cost n) : Spends cost n (ExceptT.lift x) := by
  unfold Spends
  rw [ExceptT.run_lift, map_eq_pure_bind]
  exact Access.Spends.bind (m := 0) hx fun _ => trivial

theorem Spends.outcome {x : Attempt α} (hx : x.Spends cost n) : x.outcome.Spends cost n := .lift hx

theorem Spends.quietly {x : Attempt α} (hx : x.Spends cost n) : x.quietly.Spends cost n :=
  Access.Spends.bind (m := 0) hx fun _ => trivial

/-- A single request. -/
theorem spends_readIo8 (address : UInt16) :
    (readIo8 address).Spends cost (cost (.readIo8 address)) := ⟨0, Nat.le_refl _, fun _ => trivial⟩

theorem spends_sleep (us : UInt32) : (Access.sleep us).Spends cost (cost (.sleep us)) :=
  ⟨0, Nat.le_refl _, fun _ => trivial⟩

/-- A free part in front. -/
theorem Spends.after {x : Attempt β} {f : β → Attempt α} (hx : x.Spends cost 0)
    (hf : ∀ b, (f b).Spends cost n) : (x >>= f).Spends cost n :=
  (hx.bind hf).mono (Nat.le_of_eq (Nat.zero_add n))

/-- A free part behind. -/
theorem Spends.before {x : Attempt β} {f : β → Attempt α} (hx : x.Spends cost n)
    (hf : ∀ b, (f b).Spends cost 0) : (x >>= f).Spends cost n := hx.bind hf

end Attempt

open Attempt

/-! ## On Intel hosts -/

/-- Nothing costs anything on the host at a base address but pauses and looks at its status. -/
def Cheap (cost : Request → Nat) (base : UInt16) : Prop :=
  ∀ {reads writes request}, List.contains reads status = false →
    Touches base reads writes false request → cost request = 0

theorem Attempt.Only.cheap {x : Attempt α} {base : UInt16} {reads writes : List UInt16}
    (hx : x.Only (Touches base reads writes false)) (hc : Cheap cost base)
    (hs : reads.contains status = false) : x.Spends cost 0 :=
  Access.Only.free hx fun _ h => hc hs h

theorem Cheap.write {base offset : UInt16} {value : UInt8} (hc : Cheap cost base) :
    (writeIo8 (base + offset) value).Spends cost 0 := by
  have h : (writeIo8 (base + offset) value).Only (Touches base [] [offset] false) :=
    touches_write (by simp)
  exact h.cheap hc rfl

theorem Cheap.read {base offset : UInt16} (hc : Cheap cost base) (hs : offset ≠ status) :
    (readIo8 (base + offset)).Spends cost 0 := by
  have h : (readIo8 (base + offset)).Only (Touches base [offset] [] false) :=
    touches_read (by simp)
  exact h.cheap hc (by simp [Ne.symm hs])

theorem cheap_pause (base : UInt16) : Cheap Request.pause base := fun _ h => by
  cases h with
  | read _ => rfl
  | write _ _ => rfl
  | sleep h _ => cases h

theorem cheap_look (base : UInt16) : Cheap (Request.look base) base := fun {reads _ _} hs h => by
  cases h with
  | @read offset ho =>
      refine if_neg fun heq => ?_
      injection heq with heq
      rw [(UInt16.add_right_inj base).mp heq, ← List.contains_iff_mem, hs] at ho
      cases ho
  | write _ _ => rfl
  | sleep h _ => cases h

/-- What the wait for completion costs: so many pauses, each with a look. -/
def PollBudget.waitCost (b : PollBudget) (cost : Request → Nat) (base : UInt16) : Nat :=
  b.retries.toNat * (cost (.sleep b.quantumUs) + cost (.readIo8 (base + status)))

namespace Ich

variable (c : Ich) (tx : Transaction)

theorem spends_await : c.await.Spends cost (c.poll.waitCost cost c.info.base) := by
  have hwithin : ∀ n, (c.awaitWithin n).Spends cost
      (n * (cost (.sleep c.poll.quantumUs) + cost (.readIo8 (c.info.base + status)))) := by
    intro n
    induction n with
    | zero => exact .throw _
    | succ n ih =>
        refine ((spends_sleep _).bind fun _ =>
          (spends_readIo8 (c.info.base + status)).bind fun _ => .ite (.pure _) ih).mono ?_
        rw [Nat.succ_mul]
        exact Nat.le_of_eq (by omega)
  exact hwithin _

variable (hc : Cheap cost c.info.base)

include hc

theorem spends_runIdle : (c.runIdle tx).Spends cost (c.poll.waitCost cost c.info.base) := by
  have hexecute : (c.execute tx).Spends cost (c.poll.waitCost cost c.info.base) :=
    .after hc.write fun _ => c.spends_await.before fun final =>
      .after ((c.only_checkStatus tx final).cheap hc rfl) fun _ =>
        (HostData.only_collect tx).cheap hc rfl
  exact .after ((c.only_program tx).cheap hc rfl) fun _ => hexecute.outcome.before fun _ =>
    .after ((c.only_disableAux _).cheap hc rfl) fun _ => .ofExcept _

theorem spends_transact : (c.transact tx).Spends cost
    (cost (.readIo8 (c.info.base + status)) + c.poll.waitCost cost c.info.base) :=
  (spends_readIo8 _).bind fun _ => .ite (.after hc.write fun _ => .throw _) <|
    .ite (.after hc.write fun _ => c.spends_runIdle tx hc) (c.spends_runIdle tx hc)

theorem spends_kill : c.kill.Spends cost
    (cost (.sleep killDelayUs) + cost (.readIo8 (c.info.base + status))) :=
  Spends.quietly <| .after hc.write fun _ => (spends_sleep _).bind fun _ =>
    .after hc.write fun _ => spends_readIo8 _

theorem spends_transferDirect : (c.transferDirect tx).Spends cost
    (c.poll.waitCost cost c.info.base + cost (.sleep killDelayUs) +
      2 * cost (.readIo8 (c.info.base + status))) := by
  have hfree : ∀ r, (c.free r).Spends cost 0 := fun r =>
    .after (.lift (Access.Only.free c.only_cleanUp fun _ => hc rfl)) fun _ => .ofExcept r
  have hwindUp : ∀ r, (c.windUp r).Spends cost
      (cost (.sleep killDelayUs) + cost (.readIo8 (c.info.base + status))) := fun r =>
    .ite ((Spends.lift (c.spends_kill hc)).before fun _ => hfree r)
      ((hfree r).mono (Nat.zero_le _))
  rw [transferDirect_eq]
  exact ((c.spends_transact tx hc).outcome.bind hwindUp).mono (Nat.le_of_eq (by omega))

end Ich

/-! ## On PIIX4-compatible hosts -/

namespace Piix4

variable (c : Piix4) (tx : Transaction)

/-- The pause after the start bit. -/
def startPause : UInt32 := if c.info.traits.postStartDelay then longStartDelayUs else startDelayUs

section

variable (hc : Cheap cost c.info.base)

include hc

theorem spends_await : c.await.Spends cost (c.poll.waitCost cost c.info.base) := by
  have hwithin : ∀ n last, (c.awaitWithin n last).Spends cost
      (n * (cost (.sleep c.poll.quantumUs) + cost (.readIo8 (c.info.base + status)))) := by
    intro n
    induction n with
    | zero => exact fun _ => (Spends.after hc.write fun _ => .throw _).mono (Nat.zero_le _)
    | succ n ih =>
        refine fun _ => ((spends_sleep _).bind fun _ =>
          (spends_readIo8 (c.info.base + status)).bind fun _ => .ite (.pure _) (ih _)).mono ?_
        rw [Nat.succ_mul]
        exact Nat.le_of_eq (by omega)
  exact hwithin _ _

theorem spends_clearStatus :
    c.clearStatus.Spends cost (2 * cost (.readIo8 (c.info.base + status))) := by
  refine ((spends_readIo8 _).bind fun _ => .ite (.pure _) <| .after hc.write fun _ =>
    (spends_readIo8 _).before fun _ => .ite (.pure _) (.throw _)).mono ?_
  exact Nat.le_of_eq (Nat.two_mul _).symm

theorem spends_start : (c.start tx).Spends cost (cost (.sleep c.startPause)) :=
  .after hc.write fun _ => .after (hc.read (by decide)) fun _ => .after hc.write fun _ =>
    spends_sleep _

theorem spends_transact : (c.transact tx).Spends cost
    (c.poll.waitCost cost c.info.base + cost (.sleep c.startPause) +
      3 * cost (.readIo8 (c.info.base + status))) := by
  refine ((c.spends_clearStatus hc).bind fun _ => .after ((c.only_program tx).cheap hc rfl) fun _ =>
    (c.spends_start tx hc).bind fun _ => (c.spends_await hc).bind fun _ => .after hc.write fun _ =>
      (spends_readIo8 (c.info.base + status)).before fun _ => ?_).mono
        (Nat.le_of_eq (by omega))
  split
  · exact .throw _
  · exact (HostData.only_collect tx).cheap hc rfl

theorem spends_acquire :
    c.acquire.Spends cost (semaphorePolls * cost (.sleep semaphoreQuantumUs)) := by
  have hslave : slaveControl ≠ status := by decide
  have hwithin : ∀ n last, (c.acquireWithin n last).Spends cost
      (n * cost (.sleep semaphoreQuantumUs)) := by
    intro n
    induction n with
    | zero => exact fun _ => .throw _
    | succ n ih =>
        refine fun _ => (Spends.after (hc.read hslave) fun _ => .after hc.write fun _ =>
          .after (hc.read hslave) fun _ =>
            .ite (.pure _) ((spends_sleep _).bind fun _ => ih _)).mono ?_
        rw [Nat.succ_mul]
        exact Nat.le_of_eq (Nat.add_comm ..)
  exact hwithin _ _

end

section

variable (s : Sb800) (hc : Cheap cost c.info.base)
  (hb : ∀ request, Board false request → cost request = 0)

include hb

theorem spends_imcCommand (command : UInt8) :
    (imcCommand command).Spends cost (imcPolls * cost (.sleep imcQuantumUs)) := by
  have hfree : ∀ {α : Type} {x : Attempt α}, x.Only (Board false) → x.Spends cost 0 :=
    fun hx => Access.Only.free hx hb
  have hmail : ∀ index value, (writeMailbox index value).Spends cost 0 := fun _ _ =>
    hfree ((only_writeMailbox _ _).mono fun _ h => h.board)
  have hawait : ∀ n, (awaitImc n).Spends cost (n * cost (.sleep imcQuantumUs)) := by
    intro n
    induction n with
    | zero => exact .pure _
    | succ n ih =>
        refine (Spends.after (hfree (only_writeIo8 (.write (by decide) _))) fun _ =>
          .after (hfree (only_readIo8 (.read (by decide)))) fun _ =>
            .ite (.pure _) ((spends_sleep _).bind fun _ => ih)).mono ?_
        rw [Nat.succ_mul]
        exact Nat.le_of_eq (Nat.add_comm ..)
  have hshake : (imcHandshake command).Spends cost (imcPolls * cost (.sleep imcQuantumUs)) :=
    .after (hmail _ _) fun _ => .after (hmail _ _) fun _ => .after (hmail _ _) fun _ => hawait _
  refine Access.Spends.bind (m := 0) hshake fun r => ?_
  cases r <;> trivial

theorem spends_withPort {body : Attempt α} {n : Nat} (hbody : body.Spends cost n) :
    (c.withPort s body).Spends cost n := by
  have hfree : ∀ {α : Type} {x : Attempt α}, x.Only (Board false) → x.Spends cost 0 :=
    fun hx => Access.Only.free hx hb
  exact .after (hfree (s.pm.only_read _)) fun _ => .ite hbody <|
    .after (hfree (s.pm.only_write _ _)) fun _ => hbody.outcome.before fun _ =>
      .after (.lift (hfree (s.pm.only_write _ _)).quietly) fun _ => .ofExcept _

include hc

/-- What the bracket around a transaction costs. -/
theorem spends_transferSb800 : (c.transferSb800 s tx).Spends cost
    (c.poll.waitCost cost c.info.base + cost (.sleep c.startPause) +
      3 * cost (.readIo8 (c.info.base + status)) +
      semaphorePolls * cost (.sleep semaphoreQuantumUs) +
      if s.notifyImc then 2 * (imcPolls * cost (.sleep imcQuantumUs)) else 0) := by
  have hbody := (c.spends_withPort s hb (c.spends_transact tx hc)).outcome
  have hback : ∀ r, (c.giveBack r).Spends cost 0 := fun r =>
    .after (.lift (Access.Only.free c.only_release fun _ => hc rfl)) fun _ => .ofExcept r
  have himc := fun command => Spends.lift (spends_imcCommand hb command)
  have hwindUp : ∀ asleep r, (c.windUp asleep r).Spends cost
      (imcPolls * cost (.sleep imcQuantumUs)) := fun asleep r =>
    .ite ((himc Imc.wake).before fun _ => hback r) ((hback r).mono (Nat.zero_le _))
  rw [transferSb800_eq]
  cases s.notifyImc with
  | false =>
      refine ((c.spends_acquire hc).bind fun _ => hbody.before fun r => hback r).mono ?_
      exact Nat.le_of_eq (by simp only [Bool.false_eq_true, if_false]; omega)
  | true =>
      refine ((c.spends_acquire hc).bind fun _ => (himc Imc.sleep).bind fun asleep =>
        hbody.bind (hwindUp asleep)).mono ?_
      exact Nat.le_of_eq (by simp only [if_true]; omega)

end

end Piix4

/-! ## On every controller -/

/-- The longest that one transaction can pause, in microseconds. -/
def ControllerInfo.patience (info : ControllerInfo) (config : Config) : Nat :=
  let vendor := info.identity.vendor
  let device := info.identity.device
  match info.family with
  | .ich => config.ichPoll.worstCaseUs + 1000
  | .piix4 => config.piix4Poll.worstCaseUs +
      (if vendor = Pci.Vendor.serverWorks ∧ device = Piix4.DeviceId.csb5 then 2000 else 25) +
      (if Piix4.isSb800 vendor device info.identity.revision then 5 * 1000 else 0) +
      if info.traits.notifiesImc then 2 * 500 * 1000 else 0

namespace Controller

/-- Waits until a transaction is complete. -/
def await : Controller → Attempt UInt8
  | .ich c => c.await
  | .piix4 c => c.await

/-- A controller that is driven directly and waits as the configuration and the part say. -/
def Paced (config : Config) : Controller → Prop
  | .ich c => c.info.family = .ich ∧ c.info.transport = .direct ∧ c.poll = config.ichPoll
  | .piix4 c => c.info.family = .piix4 ∧ c.info.transport = .direct ∧ c.poll = config.piix4Poll ∧
      c.info.traits.postStartDelay =
        Piix4.needsStartDelay c.info.identity.vendor c.info.identity.device ∧
      c.info.traits.notifiesImc = c.sb800.any (·.notifyImc) ∧
      (c.sb800.isSome = true → Piix4.isSb800 c.info.identity.vendor c.info.identity.device
        c.info.identity.revision = true)

end Controller

theorem Piix4.yields_sb800 (found : Detected) : (settle found .direct).Yields fun r =>
    r.2.isSome = true → isSb800 found.identity.vendor found.identity.device
      found.identity.revision = true := by
  unfold settle
  dsimp only
  split
  · rename_i h
    exact .after fun _ => .pure fun _ => h
  · exact .after fun _ => .pure nofun

theorem Controller.yields_paced (family : Family) (found : Detected) (config : Config) :
    (Controller.init family .direct found config).Yields (Paced config) := by
  cases family with
  | ich =>
      change (Controller.ich <$> Ich.init .direct found config).Yields _
      rw [map_eq_pure_bind]
      refine Yields.bind (Q := fun c => Paced config (.ich c)) ?_ fun c hc => .pure hc
      unfold Ich.init
      split
      · exact .throw _
      · exact .after fun _ => .pure ⟨rfl, rfl, rfl⟩
  | piix4 =>
      change (Controller.piix4 <$> Piix4.init .direct found config).Yields _
      rw [map_eq_pure_bind]
      refine Yields.bind (Q := fun c => Paced config (.piix4 c)) ?_ fun c hc => .pure hc
      unfold Piix4.init
      dsimp only
      split
      · exact .throw _
      · refine .ite (.throw _) ((Piix4.yields_sb800 found).bind fun r hr => ?_)
        exact .ite (.throw _) (.pure ⟨rfl, rfl, rfl, rfl, rfl, hr⟩)

namespace Controller

variable {config : Config} {c : Controller}

theorem spends_transfer (hc : c.Paced config) (tx : Transaction) :
    (c.transfer tx).Spends Request.pause (c.info.patience config) := by
  cases c with
  | ich c =>
      obtain ⟨hfamily, htransport, hpoll⟩ := hc
      change (c.transfer tx).Spends _ (c.info.patience config)
      rw [Ich.transfer, htransport]
      refine (c.spends_transferDirect tx (cheap_pause _)).mono (Nat.le_of_eq ?_)
      rw [ControllerInfo.patience, hfamily, ← hpoll]
      rfl
  | piix4 c =>
      obtain ⟨hfamily, htransport, hpoll, hdelay, himc, hsb⟩ := hc
      have hwait : c.poll.waitCost Request.pause c.info.base +
          Request.pause (.sleep c.startPause) = config.piix4Poll.worstCaseUs +
            if c.info.identity.vendor = Pci.Vendor.serverWorks ∧
              c.info.identity.device = Piix4.DeviceId.csb5 then 2000 else 25 := by
        rw [← hpoll, Piix4.startPause, hdelay, Piix4.needsStartDelay]
        simp only [decide_eq_true_eq]
        split
        · rfl
        · rfl
      change (c.transfer tx).Spends _ (c.info.patience config)
      rw [Piix4.transfer, htransport, ControllerInfo.patience, hfamily]
      dsimp only
      rw [← hwait, himc]
      cases hs : c.sb800 with
      | none =>
          refine (c.spends_transact tx (cheap_pause _)).mono ?_
          exact Nat.le_add_right _ _
      | some s =>
          have hsb800 := hsb (by rw [hs]; rfl)
          rw [hsb800]
          refine (c.spends_transferSb800 tx s (cheap_pause _) ?_).mono (Nat.le_of_eq ?_)
          · intro request h
            cases h with
            | sleep h _ => cases h
            | _ => rfl
          · rfl

/-- The status is looked at once for each pause of the wait. -/
theorem looks_await (hc : c.Paced config) :
    c.await.Spends (Request.look c.info.base) (config.poll c.family).retries.toNat := by
  have hlook : ∀ (b : PollBudget) base,
      b.waitCost (Request.look base) base = b.retries.toNat := fun b base => by
    simp [PollBudget.waitCost, Request.look]
  cases c with
  | ich c =>
      have hwait : c.await.Spends (Request.look c.info.base)
          (c.poll.waitCost (Request.look c.info.base) c.info.base) := c.spends_await
      rw [hlook, hc.2.2] at hwait
      exact hwait
  | piix4 c =>
      have hwait := c.spends_await (cheap_look c.info.base)
      rw [hlook, hc.2.2.1] at hwait
      exact hwait

/-- Besides the wait there are few looks, before the start and at the end. -/
theorem looks_transfer (hc : c.Paced config) (hs : c.Seated) (tx : Transaction) :
    (c.transfer tx).Spends (Request.look c.info.base)
      ((config.poll c.family).retries.toNat + 3) := by
  cases c with
  | ich c =>
      obtain ⟨-, htransport, hpoll⟩ := hc
      change (c.transfer tx).Spends (Request.look c.info.base) _
      rw [Ich.transfer, htransport]
      refine (c.spends_transferDirect tx (cheap_look _)).mono ?_
      simp [PollBudget.waitCost, Request.look, hpoll, Config.poll, Controller.family]
  | piix4 c =>
      obtain ⟨-, htransport, hpoll, -⟩ := hc
      change (c.transfer tx).Spends (Request.look c.info.base) _
      rw [Piix4.transfer, htransport]
      cases hsb : c.sb800 with
      | none =>
          refine (c.spends_transact tx (cheap_look _)).mono ?_
          simp [PollBudget.waitCost, Request.look, hpoll, Config.poll, Controller.family]
      | some s =>
          have hbase := hs.2.2 (by rw [hsb]; rfl)
          refine (c.spends_transferSb800 tx s (cheap_look _) fun request h => ?_).mono ?_
          · exact if_neg ((Piix4.aside_of_board hbase h).2 status (by decide))
          · simp [PollBudget.waitCost, Request.look, hpoll, Config.poll, Controller.family]

end Controller

/-! ## In a session -/

/-- Whether the lock was asked for, with success or not. -/
def Exchange.isTry : Exchange → Bool
  | .refused _ | .locked => true
  | _ => false

/-- Whether a transaction was handed over. -/
def Exchange.isHanded : Exchange → Bool
  | .handed .. => true
  | _ => false

/-- The lock was asked for so many times at most, and so many transactions were handed over. -/
def Sparing (tries hands : Nat) (past : List Exchange) : Prop :=
  past.countP Exchange.isTry ≤ tries ∧ past.countP Exchange.isHanded ≤ hands

namespace Sparing

variable {tries hands : Nat} {past : List Exchange}

theorem mono {tries' hands' : Nat} (h : Sparing tries hands past) (ht : tries ≤ tries')
    (hh : hands ≤ hands') : Sparing tries' hands' past :=
  ⟨Nat.le_trans h.1 ht, Nat.le_trans h.2 hh⟩

theorem snoc {x : Exchange} (h : Sparing tries hands past) :
    Sparing (tries + x.isTry.toNat) (hands + x.isHanded.toNat) (past ++ [x]) := by
  simp only [Sparing, List.countP_append, List.countP_singleton]
  cases x <;> exact ⟨Nat.add_le_add_right h.1 _, Nat.add_le_add_right h.2 _⟩

end Sparing

namespace Script

variable {last held : Bool} {may : List Exchange → Transaction → Prop}

/-- Every script comes to an end. -/
theorem Meets.reaches {post : α → List Exchange → Prop} {script : Script α last held}
    {past : List Exchange} (h : script.Meets may post past) :
    ∃ a later, post a (past ++ later) := by
  induction script generalizing past with
  | done value => exact ⟨value, [], by rwa [List.append_nil]⟩
  | lock timeoutUs refused granted ihr ihg =>
      obtain ⟨a, later, hp⟩ := ihg h.2
      exact ⟨a, .locked :: later, by rwa [List.append_assoc] at hp⟩
  | unlock next ih =>
      obtain ⟨a, later, hp⟩ := ih h
      exact ⟨a, .unlocked :: later, by rwa [List.append_assoc] at hp⟩
  | hand tx next ih =>
      obtain ⟨a, later, hp⟩ := ih (.ok .none) (h.2 (.ok .none))
      exact ⟨a, .handed tx (.ok .none) :: later, by rwa [List.append_assoc] at hp⟩

/-- A script costs what the transactions cost that it hands over. -/
theorem perform_spends {c : Controller} {cost : Request → Nat} {each : Nat}
    (hlock : ∀ timeoutUs, cost (.lock timeoutUs) = 0) (hunlock : cost .unlock = 0)
    (heach : ∀ tx, (c.transfer tx).Spends cost each) {script : Script α last held} {n : Nat}
    {past : List Exchange} (h : script.Meets may (fun _ done =>
      done.countP Exchange.isHanded ≤ past.countP Exchange.isHanded + n) past) :
    (script.perform c).Spends cost (n * each) := by
  -- On the script; each transaction takes one from what may still be handed over.
  induction script generalizing past n with
  | done value => trivial
  | lock timeoutUs refused granted ihr ihg =>
      simp only [perform]
      refine ⟨n * each, by simp [hlock], fun answer => ?_⟩
      cases answer with
      | ok _ => exact ihg (h.2.mono fun _ _ hn => by simpa [Exchange.isHanded] using hn)
      | error e => exact ihr e ((h.1 e).mono fun _ _ hn => by simpa [Exchange.isHanded] using hn)
  | unlock next ih =>
      simp only [perform]
      exact ⟨n * each, by simp [hunlock], fun _ =>
        ih (h.mono fun _ _ hn => by simpa [Exchange.isHanded] using hn)⟩
  | hand tx next ih =>
      obtain ⟨_, later, hend⟩ := (h.2 (.ok .none)).reaches
      have hmore : ∀ answer, (past ++ [Exchange.handed tx answer]).countP Exchange.isHanded =
          past.countP Exchange.isHanded + 1 := fun _ => List.countP_append
      rw [List.countP_append, hmore] at hend
      obtain ⟨k, rfl⟩ : ∃ k, n = k + 1 := ⟨n - 1, by omega⟩
      rw [Nat.succ_mul, Nat.add_comm]
      refine Access.Spends.bind (heach tx) fun answer => ih answer ((h.2 answer).mono ?_)
      intro _ _ hn
      rw [hmore]
      omega

end Script

namespace Session

variable {link : Link} {tries hands : Nat}

theorem planned_send (tx : Transaction) : Planned link.controller anything true true
    (fun _ => Sparing tries hands) (send link tx) (fun _ _ => Sparing tries (hands + 1))
    fun _ _ => Sparing tries (hands + 1) :=
  Planned.send (fun _ _ _ h => h.mono (Nat.le_refl _) (Nat.le_succ _)) (fun _ _ _ => trivial)
    (fun _ _ _ h => h.snoc) fun _ _ _ h => h.snoc

theorem planned_selectPage (g : Generation) (slave page : UInt8) :
    Planned link.controller anything true true (fun _ => Sparing tries hands)
      (selectPage link g slave page) (fun _ _ => Sparing tries (hands + 1))
      fun _ _ => Sparing tries (hands + 1) := by
  have hmore : ∀ {past}, Sparing tries hands past → Sparing tries (hands + 1) past :=
    fun h => h.mono (Nat.le_refl _) (Nat.le_succ _)
  unfold selectPage
  split
  · exact .pure fun _ _ => hmore
  · refine Planned.get.bind fun m => ?_
    split
    · exact .pure fun _ _ h => hmore h.2
    · refine ((planned_send _).mono (fun _ _ h => h.2) (fun _ _ _ h => h)
        fun _ _ _ h => h).outcome.bind fun r => ?_
      cases r with
      | ok _ => exact .step (.modify fun _ _ h => h)
      | error e =>
          have hdrop : Planned link.controller anything true true
              (fun _ => Sparing tries (hands + 1)) (step dropLatch)
              (fun _ _ => Sparing tries (hands + 1)) fun _ _ => Sparing tries (hands + 1) :=
            .step (.dropLatch fun _ _ h => h)
          exact hdrop.bind fun _ => .throw fun _ _ h => h

theorem planned_oneByte (slave command : UInt8) : Planned link.controller anything true true
    (fun _ => Sparing tries hands) (readByte link slave command)
    (fun _ _ => Sparing tries (hands + 1)) fun _ _ => Sparing tries (hands + 1) := by
  refine (planned_send _).bind fun payload => ?_
  split
  · exact .pure fun _ _ h => h
  · exact .throw fun _ _ h => h

/-- One attempt asks for the lock once and hands over two transactions at most. -/
theorem planned_readAttempt (g : Generation) (slave : UInt8) (location : SpdLocation) :
    Planned link.controller anything false false (fun _ => Sparing tries hands)
      (readAttempt link g slave location) (fun _ _ => Sparing (tries + 1) (hands + 2))
      fun _ _ => Sparing (tries + 1) (hands + 2) := by
  have hselect : Planned link.controller anything true true (fun _ => Sparing (tries + 1) hands)
      (selectPage link g slave location.page) (fun _ _ => Sparing (tries + 1) (hands + 1))
      fun _ _ past => Sparing (tries + 1) (hands + 2) (past ++ [.unlocked]) :=
    (planned_selectPage g slave location.page).mono (fun _ _ h => h) (fun _ _ _ h => h)
      fun _ _ _ h => h.snoc.mono (Nat.le_refl _) (Nat.le_succ _)
  refine Planned.locked
    (fun _ _ _ h => h.snoc.mono (Nat.le_refl _) (Nat.le_add_right _ 2)) (fun _ _ h => h.snoc)
    (hselect.bind fun _ => ?_)
  exact (planned_oneByte slave location.offset).mono (fun _ _ h => h) (fun _ _ _ h => h.snoc)
    fun _ _ _ h => h.snoc

/-- A read asks for the lock once in each attempt. -/
theorem planned_attempts (g : Generation) (slave : UInt8) (location : SpdLocation) :
    Planned link.controller anything false false (fun _ => Sparing 0 0)
      (retrying link (readAttempt link g slave location))
      (fun _ _ => Sparing (link.config.retries.toNat + 1) (2 * (link.config.retries.toNat + 1)))
      fun _ _ => Sparing (link.config.retries.toNat + 1) (2 * (link.config.retries.toNat + 1)) := by
  -- With so many attempts left, the earlier ones have taken their share.
  let share (left : Nat) : Stage := fun _ =>
    Sparing (link.config.retries.toNat - left) (2 * (link.config.retries.toNat - left))
  let whole : Stage := fun _ =>
    Sparing (link.config.retries.toNat + 1) (2 * (link.config.retries.toNat + 1))
  have hattempt : ∀ left ≤ link.config.retries.toNat,
      Planned link.controller anything false false (share left)
        (readAttempt link g slave location) (fun _ => whole) fun _ m past =>
          (∀ k, left = k + 1 → share k { m with latch := none } past) ∧
            whole { m with latch := none } past := by
    intro left hleft
    refine (planned_readAttempt g slave location).mono (fun _ _ h => h)
      (fun _ _ _ h => h.mono (by omega) (by omega)) fun _ _ _ h => ⟨?_, ?_⟩
    · rintro k rfl
      exact h.mono (by omega) (by omega)
    · exact h.mono (by omega) (by omega)
  exact (Planned.retryingWhile _ hattempt).mono
    (fun _ _ h => h.mono (Nat.zero_le _) (Nat.zero_le _)) (fun _ _ _ h => h) fun _ _ _ h => h

/-- A read of a known module as its controller sees it. -/
theorem scripted_readSpd {m : Memory} {slot : UInt8} {found : Module} (address : UInt16)
    (h : m.module? slot = some found) :
    ∃ script : Script (Except Error UInt8 × Memory) false false,
      script.perform link.controller = (readSpd link slot address).run.run m ∧
      script.Meets anything (fun _ => Sparing (link.config.retries.toNat + 1)
        (2 * (link.config.retries.toNat + 1))) [] := by
  have hrest : Planned link.controller anything false false (fun _ => Sparing 0 0)
      (do
        let location ← ofExcept (locate found.generation address)
        ExceptT.adapt (·.atSpd slot address .byteData)
          (retrying link (readAttempt link found.generation (Spd.eepromAddress slot) location)))
      (fun _ _ => Sparing (link.config.retries.toNat + 1) (2 * (link.config.retries.toNat + 1)))
      fun _ _ => Sparing (link.config.retries.toNat + 1) (2 * (link.config.retries.toNat + 1)) :=
    Planned.bind_ofExcept (fun location _ => Planned.adapt (planned_attempts _ _ location))
      fun _ _ _ h => h.mono (Nat.zero_le _) (Nat.zero_le _)
  obtain ⟨script, hperform, hmeets⟩ := hrest m
  refine ⟨script, ?_, (hmeets [] ⟨Nat.le_refl 0, Nat.le_refl 0⟩).mono fun r past hr => ?_⟩
  · rw [readSpd, ExceptT.run_bind, StateT.run_bind, confirmed_known h]
    exact hperform
  · obtain ⟨e | value, m'⟩ := r
    · exact hr
    · exact hr

end Session

open Session

/-- On any machine, the pauses of a transaction stay within the patience of the controller in use,
and the status is looked at no more often than the wait allows, but for a few looks around it; a
read of a known module takes the lock once an attempt, and for two transactions. -/
theorem waits_are_bounded {family : Family} {found : Detected} {config : Config} {c : Controller}
    {port₀ : Port}
    (hc : ((Controller.init family .direct found config).run.run port₀.answer []).1 = .ok c)
    (port : Port) :
    (∀ tx, spent Request.pause ((c.transfer tx).run.run port.answer []).2 ≤ c.info.patience config ∧
      spent (Request.look c.info.base) ((c.transfer tx).run.run port.answer []).2 ≤
        (config.poll c.family).retries.toNat + 3) ∧
    spent (Request.look c.info.base) (c.await.run.run port.answer []).2 ≤
      (config.poll c.family).retries.toNat ∧
    ∀ (m : Memory) (slot : UInt8) (known : Module) (address : UInt16),
      m.module? slot = some known →
      (∃ script : Script (Except Error UInt8 × Memory) false false,
        script.perform c = (readSpd ⟨c, config⟩ slot address).run.run m ∧
        script.Meets anything (fun _ => Sparing (config.retries.toNat + 1)
          (2 * (config.retries.toNat + 1))) []) ∧
      spent Request.pause (((readSpd ⟨c, config⟩ slot address).run.run m).run port.answer []).2 ≤
        2 * (config.retries.toNat + 1) * c.info.patience config := by
  have hpaced := (Controller.yields_paced family found config).run port₀.answer [] c hc
  have hseated := (Controller.yields_init family found config).run port₀.answer [] c hc
  refine ⟨fun tx => ⟨(Controller.spends_transfer hpaced tx).run port,
    (Controller.looks_transfer hpaced hseated tx).run port⟩,
    (Controller.looks_await hpaced).run port, fun m slot known address hm => ?_⟩
  obtain ⟨script, hperform, hmeets⟩ := @scripted_readSpd ⟨c, config⟩ m slot known address hm
  refine ⟨⟨script, hperform, hmeets⟩, ?_⟩
  rw [← hperform]
  refine (Script.perform_spends (fun _ => rfl) rfl (Controller.spends_transfer hpaced)
    (hmeets.mono fun _ past hp => ?_)).run port
  rw [List.countP_nil, Nat.zero_add]
  exact hp.2

theorem waits_are_bounded_prompt : ∃ c,
    ((Controller.init .ich .direct .sample { retries := 255 }).run.run Port.prompt.answer []).1 =
      .ok c ∧
    c.info.patience { retries := 255 } = 201000 ∧
    (Memory.empty.setModule 0 ⟨.ddr4, 0x0C, none⟩).module? 0 = some ⟨.ddr4, 0x0C, none⟩ ∧
    spent Request.pause (((readSpd ⟨c, { retries := 255 }⟩ 0 2).run.run
      (Memory.empty.setModule 0 ⟨.ddr4, 0x0C, none⟩)).run Port.prompt.answer []).2 ≤
        512 * 201000 := by
  obtain ⟨c, hc, hp⟩ : ∃ c,
      ((Controller.init .ich .direct .sample { retries := 255 }).run.run
        Port.prompt.answer []).1 = .ok c ∧
      c.info.patience { retries := 255 } = 201000 := ⟨_, rfl, rfl⟩
  have hall := ((waits_are_bounded hc Port.prompt).2.2
    (Memory.empty.setModule 0 ⟨.ddr4, 0x0C, none⟩) 0 ⟨.ddr4, 0x0C, none⟩ 2 rfl).2
  rw [hp] at hall
  exact ⟨c, hc, hp, rfl, hall⟩

end DimmBus
