import DimmBus.Controller
import DimmBus.Proofs.Parts
import DimmBus.Proofs.Ports

/-!
# What transactions touch

The registers that each part of a transaction reads and writes, whatever the answers.
-/

namespace DimmBus

open Access HostRegister

namespace Request

/-- An access to some registers of the host at a base address, or a pause if there may be any. -/
inductive Touches (base : UInt16) (reads writes : List UInt16) (pauses : Bool) : Request → Prop
  | read {offset : UInt16} (h : offset ∈ reads) :
      Touches base reads writes pauses (.readIo8 (base + offset))
  | write {offset : UInt16} (h : offset ∈ writes) (value : UInt8) :
      Touches base reads writes pauses (.writeIo8 (base + offset) value)
  | sleep (h : pauses = true) (us : UInt32) : Touches base reads writes pauses (.sleep us)

/-- An access to the board around the host of an SB800-class part, or a pause if there may be
any. -/
inductive Board (pauses : Bool) : Request → Prop
  | read {address : UInt16} (h : address ∈ [Piix4.Pm.data, Piix4.Imc.data]) :
      Board pauses (.readIo8 address)
  | write {address : UInt16}
      (h : address ∈ [Piix4.Pm.index, Piix4.Pm.data, Piix4.Imc.index, Piix4.Imc.data])
      (value : UInt8) : Board pauses (.writeIo8 address value)
  | readMmio (physical : UInt64) : Board pauses (.readMmio32 physical)
  | writeMmio (physical : UInt64) (value : UInt8) : Board pauses (.writeMmio8 physical value)
  | sleep (h : pauses = true) (us : UInt32) : Board pauses (.sleep us)

/-- An access to the mailbox on the board, or a pause if there may be any. -/
inductive Mail (pauses : Bool) : Request → Prop
  | read : Mail pauses (.readIo8 Piix4.Imc.data)
  | write {address : UInt16} (h : address ∈ [Piix4.Imc.index, Piix4.Imc.data]) (value : UInt8) :
      Mail pauses (.writeIo8 address value)
  | sleep (h : pauses = true) (us : UInt32) : Mail pauses (.sleep us)

/-- Neither the taking nor the giving back of the bus lock. -/
def Plain : Request → Prop
  | .lock _ | .unlock => False
  | _ => True

variable {base : UInt16} {reads writes : List UInt16} {pauses : Bool} {request : Request}

theorem Touches.mono {reads' writes' : List UInt16} {pauses' : Bool}
    (h : request.Touches base reads writes pauses) (hr : reads ⊆ reads') (hw : writes ⊆ writes')
    (hp : pauses = true → pauses' = true) : request.Touches base reads' writes' pauses' := by
  cases h with
  | read h => exact .read (hr h)
  | write h value => exact .write (hw h) value
  | sleep h us => exact .sleep (hp h) us

theorem Touches.plain (h : request.Touches base reads writes pauses) : request.Plain := by
  cases h <;> trivial

theorem Mail.board (h : request.Mail pauses) : request.Board pauses := by
  cases h with
  | read => exact .read (by decide)
  | write h value => exact .write (List.mem_cons_of_mem _ (List.mem_cons_of_mem _ h)) value
  | sleep h us => exact .sleep h us

theorem Board.plain (h : request.Board pauses) : request.Plain := by
  cases h <;> trivial

end Request

open Request

variable {α : Type} {base : UInt16} {reads writes : List UInt16} {pauses : Bool}

/-- Lists are compared by evaluation. -/
theorem subset_of_all {xs ys : List UInt16} (h : xs.all ys.contains = true) : xs ⊆ ys := fun x hx =>
  List.contains_iff_mem.mp (List.all_eq_true.mp h x hx)

theorem Attempt.Only.touches {x : Attempt α} (hx : x.Only (Touches base reads writes pauses))
    {reads' writes' : List UInt16} {pauses' : Bool} (hr : reads.all reads'.contains = true)
    (hw : writes.all writes'.contains = true) (hp : (!pauses || pauses') = true) :
    x.Only (Touches base reads' writes' pauses') :=
  hx.mono fun _ h => h.mono (subset_of_all hr) (subset_of_all hw) fun h => by rwa [h] at hp

theorem Access.touches_read {offset : UInt16} (h : reads.contains offset = true) :
    (readIo8 (base + offset)).Only (Touches base reads writes pauses) :=
  only_readIo8 (.read (List.contains_iff_mem.mp h))

theorem Access.touches_write {offset : UInt16} {value : UInt8} (h : writes.contains offset = true) :
    (writeIo8 (base + offset) value).Only (Touches base reads writes pauses) :=
  only_writeIo8 (.write (List.contains_iff_mem.mp h) value)

theorem Access.touches_sleep {us : UInt32} :
    (Access.sleep us).Only (Touches base reads writes true) :=
  only_sleep (.sleep rfl us)

/-! ## Data -/

namespace HostData

theorem only_writeBytes (bs : List UInt8) :
    (writeBytes (base + block) bs).Only (Touches base [] [block] false) := by
  induction bs with
  | nil => exact .pure _
  | cons b bs ih => exact .bind (touches_write rfl) fun _ => ih

theorem only_readBytes (n : Nat) :
    (readBytes (base + block) n).Only (Touches base [block] [] false) := by
  induction n with
  | zero => exact .pure _
  | succ n ih => exact .bind (touches_read rfl) fun _ => ih.bind fun _ => .pure _

theorem only_loadWord (value : UInt16) :
    (loadWord base value).Only (Touches base [] [data0, data1] false) :=
  .bind (touches_write rfl) fun _ => touches_write rfl

theorem only_loadBlock (data : List UInt8) :
    (loadBlock base data).Only (Touches base [control] [data0, block] false) :=
  .bind (touches_write rfl) fun _ => .bind (touches_read rfl) fun _ =>
    (only_writeBytes data).touches rfl rfl rfl

theorem only_collect (tx : Transaction) :
    (collect base tx).Only (Touches base [control, data0, data1, block] [] false) := by
  have hblock : (collectBlock base).Only (Touches base [control, data0, data1, block] [] false) :=
    .bind (touches_read rfl) fun _ => .bind (.ofExcept _) fun _ => .bind (touches_read rfl) fun _ =>
      .bind ((only_readBytes _).touches rfl rfl rfl) fun _ => .pure _
  unfold collect
  split
  · split
    · exact .pure _
    · exact .bind (touches_read rfl) fun _ => .pure _
    · exact .bind (touches_read rfl) fun _ => .pure _
    · exact .bind (touches_read rfl) fun _ => .bind (touches_read rfl) fun _ => .pure _
    · exact .bind (touches_read rfl) fun _ => .bind (touches_read rfl) fun _ => .pure _
    · exact hblock
    · exact hblock
  · exact .pure _

end HostData

/-! ## Intel hosts -/

namespace Ich

variable (c : Ich) (tx : Transaction)

theorem only_loadCommand :
    (c.loadCommand tx).Only (Touches c.info.base [] [command, data0, data1] false) := by
  unfold loadCommand
  split
  · exact .pure _
  · exact .ite (touches_write rfl) (.pure _)
  · refine .bind (touches_write rfl) fun _ => ?_
    split
    · exact touches_write rfl
    · exact .pure _
  · refine .bind (touches_write rfl) fun _ => ?_
    split
    · exact (HostData.only_loadWord _).touches rfl rfl rfl
    · exact .pure _
  · refine .bind (touches_write rfl) fun _ => ?_
    split
    · exact (HostData.only_loadWord _).touches rfl rfl rfl
    · exact .pure _
  · exact touches_write rfl
  · exact touches_write rfl

theorem only_enableAux (aux : UInt8) :
    (c.enableAux tx aux).Only (Touches c.info.base [auxControl] [auxControl] false) := by
  unfold enableAux
  refine .ite (.bind (touches_read rfl) fun _ => .bind (touches_write rfl) fun _ => ?_) (.pure _)
  refine .ite (.bind (touches_read rfl) fun _ => ?_) (.pure _)
  exact .ite (.pure _) (.throw _)

theorem only_program : (c.program tx).Only (Touches c.info.base [control, auxControl]
    [command, address, data0, data1, block, auxControl] false) := by
  unfold program
  refine .bind (touches_write rfl) fun _ =>
    .bind ((c.only_loadCommand tx).touches rfl rfl rfl) fun _ =>
    .bind ((c.only_enableAux tx _).touches rfl rfl rfl) fun _ => ?_
  split
  · exact (HostData.only_loadBlock _).touches rfl rfl rfl
  · exact .pure _

theorem only_awaitWithin (n : Nat) :
    (c.awaitWithin n).Only (Touches c.info.base [status] [] true) := by
  induction n with
  | zero => exact .throw _
  | succ n ih =>
      exact .bind touches_sleep fun _ => .bind (touches_read rfl) fun _ => .ite (.pure _) ih

theorem only_deviceFault :
    (c.deviceFault tx).Only (Touches c.info.base [auxStatus] [auxStatus] false) := by
  unfold deviceFault
  refine .ite (.bind (touches_read rfl) fun _ => ?_) (.pure _)
  exact .ite (.bind (touches_write rfl) fun _ => .pure _) (.pure _)

theorem only_checkStatus (final : UInt8) :
    (c.checkStatus tx final).Only (Touches c.info.base [auxStatus] [auxStatus] false) := by
  unfold checkStatus
  exact .ite (.throw _) (.ite (.bind (c.only_deviceFault tx) fun _ => .throw _)
    (.ite (.throw _) (.pure _)))

theorem only_disableAux (aux : UInt8) :
    (c.disableAux aux).Only (Touches c.info.base [auxControl] [auxControl] false) := by
  unfold disableAux
  exact .ite (.bind (touches_read rfl) fun _ => touches_write rfl) (.pure _)

theorem only_cleanUp : c.cleanUp.Only (Touches c.info.base [] [status] false) :=
  Attempt.Only.quietly (touches_write rfl)

theorem only_kill : c.kill.Only (Touches c.info.base [status] [control] true) :=
  Attempt.Only.quietly (.bind (touches_write rfl) fun _ => .bind touches_sleep fun _ =>
    .bind (touches_write rfl) fun _ => touches_read rfl)

/-- All registers that a transaction reads, and all that it writes. -/
def ownReads : List UInt16 := [status, control, data0, data1, block, auxStatus, auxControl]

@[inherit_doc ownReads]
def ownWrites : List UInt16 :=
  [status, control, command, address, data0, data1, block, auxStatus, auxControl]

theorem only_runIdle : (c.runIdle tx).Only (Touches c.info.base ownReads ownWrites true) := by
  unfold runIdle execute
  refine .bind ((c.only_program tx).touches rfl rfl rfl) fun _ => .bind (.outcome ?_) fun _ =>
    .bind ((c.only_disableAux _).touches rfl rfl rfl) fun _ => .ofExcept _
  exact .bind (touches_write rfl) fun _ =>
    .bind ((c.only_awaitWithin _).touches rfl rfl rfl) fun _ =>
    .bind ((c.only_checkStatus tx _).touches rfl rfl rfl) fun _ =>
      (HostData.only_collect tx).touches rfl rfl rfl

theorem only_windUp (r : Except Error Payload) :
    (c.windUp r).Only (Touches c.info.base ownReads ownWrites true) := by
  have hfree : (c.free r).Only (Touches c.info.base ownReads ownWrites true) :=
    .bind ((Attempt.Only.lift c.only_cleanUp).touches rfl rfl rfl) fun _ => .ofExcept _
  exact .ite (.bind ((Attempt.Only.lift c.only_kill).touches rfl rfl rfl) fun _ => hfree) hfree

theorem only_transferDirect :
    (c.transferDirect tx).Only (Touches c.info.base ownReads ownWrites true) := by
  rw [transferDirect_eq, transact]
  refine .bind (.outcome (.bind (touches_read rfl) fun _ => .ite ?_ (.ite ?_ (c.only_runIdle tx))))
    c.only_windUp
  · exact .bind (touches_write rfl) fun _ => .throw _
  · exact .bind (touches_write rfl) fun _ => c.only_runIdle tx

end Ich

/-! ## PIIX4-compatible hosts -/

namespace Piix4

variable (c : Piix4) (s : Sb800) (tx : Transaction)

theorem only_clearStatus : c.clearStatus.Only (Touches c.info.base [status] [status] false) := by
  unfold clearStatus
  refine .bind (touches_read rfl) fun _ => .ite (.pure _) ?_
  exact .bind (touches_write rfl) fun _ => .bind (touches_read rfl) fun _ =>
    .ite (.pure _) (.throw _)

theorem only_program : (c.program tx).Only (Touches c.info.base [control]
    [command, address, data0, data1, block] false) := by
  have hcommand : (c.loadCommand tx).Only (Touches c.info.base [] [command] false) := by
    unfold loadCommand
    split
    · exact .pure _
    · exact .ite (touches_write rfl) (.pure _)
    · exact touches_write rfl
  unfold program
  refine .bind (touches_write rfl) fun _ => .bind (hcommand.touches rfl rfl rfl) fun _ => ?_
  split
  · exact .pure _
  · exact touches_write rfl
  · exact (HostData.only_loadWord _).touches rfl rfl rfl
  · exact (HostData.only_loadBlock _).touches rfl rfl rfl

theorem only_start : (c.start tx).Only (Touches c.info.base [control] [control] true) :=
  .bind (touches_write rfl) fun _ => .bind (touches_read rfl) fun _ =>
    .bind (touches_write rfl) fun _ => touches_sleep

theorem only_awaitWithin (n : Nat) (last : UInt8) :
    (c.awaitWithin n last).Only (Touches c.info.base [status] [status] true) := by
  induction n generalizing last with
  | zero => exact .bind (touches_write rfl) fun _ => .throw _
  | succ n ih =>
      exact .bind touches_sleep fun _ => .bind (touches_read rfl) fun _ => .ite (.pure _) (ih _)

theorem only_acquire : c.acquire.Only (Touches c.info.base [slaveControl] [slaveControl] true) := by
  have hwithin : ∀ n last,
      (c.acquireWithin n last).Only (Touches c.info.base [slaveControl] [slaveControl] true) := by
    intro n
    induction n with
    | zero => exact fun _ => .throw _
    | succ n ih =>
        exact fun _ => .bind (touches_read rfl) fun _ => .bind (touches_write rfl) fun _ =>
          .bind (touches_read rfl) fun _ => .ite (.pure _) (.bind touches_sleep fun _ => ih _)
  exact hwithin _ _

theorem only_release : c.release.Only (Touches c.info.base [slaveControl] [slaveControl] false) :=
  Attempt.Only.quietly (.bind (touches_read rfl) fun _ => (touches_write rfl))

/-- All registers that a transaction reads, and all that it writes. -/
def ownReads : List UInt16 := [status, control, data0, data1, block, slaveControl]

@[inherit_doc ownReads]
def ownWrites : List UInt16 :=
  [status, control, command, address, data0, data1, block, slaveControl]

/-- The work itself leaves the register of the semaphore alone. -/
theorem only_work : (c.transact tx).Only (Touches c.info.base
    [status, control, data0, data1, block]
    [status, control, command, address, data0, data1, block] true) := by
  unfold transact
  refine .bind (c.only_clearStatus.touches rfl rfl rfl) fun _ =>
    .bind ((c.only_program tx).touches rfl rfl rfl) fun _ =>
    .bind ((c.only_start tx).touches rfl rfl rfl) fun _ =>
    .bind ((c.only_awaitWithin _ _).touches rfl rfl rfl) fun _ =>
    .bind (touches_write rfl) fun _ => .bind (touches_read rfl) fun _ => ?_
  split
  · exact .throw _
  · exact (HostData.only_collect tx).touches rfl rfl rfl

theorem only_transact : (c.transact tx).Only (Touches c.info.base ownReads ownWrites true) :=
  (c.only_work tx).touches rfl rfl rfl

/-! ### The board around them -/

theorem PmAccess.only_read (pm : PmAccess) (index : UInt8) :
    (pm.read index).Only (Board pauses) := by
  cases pm with
  | indexData =>
      exact .bind (only_writeIo8 (.write (by decide) _)) fun _ => only_readIo8 (.read (by decide))
  | window => exact .bind (only_readMmio32 (.readMmio _)) fun _ => .pure _

theorem PmAccess.only_write (pm : PmAccess) (index value : UInt8) :
    (pm.write index value).Only (Board pauses) := by
  cases pm with
  | indexData =>
      exact .bind (only_writeIo8 (.write (by decide) _)) fun _ =>
        only_writeIo8 (.write (by decide) _)
  | window => exact only_writeMmio8 (.writeMmio _ _)

theorem only_writeMailbox (index value : UInt8) : (writeMailbox index value).Only (Mail pauses) :=
  .bind (only_writeIo8 (.write (by decide) _)) fun _ => only_writeIo8 (.write (by decide) _)

theorem only_imcCommand (command : UInt8) : (imcCommand command).Only (Mail true) := by
  have hawait : ∀ n, (awaitImc n).Only (Mail true) := by
    intro n
    induction n with
    | zero => exact .pure _
    | succ n ih =>
        exact .bind (only_writeIo8 (.write (by decide) _)) fun _ =>
          .bind (only_readIo8 .read) fun _ =>
            .ite (.pure _) (.bind (only_sleep (.sleep rfl _)) fun _ => ih)
  have hshake : (imcHandshake command).Only (Mail true) :=
    .bind (only_writeMailbox _ _) fun _ => .bind (only_writeMailbox _ _) fun _ =>
      .bind (only_writeMailbox _ _) fun _ => hawait _
  refine Access.Only.bind hshake fun r => ?_
  cases r <;> trivial

variable {ok : Request → Prop}

theorem only_withPort {body : Attempt α} (hbody : body.Only ok)
    (hread : (s.pm.read s.selector.register).Only ok)
    (hwrite : ∀ value, (s.pm.write s.selector.register value).Only ok) :
    (c.withPort s body).Only ok :=
  .bind hread fun saved => .ite hbody <| .bind (hwrite _) fun _ =>
    .bind hbody.outcome fun _ => .bind (.lift (hwrite saved).quietly) fun _ => .ofExcept _

/-- A bracketed transaction touches the host, the register of the multiplexer, and the mailbox of a
micro-controller that shares the bus. -/
theorem only_bracketed
    (hhost : ∀ request, Touches c.info.base ownReads ownWrites true request → ok request)
    (hread : (s.pm.read s.selector.register).Only ok)
    (hwrite : ∀ value, (s.pm.write s.selector.register value).Only ok)
    (hmail : s.notifyImc = true → ∀ request, Mail true request → ok request) :
    (c.transferSb800 s tx).Only ok := by
  have himc : s.notifyImc = true → ∀ command, Attempt.Only ok (ExceptT.lift (imcCommand command)) :=
    fun h _ => .lift ((only_imcCommand _).mono (hmail h))
  have hback : ∀ r, (c.giveBack r).Only ok := fun _ =>
    .bind (.lift (c.only_release.mono fun _ h => hhost _ (h.mono (by decide) (by decide) nofun)))
      fun _ => .ofExcept _
  have hrest : ∀ asleep : Bool, (asleep = true → s.notifyImc = true) →
      (c.underSemaphore s tx asleep).Only ok := by
    intro asleep hasleep
    refine .bind (.outcome (c.only_withPort s ((c.only_transact tx).mono hhost) hread hwrite))
      fun result => ?_
    cases asleep with
    | true => exact .bind (himc (hasleep rfl) _) fun _ => hback result
    | false => exact hback result
  rw [transferSb800_eq]
  refine .bind ((c.only_acquire).touches rfl rfl rfl |>.mono hhost) fun _ => ?_
  cases h : s.notifyImc with
  | true => exact .bind (himc h _) fun asleep => hrest asleep fun _ => h
  | false => exact hrest false nofun

theorem only_transferSb800
    (hhost : ∀ request, Touches c.info.base ownReads ownWrites true request → ok request)
    (hboard : ∀ request, Board true request → ok request) : (c.transferSb800 s tx).Only ok :=
  c.only_bracketed s tx hhost ((s.pm.only_read _).mono hboard)
    (fun _ => (s.pm.only_write _ _).mono hboard) fun _ _ h => hboard _ h.board

end Piix4

/-! ## Every controller -/

theorem Delegated.only_transfer (routine : String) (tx : Transaction) :
    (Delegated.transfer routine tx).Only Plain := by
  unfold Delegated.transfer
  exact .bind (only_delegate trivial) fun _ => .ite (.throw _) (.ofExcept _)

/-- A transaction leaves the bus lock alone. -/
theorem Controller.only_transfer (c : Controller) (tx : Transaction) :
    (c.transfer tx).Only Plain := by
  cases c with
  | ich c =>
      change (c.transfer tx).Only Plain
      unfold Ich.transfer
      split
      · exact Delegated.only_transfer _ _
      · exact (c.only_transferDirect tx).mono fun _ h => h.plain
  | piix4 c =>
      change (c.transfer tx).Only Plain
      unfold Piix4.transfer
      split
      · unfold Piix4.transferDelegated
        refine .ite (Delegated.only_transfer _ _) ?_
        exact .bind (only_delegate trivial) fun _ =>
          .bind (.outcome (Delegated.only_transfer _ _)) fun _ =>
            .bind (.lift (only_delegate trivial).quietly) fun _ => .ofExcept _
      · exact c.only_transferSb800 _ tx (fun _ h => h.plain) fun _ h => h.plain
      · exact (c.only_transact tx).mono fun _ h => h.plain

/-! ## Where hosts answer -/

/-- The host is driven through registers that start at a multiple of 32, or of 16 where nothing else
is accessed besides them. -/
def Controller.Seated : Controller → Prop
  | .ich c => c.info.transport = .direct ∧ c.info.base.toNat % 32 = 0
  | .piix4 c => c.info.transport = .direct ∧ c.info.base.toNat % 16 = 0 ∧
      (c.sb800.isSome = true → c.info.base.toNat % 32 = 0)

namespace Ich

theorem yields_resolve (part : Part) (location : Pci.Address) :
    (resolve part location).Yields fun r => r.1.toNat % 32 = 0 := by
  have hbase : ∀ bar : UInt32,
      (UInt16.ofNat (bar &&& ConfigSpace.baseMask).toNat).toNat % 32 = 0 := fun bar => by
    have hmask : (bar &&& ConfigSpace.baseMask).toNat % 2 ^ 5 = 0 := by
      rw [UInt32.toNat_and, Nat.and_mod_two_pow]
      exact Nat.and_zero _
    rw [UInt16.toNat_ofNat']
    omega
  unfold resolve
  refine .after fun bar => ?_
  dsimp only
  split
  · exact .throw _
  · refine .after fun _ => .after fun before => ?_
    split
    · exact .after fun _ => .pure (hbase bar)
    · exact .pure (hbase bar)

theorem yields_init (found : Detected) (config : Config) :
    (init .direct found config).Yields fun c => (Controller.ich c).Seated := by
  unfold init
  split
  · exact .throw _
  · exact (yields_resolve _ _).bind fun r hr => .pure ⟨rfl, hr⟩

end Ich

namespace Piix4

theorem yields_resolveLegacy (identity : Pci.Identity) :
    (resolveLegacy identity).Yields fun base => base.toNat % 16 = 0 := by
  have hbase : ∀ register : UInt16, (register &&& ConfigSpace.baseMask).toNat % 2 ^ 4 = 0 :=
    fun register => by
      rw [UInt16.toNat_and, Nat.and_mod_two_pow]
      exact Nat.and_zero _
  unfold resolveLegacy
  refine .after fun register => ?_
  dsimp only
  split
  · exact .pure rfl
  · refine .after fun _ => ?_
    split
    · exact .after fun _ => .pure (hbase register)
    · exact .throw _

theorem yields_pmBase (identity : Pci.Identity) (pm : PmAccess) :
    (pmBase identity pm).Yields fun r => r.2.toNat % 32 = 0 := by
  have hmask : ∀ word : UInt16, (word &&& Pm.sb800BaseMask).toNat % 2 ^ 5 = 0 := fun word => by
    rw [UInt16.toNat_and, Nat.and_mod_two_pow]
    exact Nat.and_zero _
  have hword : ∀ hi : UInt8, (LittleEndian.word 0 hi).toNat % 32 = 0 := fun hi => by
    rw [LittleEndian.word, UInt16.toNat_ofNat']
    simp only [UInt8.toNat_zero]
    omega
  unfold pmBase
  split
  · exact .after fun lo => .after fun hi => .pure (hword hi)
  · exact .after fun lo => .after fun hi => .pure (hmask _)

theorem yields_resolveSb800 (identity : Pci.Identity) :
    (resolveSb800 identity).Yields fun r => r.1.toNat % 32 = 0 := by
  unfold resolveSb800
  refine (yields_pmBase identity _).bind fun ⟨enabled, base⟩ hr => ?_
  cases enabled with
  | true => exact .after fun _ => .after fun _ => .pure hr
  | false => exact .throw _

theorem yields_settle (found : Detected) :
    (settle found .direct).Yields fun r =>
      r.1.toNat % 16 = 0 ∧ (r.2.isSome = true → r.1.toNat % 32 = 0) := by
  unfold settle
  dsimp only
  split
  · have hhalf : ∀ n, n % 32 = 0 → n % 16 = 0 := fun n => by omega
    exact (yields_resolveSb800 _).bind fun r hr => .pure ⟨hhalf _ hr, fun _ => hr⟩
  · exact (yields_resolveLegacy _).bind fun base hb => .pure ⟨hb, nofun⟩

theorem yields_init (found : Detected) (config : Config) :
    (init .direct found config).Yields fun c => (Controller.piix4 c).Seated := by
  unfold init
  dsimp only
  split
  · exact .throw _
  · split
    · exact .throw _
    · refine (yields_settle found).bind fun r hr => ?_
      split
      · exact .throw _
      · exact .pure ⟨rfl, hr⟩

end Piix4

theorem Controller.yields_init (family : Family) (found : Detected) (config : Config) :
    (Controller.init family .direct found config).Yields Controller.Seated := by
  cases family with
  | ich =>
      change (Controller.ich <$> Ich.init .direct found config).Yields _
      rw [map_eq_pure_bind]
      exact (Ich.yields_init found config).bind fun c hc => .pure hc
  | piix4 =>
      change (Controller.piix4 <$> Piix4.init .direct found config).Yields _
      rw [map_eq_pure_bind]
      exact (Piix4.yields_init found config).bind fun c hc => .pure hc

end DimmBus
