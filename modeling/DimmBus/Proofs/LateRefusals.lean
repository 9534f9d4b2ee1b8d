import DimmBus.Proofs.Refusals

/-!
# Refusals that come late

On a machine whose primitives never refuse, a refusal that comes after the bus was touched is one of
two, and both belong to blocks: the device announced a length that is none, or the block buffer of
an Intel host did not switch on.
-/

namespace DimmBus

open Access Attempt HostRegister

/-! ## Machines that do not refuse -/

/-- The error in an answer. -/
def Request.failure? : (request : Request) → request.Answer → Option Error
  | .sleep _, _ => none
  | .readIo8 _, Except.error e | .writeIo8 .., Except.error e | .readPci8 .., Except.error e
  | .readPci16 .., Except.error e | .readPci32 .., Except.error e | .writePci8 .., Except.error e
  | .writePci16 .., Except.error e | .writePci32 .., Except.error e | .readMmio32 _, Except.error e
  | .writeMmio8 .., Except.error e | .lock _, Except.error e | .unlock, Except.error e
  | .delegate .., Except.error e => some e
  | _, _ => none

/-- However a primitive access fails, it is not with a refusal. -/
def Port.Candid (port : Port) : Prop :=
  ∀ past (request : Request) (e : Error), request.failure? (port past request) = some e →
    e.isRefusal = false

/-- No failure of the program is a refusal. -/
def Attempt.Frank {α : Type} (port : Port) (x : Attempt α) : Prop :=
  ∀ past, Ends port.answer x past (fun _ _ => True) fun e _ => e.isRefusal = false

variable {α β γ : Type} {port : Port} {past calls : List Call} {e : Error}

namespace Attempt.Frank

theorem pure (a : α) : Frank port (pure a) := fun _ => trivial

theorem throw (he : e.isRefusal = false) : Frank port (throw e : Attempt α) := fun _ => he

theorem bind {x : Attempt β} {f : β → Attempt α} (hx : x.Frank port) (hf : ∀ b, (f b).Frank port) :
    (x >>= f).Frank port := fun past =>
  (hx past).bind fun b past _ => hf b past

theorem ite {p : Prop} [Decidable p] {x y : Attempt α} (hx : x.Frank port) (hy : y.Frank port) :
    (if p then x else y).Frank port := by
  split
  · exact hx
  · exact hy

theorem lift (x : Access α) : Frank port (ExceptT.lift x) := fun _ => ends_lift.mpr trivial

variable (hp : port.Candid)

include hp

/-- A single access. -/
theorem of_call {x : Attempt α} (request : Request)
    (h : ∀ past e, (x.run.run port.answer past).1 = .error e →
      request.failure? (port past request) = some e) : x.Frank port := by
  intro past
  rw [ends_iff_run]
  refine ⟨fun _ _ _ => trivial, fun e past' hrun => hp past request e (h past e ?_)⟩
  rw [hrun]

theorem readIo8 (address : UInt16) : (readIo8 address).Frank port :=
  of_call hp (.readIo8 address) fun _ _ he => congrArg (Request.failure? (.readIo8 address)) he

theorem writeIo8 (address : UInt16) (value : UInt8) : (writeIo8 address value).Frank port :=
  of_call hp (.writeIo8 address value) fun _ _ he =>
    congrArg (Request.failure? (.writeIo8 address value)) he

theorem readMmio32 (physical : UInt64) : (readMmio32 physical).Frank port :=
  of_call hp (.readMmio32 physical) fun _ _ he =>
    congrArg (Request.failure? (.readMmio32 physical)) he

theorem writeMmio8 (physical : UInt64) (value : UInt8) : (writeMmio8 physical value).Frank port :=
  of_call hp (.writeMmio8 physical value) fun _ _ he =>
    congrArg (Request.failure? (.writeMmio8 physical value)) he

theorem lock (timeoutUs : Nat) : (lock timeoutUs).Frank port :=
  of_call hp (.lock timeoutUs) fun _ _ he => congrArg (Request.failure? (.lock timeoutUs)) he

end Attempt.Frank

/-! ## What a late refusal shows -/

/-- The device announced a length that is not one of a block, after the transaction was started. -/
structure LengthOff (base : UInt16) (tx : Transaction) (calls : List Call) (n : UInt8) : Prop where
  isBlock : tx.protocol.isBlock = true
  readsBack : tx.readsBack = true
  started : ∃ call ∈ calls, Call.starts base call = true
  announced : ⟨.readIo8 (base + data0), .ok n⟩ ∈ calls
  outside : ¬(1 ≤ n.toNat ∧ n.toNat ≤ maxBlock)

/-- The block buffer was found switched off when it was to be used, and nothing was started. -/
structure BufferOff (base : UInt16) (tx : Transaction) (calls : List Call) : Prop where
  isBlock : tx.protocol.isBlock = true
  quiet : Quiet base calls
  found : ∃ now, hasAny now Ich.AuxControl.blockBuffer = false ∧
    ⟨.readIo8 (base + auxControl), .ok now⟩ ∈ calls

/-- The refusals that come after the bus was touched. -/
inductive Late (c : Controller) (tx : Transaction) (calls : List Call) : Error → Prop
  | length {n : UInt8} (h : LengthOff c.info.base tx calls n) :
      Late c tx calls (.param (.returnedLength n))
  | buffer {host : Ich} (hc : c = .ich host) (h : BufferOff c.info.base tx calls) :
      Late c tx calls (.unsupported (.bufferEnable c.info.name))

/-- A failure is late if it is a refusal. -/
def Excused (c : Controller) (tx : Transaction) (e : Error) (calls : List Call) : Prop :=
  e.isRefusal = true → Late c tx calls e

variable {base : UInt16} {c : Controller} {tx : Transaction} {n : UInt8}

theorem LengthOff.append (h : LengthOff base tx calls n) (more : List Call) :
    LengthOff base tx (calls ++ more) n where
  isBlock := h.isBlock
  readsBack := h.readsBack
  started := by
    rcases h.started with ⟨call, hc, hs⟩
    exact ⟨call, List.mem_append_left more hc, hs⟩
  announced := List.mem_append_left more h.announced
  outside := h.outside

theorem late_unmoved :
    Unmoved (fun r => Call.asksStart c.info.base r = false) (Excused c tx e) := by
  intro calls call h hcall he
  have hlate := h he
  cases hlate with
  | length hl => exact .length (hl.append _)
  | buffer hc hb =>
      rcases hb.found with ⟨now, hnow, hfound⟩
      exact .buffer hc ⟨hb.isBlock, hb.quiet.snoc hcall, now, hnow, List.mem_append_left _ hfound⟩

theorem excused_of_frank (he : e.isRefusal = false) : Excused c tx e calls := by
  intro h
  rw [he] at h
  cases h

/-- However a program that does not refuse fails, nothing is to be excused. -/
theorem Attempt.Frank.excused {x : Attempt α} (hx : x.Frank port) {ok : α → List Call → Prop}
    (h : Ends port.answer x past ok fun _ _ => True) :
    Ends port.answer x past ok (Excused c tx) := by
  have hfrank := hx past
  rw [ends_iff_run] at h hfrank ⊢
  exact ⟨h.1, fun e s hr => excused_of_frank (hfrank.2 e s hr)⟩

theorem Attempt.Frank.over {x : Attempt α} (hx : x.Frank port) :
    Ends port.answer x past (fun _ _ => True) (Excused c tx) :=
  hx.excused ((hx past).mono (fun _ _ h => h) fun _ _ _ => trivial)

/-- The same where it leaves the stage as it is. -/
theorem Attempt.Frank.stage {x : Attempt α} (hx : x.Frank port) {ok : Request → Prop}
    (hok : x.Only ok) {P : List Call → Prop} (hP : Unmoved ok P) (h : P past) :
    Ends port.answer x past (fun _ => P) (Excused c tx) :=
  hx.excused ((hok.ends (P := P) fun _ hc => hP.chunk h hc).mono (fun _ _ h => h)
    fun _ _ _ => trivial)

/-! ## What a result is excused by while something else is done -/

/-- The result is not a refusal, or it is a late one. -/
def Held (c : Controller) (tx : Transaction) (r : Except Error α) (calls : List Call) : Prop :=
  ∀ e, r = .error e → Excused c tx e calls

theorem held_outcome {x : Attempt β} {rest : Except Error β → Attempt α}
    (hx : Ends port.answer x past (fun _ _ => True) (Excused c tx))
    (hrest : ∀ r calls, Held c tx r calls →
      Ends port.answer (rest r) calls (fun _ _ => True) (Excused c tx)) :
    Ends port.answer (x.outcome >>= rest) past (fun _ _ => True) (Excused c tx) := by
  rw [ends_bind, ends_outcome]
  exact hx.mono (fun b calls _ => hrest (.ok b) calls nofun) fun e calls h =>
    hrest (.error e) calls fun e' he => Except.error.inj he ▸ h

theorem held_ofExcept {r : Except Error α} (h : Held c tx r past) :
    Ends port.answer (Attempt.ofExcept r) past (fun _ _ => True) (Excused c tx) := by
  cases r with
  | ok a => trivial
  | error e => exact h e rfl

theorem held_after {x : Access β} {rest : Attempt α} {r : Except Error γ} {ok : Request → Prop}
    (hx : x.Only ok) (hok : ∀ e, Unmoved ok (Excused c tx e)) (h : Held c tx r past)
    (hrest : ∀ calls, Held c tx r calls →
      Ends port.answer rest calls (fun _ _ => True) (Excused c tx)) :
    Ends port.answer (do
      let _ ← ExceptT.lift x
      rest) past (fun _ _ => True) (Excused c tx) := by
  rw [ends_bind, ends_lift]
  rcases hx.calls port past with ⟨calls, hrun, hcalls⟩
  rw [hrun]
  exact hrest _ fun e he => (hok e).chunk (h e he) hcalls

/-! ## The data registers -/

/-- A transaction was started. -/
def Started (base : UInt16) (calls : List Call) : Prop :=
  ∃ call ∈ calls, Call.starts base call = true

theorem started_unmoved : Unmoved (fun _ => True) (Started base) := by
  rintro calls call ⟨start, hmem, hstarts⟩ -
  exact ⟨start, List.mem_append_left _ hmem, hstarts⟩

theorem Attempt.Frank.started {x : Attempt α} (hx : x.Frank port) (h : Started base past) :
    Ends port.answer x past (fun _ => Started base) (Excused c tx) :=
  hx.stage (Access.only_true _) started_unmoved h

theorem started_write {value : UInt8} (hv : hasAny value Control.start = true) :
    Started base (past ++ [⟨.writeIo8 (base + control) value, .ok ()⟩]) := by
  refine ⟨_, List.mem_append_right _ List.mem_cons_self, ?_⟩
  rw [Call.starts, asksStart_control hv]
  rfl

variable (hp : port.Candid)

include hp

namespace HostData

theorem frank_writeBytes (address : UInt16) (bs : List UInt8) :
    (writeBytes address bs).Frank port := by
  induction bs with
  | nil => exact .pure _
  | cons b bs ih => exact (Frank.writeIo8 hp _ _).bind fun _ => ih

theorem frank_readBytes (address : UInt16) (n : Nat) : (readBytes address n).Frank port := by
  induction n with
  | zero => exact .pure _
  | succ n ih => exact (Frank.readIo8 hp _).bind fun _ => ih.bind fun _ => .pure _

theorem frank_loadWord (base value : UInt16) : (loadWord base value).Frank port :=
  (Frank.writeIo8 hp _ _).bind fun _ => Frank.writeIo8 hp _ _

theorem frank_loadBlock (base : UInt16) (data : List UInt8) : (loadBlock base data).Frank port :=
  (Frank.writeIo8 hp _ _).bind fun _ => (Frank.readIo8 hp _).bind fun _ =>
    frank_writeBytes hp _ data

/-- A length that is announced by a device is the only thing that is refused. -/
theorem ends_collect (h : Started c.info.base past) :
    Ends port.answer (collect c.info.base tx) past (fun _ _ => True) (Excused c tx) := by
  have hblock : tx.protocol.isBlock = true → tx.readsBack = true →
      Ends port.answer (collectBlock c.info.base) past (fun _ _ => True) (Excused c tx) := by
    intro hblock hback
    rw [collectBlock, ends_bind]
    refine (Frank.readIo8 hp _).excused (ends_readIo8 (fun n => ?_) fun _ => trivial)
    rw [ends_bind]
    unfold checkReturnedLength
    split
    · rw [ends_ofExcept_ok]
      exact ((Frank.readIo8 hp _).bind fun _ =>
        (frank_readBytes hp _ _).bind fun _ => .pure _).over
    · rename_i hout
      intro _
      refine .length ⟨hblock, hback, ?_, List.mem_append_right _ List.mem_cons_self, hout⟩
      exact started_unmoved _ _ h trivial
  unfold collect
  split
  · rename_i hback
    split
    · exact (Frank.pure _).over
    · exact ((Frank.readIo8 hp _).bind fun _ => .pure _).over
    · exact ((Frank.readIo8 hp _).bind fun _ => .pure _).over
    · exact ((Frank.readIo8 hp _).bind fun _ => (Frank.readIo8 hp _).bind fun _ => .pure _).over
    · exact ((Frank.readIo8 hp _).bind fun _ => (Frank.readIo8 hp _).bind fun _ => .pure _).over
    · rename_i hprotocol
      exact hblock (by rw [hprotocol]; rfl) hback
    · rename_i hprotocol
      exact hblock (by rw [hprotocol]; rfl) hback
  · exact (Frank.pure _).over

end HostData

/-! ## Intel hosts -/

namespace Ich

variable (c : Ich) (tx : Transaction)

theorem frank_loadCommand : (c.loadCommand tx).Frank port := by
  unfold loadCommand
  split
  · exact .pure _
  · exact .ite (Frank.writeIo8 hp _ _) (.pure _)
  · apply (Frank.writeIo8 hp _ _).bind
    intro _
    split
    · exact Frank.writeIo8 hp _ _
    · exact .pure _
  · apply (Frank.writeIo8 hp _ _).bind
    intro _
    split
    · exact HostData.frank_loadWord hp _ _
    · exact .pure _
  · apply (Frank.writeIo8 hp _ _).bind
    intro _
    split
    · exact HostData.frank_loadWord hp _ _
    · exact .pure _
  · exact Frank.writeIo8 hp _ _
  · exact Frank.writeIo8 hp _ _

theorem frank_awaitWithin (n : Nat) : (c.awaitWithin n).Frank port := by
  induction n with
  | zero => exact .throw rfl
  | succ n ih =>
      exact (Frank.lift _).bind fun _ => (Frank.readIo8 hp _).bind fun _ => .ite (.pure _) ih

theorem frank_checkStatus (final : UInt8) : (c.checkStatus tx final).Frank port := by
  have hfault : (c.deviceFault tx).Frank port :=
    .ite ((Frank.readIo8 hp _).bind fun _ =>
      .ite ((Frank.writeIo8 hp _ _).bind fun _ => .pure _) (.pure _)) (.pure _)
  exact .ite (.throw rfl) (.ite (hfault.bind fun _ => .throw rfl) (.ite (.throw rfl) (.pure _)))

theorem frank_disableAux (aux : UInt8) : (c.disableAux aux).Frank port :=
  .ite ((Frank.readIo8 hp _).bind fun _ => Frank.writeIo8 hp _ _) (.pure _)

/-- A block buffer that stays off is refused before anything is started. -/
theorem excused_enableAux (aux : UInt8) (h : Quiet c.info.base past) :
    Ends port.answer (c.enableAux tx aux) past (fun _ => Quiet c.info.base)
      (Excused (.ich c) tx) := by
  unfold enableAux
  split
  · rw [ends_bind]
    refine (Frank.readIo8 hp _).excused (ends_readIo8 (fun current => ?_) fun _ => trivial)
    rw [ends_bind]
    refine (Frank.writeIo8 hp _ _).excused (ends_writeIo8 ?_ fun _ => trivial)
    have hauxControl : ∀ value,
        Call.asksStart c.info.base (.writeIo8 (c.register auxControl) value) = false := by
      intro value
      apply asksStart_ne
      intro heq
      exact absurd ((UInt16.add_right_inj _).mp heq) (by decide)
    have hquiet : Quiet c.info.base (past ++ [⟨.readIo8 (c.register auxControl), .ok current⟩] ++
        [⟨.writeIo8 (c.register auxControl) (current ||| aux), .ok ()⟩]) :=
      Quiet.snoc (h.snoc rfl) (hauxControl _)
    split
    · rename_i hblock
      rw [ends_bind]
      refine (Frank.readIo8 hp _).excused (ends_readIo8 (fun now => ?_) fun _ => trivial)
      have hlast : Quiet c.info.base (_ ++ [⟨.readIo8 (c.register auxControl), .ok now⟩]) :=
        hquiet.snoc rfl
      split
      · exact hlast
      · rename_i hoff
        intro _
        exact .buffer rfl ⟨hblock, hlast, now, eq_false_of_ne_true hoff,
          List.mem_append_right _ List.mem_cons_self⟩
    · exact hquiet
  · exact h

theorem excused_program (h : Quiet c.info.base past) :
    Ends port.answer (c.program tx) past (fun _ => Quiet c.info.base) (Excused (.ich c) tx) := by
  have haddress : (writeIo8 (c.register address) tx.addressByte).Only (Aside c.info.base) := by
    have h : Attempt.Only (Request.Touches c.info.base [] [address] false)
        (writeIo8 (c.register address) tx.addressByte) := touches_write rfl
    exact h.aside rfl rfl
  rw [program]
  refine ((Frank.writeIo8 hp _ _).stage haddress quiet_unmoved h).bind fun _ _ h => ?_
  refine ((c.frank_loadCommand hp tx).stage ((c.only_loadCommand tx).aside rfl rfl)
    quiet_unmoved h).bind fun _ _ h => ?_
  refine (c.excused_enableAux hp tx _ h).bind fun _ _ h => ?_
  split
  · exact (HostData.frank_loadBlock hp _ _).stage ((HostData.only_loadBlock _).aside rfl rfl)
      quiet_unmoved h
  · exact h

theorem excused_execute :
    Ends port.answer (c.execute tx) past (fun _ _ => True) (Excused (.ich c) tx) := by
  rw [execute, ends_bind]
  refine (Frank.writeIo8 hp _ _).excused (ends_writeIo8 ?_ fun _ => trivial)
  rw [ends_bind]
  refine ((c.frank_awaitWithin hp _).started (started_write (startValue_control tx).2)).mono
    (fun final _ h => ?_) fun _ _ h => h
  refine ((c.frank_checkStatus hp tx final).started h).bind fun _ _ h => ?_
  exact HostData.ends_collect (c := .ich c) hp h

theorem excused_runIdle (h : Quiet c.info.base past) :
    Ends port.answer (c.runIdle tx) past (fun _ _ => True) (Excused (.ich c) tx) := by
  rw [runIdle]
  refine (c.excused_program hp tx h).bind fun _ _ h => ?_
  refine held_outcome (c.excused_execute hp tx) fun r calls hr => ?_
  refine ((c.frank_disableAux hp _).stage (P := Held (.ich c) tx r)
    ((c.only_disableAux _).aside rfl rfl) (fun calls call h hc e he => ?_) hr).bind fun _ _ h =>
      held_ofExcept h
  exact late_unmoved calls call (h e he) hc.1

theorem excused_transact (h : Quiet c.info.base past) :
    Ends port.answer (c.transact tx) past (fun _ _ => True) (Excused (.ich c) tx) := by
  have hclear : ∀ value, (writeIo8 (c.register status) value).Only (Aside c.info.base) := fun _ =>
    aside_writeStatus
  rw [transact, ends_bind]
  refine (Frank.readIo8 hp _).excused (ends_readIo8 (fun seen => ?_) fun _ => trivial)
  have hquiet : Quiet c.info.base (past ++ [⟨.readIo8 (c.register status), .ok seen⟩]) :=
    h.snoc rfl
  split
  · exact ((Frank.writeIo8 hp _ _).bind fun _ => .throw rfl).over
  · split
    · exact ((Frank.writeIo8 hp _ _).stage (hclear _) quiet_unmoved hquiet).bind fun _ _ h =>
        c.excused_runIdle hp tx h
    · exact c.excused_runIdle hp tx hquiet

omit hp in
theorem excused_windUp {r : Except Error Payload} (h : Held (.ich c) tx r past) :
    Ends port.answer (c.windUp r) past (fun _ _ => True) (Excused (.ich c) tx) := by
  have hfree : ∀ calls, Held (.ich c) tx r calls →
      Ends port.answer (c.free r) calls (fun _ _ => True) (Excused (.ich c) tx) := fun _ h =>
    held_after (c.only_cleanUp.mono fun _ h => (h.aside rfl rfl).1) (fun _ => late_unmoved) h
      fun _ => held_ofExcept
  unfold windUp
  split
  -- What is killed did not end in a refusal, so that there is nothing to be carried over.
  · rename_i hrunning
    rw [ends_bind, ends_lift]
    refine hfree _ fun e he => excused_of_frank ?_
    subst he
    cases e <;> first | rfl | cases hrunning
  · exact hfree _ h

theorem excused_transferDirect (h : Quiet c.info.base past) :
    Ends port.answer (c.transferDirect tx) past (fun _ _ => True) (Excused (.ich c) tx) := by
  rw [transferDirect_eq]
  exact held_outcome (c.excused_transact hp tx h) fun _ _ => c.excused_windUp tx

end Ich

/-! ## PIIX4-compatible hosts -/

namespace Piix4

variable (c : Piix4) (tx : Transaction)

theorem frank_clearStatus : c.clearStatus.Frank port :=
  (Frank.readIo8 hp _).bind fun _ => .ite (.pure _) <| (Frank.writeIo8 hp _ _).bind fun _ =>
    (Frank.readIo8 hp _).bind fun _ => .ite (.pure _) (.throw rfl)

theorem frank_program : (c.program tx).Frank port := by
  have hcommand : (c.loadCommand tx).Frank port := by
    unfold loadCommand
    split
    · exact .pure _
    · exact .ite (Frank.writeIo8 hp _ _) (.pure _)
    · exact Frank.writeIo8 hp _ _
  unfold program
  refine (Frank.writeIo8 hp _ _).bind fun _ => hcommand.bind fun _ => ?_
  split
  · exact .pure _
  · exact Frank.writeIo8 hp _ _
  · exact HostData.frank_loadWord hp _ _
  · exact HostData.frank_loadBlock hp _ _

theorem excused_start :
    Ends port.answer (c.start tx) past (fun _ => Started c.info.base) (Excused (.piix4 c) tx) := by
  rw [start]
  refine (Frank.writeIo8 hp _ _).over.bind fun _ _ _ => ?_
  refine (Frank.readIo8 hp _).over.bind fun control _ _ => ?_
  rw [ends_bind]
  refine (Frank.writeIo8 hp _ _).excused (ends_writeIo8 ?_ fun _ => trivial)
  exact (Frank.lift _).started (started_write (Control.hasAny_or_start control))

theorem frank_awaitWithin (n : Nat) (last : UInt8) : (c.awaitWithin n last).Frank port := by
  induction n generalizing last with
  | zero => exact (Frank.writeIo8 hp _ _).bind fun _ => .throw rfl
  | succ n ih =>
      exact (Frank.lift _).bind fun _ => (Frank.readIo8 hp _).bind fun _ => .ite (.pure _) (ih _)

theorem frank_acquire : c.acquire.Frank port := by
  have hwithin : ∀ n last, (c.acquireWithin n last).Frank port := by
    intro n
    induction n with
    | zero => exact fun _ => .throw rfl
    | succ n ih =>
        exact fun _ => (Frank.readIo8 hp _).bind fun _ => (Frank.writeIo8 hp _ _).bind fun _ =>
          (Frank.readIo8 hp _).bind fun _ => .ite (.pure _) ((Frank.lift _).bind fun _ => ih _)
  exact hwithin _ _

theorem PmAccess.frank_read (pm : PmAccess) (index : UInt8) : (pm.read index).Frank port := by
  cases pm with
  | indexData => exact (Frank.writeIo8 hp _ _).bind fun _ => Frank.readIo8 hp _
  | window => exact (Frank.readMmio32 hp _).bind fun _ => .pure _

theorem PmAccess.frank_write (pm : PmAccess) (index value : UInt8) :
    (pm.write index value).Frank port := by
  cases pm with
  | indexData => exact (Frank.writeIo8 hp _ _).bind fun _ => Frank.writeIo8 hp _ _
  | window => exact Frank.writeMmio8 hp _ _

theorem excused_transact :
    Ends port.answer (c.transact tx) past (fun _ _ => True) (Excused (.piix4 c) tx) := by
  rw [transact]
  refine (c.frank_clearStatus hp).over.bind fun _ _ _ => ?_
  refine (c.frank_program hp tx).over.bind fun _ _ _ => ?_
  refine (c.excused_start hp tx).bind fun _ _ h => ?_
  refine ((c.frank_awaitWithin hp _ _).started h).bind fun final _ h => ?_
  refine ((Frank.writeIo8 hp _ _).started h).bind fun _ _ h => ?_
  refine ((Frank.readIo8 hp _).started h).bind fun _ _ h => ?_
  split
  · exact (Frank.throw rfl).over
  · exact HostData.ends_collect (c := .piix4 c) hp h

omit hp in
/-- Nothing that comes later takes a refused length back. -/
theorem late_lasting : Unmoved (fun _ => True) (Excused (.piix4 c) tx e) := by
  intro calls call h _ he
  have hlate := h he
  cases hlate with
  | length hl => exact .length (hl.append _)
  | buffer hc hb => cases hc

omit hp in
theorem held_then {x : Access β} {r : Except Error Payload} {rest : Attempt Payload}
    (h : Held (.piix4 c) tx r past) (hrest : ∀ calls, Held (.piix4 c) tx r calls →
      Ends port.answer rest calls (fun _ _ => True) (Excused (.piix4 c) tx)) :
    Ends port.answer (do
      let _ ← ExceptT.lift x
      rest) past (fun _ _ => True) (Excused (.piix4 c) tx) :=
  held_after x.only_true (fun _ => c.late_lasting tx) h hrest

theorem excused_transferSb800 (s : Sb800) :
    Ends port.answer (c.transferSb800 s tx) past (fun _ _ => True) (Excused (.piix4 c) tx) := by
  have hport : ∀ past, Ends port.answer (c.withPort s (c.transact tx)) past (fun _ _ => True)
      (Excused (.piix4 c) tx) := by
    intro past
    rw [withPort]
    refine (s.pm.frank_read hp _).over.bind fun saved _ _ => ?_
    dsimp only
    split
    · exact c.excused_transact hp tx
    · refine (s.pm.frank_write hp _ _).over.bind fun _ _ _ => ?_
      exact held_outcome (c.excused_transact hp tx) fun r _ h =>
        c.held_then tx h fun _ => held_ofExcept
  have hrest : ∀ (asleep : Bool) past, Ends port.answer (c.underSemaphore s tx asleep) past
      (fun _ _ => True) (Excused (.piix4 c) tx) := by
    intro asleep past
    refine held_outcome (hport past) fun r _ h => ?_
    cases asleep with
    | true =>
        exact c.held_then tx h fun _ h => c.held_then tx h fun _ => held_ofExcept
    | false => exact c.held_then tx h fun _ => held_ofExcept
  rw [transferSb800_eq]
  refine (c.frank_acquire hp).over.bind fun _ _ _ => ?_
  split
  · exact (Frank.lift _).over.bind fun asleep _ _ => hrest asleep _
  · exact hrest false _

end Piix4

theorem Controller.excused_transfer (hdirect : c.info.transport = .direct)
    (h : Quiet c.info.base past) :
    Ends port.answer (c.transfer tx) past (fun _ _ => True) (Excused c tx) := by
  cases c with
  | ich c =>
      change Ends port.answer (c.transfer tx) past _ _
      rw [Ich.transfer, show c.info.transport = .direct from hdirect]
      exact c.excused_transferDirect hp tx h
  | piix4 c =>
      change Ends port.answer (c.transfer tx) past _ _
      rw [Piix4.transfer, show c.info.transport = .direct from hdirect]
      cases c.sb800 with
      | none => exact c.excused_transact hp tx
      | some s => exact c.excused_transferSb800 hp tx s

theorem Controller.excused_underLock (hdirect : c.info.transport = .direct) (timeoutUs : Nat) :
    Ends port.answer ((c.transfer tx).underLock timeoutUs) [] (fun _ _ => True) (Excused c tx) := by
  have hfresh : Quiet c.info.base [] := nofun
  have hunlock : Access.unlock.run.Only fun r => Call.asksStart c.info.base r = false :=
    ⟨rfl, fun _ => trivial⟩
  rw [Attempt.underLock]
  have hlock : (Access.lock timeoutUs).Only fun r => Call.asksStart c.info.base r = false :=
    ⟨rfl, fun _ => trivial⟩
  refine ((Frank.lock hp _).stage hlock (fun _ _ h hc => h.snoc hc) hfresh).bind fun _ _ h => ?_
  refine held_outcome (Controller.excused_transfer hp hdirect h) fun r _ hr => ?_
  exact held_after hunlock (fun _ => late_unmoved) hr fun _ => held_ofExcept

omit hp

open Session

/-- Through registers, on a machine that does not refuse by itself: a transaction that is refused
was refused before any access, or it is a block and its refusal is one of the two late ones. -/
theorem refused_unsent_or_late {port : Port} (hport : port.Candid) {s s' : Session}
    (hdirect : s.link.controller.info.transport = .direct) {tx : Transaction} {e : Error}
    {calls : List Call}
    (hrun : (s.run (transfer · tx)).run port.answer [] = ((.error e, s'), calls))
    (he : e.isRefusal = true) :
    (s.link.admission tx = .error e ∧ s' = s ∧ calls = []) ∨
      (s.link.admission tx = .ok () ∧ Late s.link.controller tx calls e) := by
  cases hadmit : s.link.admission tx with
  | error e' =>
      rw [Session.run, perform_pure (transfer_refused hadmit)] at hrun
      cases hrun
      exact .inl ⟨rfl, rfl, rfl⟩
  | ok _ =>
      have hexcused : Ends port.answer ((s.link.controller.transfer tx).underLock
          s.link.config.lockTimeoutUs) [] (fun _ _ => True) (Excused s.link.controller tx) :=
        Controller.excused_underLock hport hdirect _
      rw [run_transfer_admitted hadmit, Access.run_map] at hrun
      obtain ⟨hresult, hcalls⟩ := Prod.mk.inj hrun
      obtain ⟨hresult, -⟩ := Prod.mk.inj hresult
      exact .inr ⟨rfl, (ends_iff_run.mp hexcused).2 e calls (Prod.ext hresult hcalls) he⟩

/-! ### A device that announces an empty block -/

/-- A host whose block buffer switches on, and that is done as soon as it is started. All devices
announce empty blocks. -/
def Port.hollow : Port := fun past request =>
  match request with
  | .readIo8 address =>
    if address = 0xEFAD then .ok Ich.AuxControl.blockBuffer else Port.prompt past (.readIo8 address)
  | request => Port.prompt past request

theorem Port.hollow_flawless (past : List Call) (request : Request) :
    request.failure? (Port.hollow past request) = none := by
  cases request with
  | readIo8 address =>
      simp only [Port.hollow, Port.prompt]
      split <;> rfl
  | _ => rfl

theorem Port.hollow_candid : Port.hollow.Candid := by
  intro past request e he
  rw [hollow_flawless] at he
  cases he

/-- No access fails and the block read is well-formed; still it is refused, after it was started. -/
theorem refused_after_start_hollow : ∃ c s' calls,
    ((Controller.init .ich .direct .sample {}).run.run Port.prompt.answer []).1 = .ok c ∧
    c.info.transport = .direct ∧
    (∀ past (request : Request), request.failure? (Port.hollow past request) = none) ∧
    (Session.run ⟨⟨c, {}⟩, .empty⟩ (transfer · (.readBlock 0x50 0))).run Port.hollow.answer [] =
      ((.error (.param (.returnedLength 0)), s'), calls) ∧
    calls.any (Call.starts c.info.base) = true :=
  ⟨_, _, _, rfl, rfl, Port.hollow_flawless, rfl, rfl⟩

theorem refused_unsent_or_late_hollow : ∃ c s' calls,
    ((Controller.init .ich .direct .sample {}).run.run Port.prompt.answer []).1 = .ok c ∧
    Port.hollow.Candid ∧ c.info.transport = .direct ∧
    (Session.run ⟨⟨c, {}⟩, .empty⟩ (transfer · (.readBlock 0x50 0))).run Port.hollow.answer [] =
      ((.error (.param (.returnedLength 0)), s'), calls) ∧
    Late c (.readBlock 0x50 0) calls (.param (.returnedLength 0)) := by
  obtain ⟨c, s', calls, hinit, hdirect, hadmit, hrun⟩ : ∃ c s' calls,
      ((Controller.init .ich .direct .sample {}).run.run Port.prompt.answer []).1 = .ok c ∧
      c.info.transport = .direct ∧ Link.admission ⟨c, {}⟩ (.readBlock 0x50 0) = .ok () ∧
      (Session.run ⟨⟨c, {}⟩, .empty⟩ (transfer · (.readBlock 0x50 0))).run Port.hollow.answer [] =
        ((.error (.param (.returnedLength 0)), s'), calls) := ⟨_, _, _, rfl, rfl, rfl, rfl⟩
  refine ⟨c, s', calls, hinit, Port.hollow_candid, hdirect, hrun, ?_⟩
  rcases refused_unsent_or_late Port.hollow_candid hdirect hrun rfl with ⟨hrefused, -⟩ | ⟨-, hlate⟩
  · cases hadmit.symm.trans hrefused
  · exact hlate

end DimmBus
