import DimmBus.Proofs.IchTransfer
import DimmBus.Proofs.Piix4Transfer
import DimmBus.Proofs.Stages

/-!
# Success comes of a clean completion

On any machine, a transaction starts at most once and on an idle host, and brings data only after
the host has reported a completion without errors.
-/

namespace DimmBus

open Access Attempt HostRegister

/-! ## What the calls have to show -/

/-- A status that reports a completion without errors. -/
def Status.Clean (seen : UInt8) : Prop :=
  hasAny seen Status.hostBusy = false ∧ hasAny seen Status.interrupt = true ∧
    hasAny seen Status.errors = false

/-- The bytes of a payload are those read from the data registers, in the order of the wire. -/
inductive Payload.Arrived : Payload → List (UInt16 × Except Error UInt8) → Prop
  | none : Arrived .none []
  | byte (value : UInt8) : Arrived (.byte value) [(data0, .ok value)]
  | word (lo hi : UInt8) :
      Arrived (.word (LittleEndian.word lo hi)) [(data0, .ok lo), (data1, .ok hi)]
  | block (length : UInt8) (bytes : List UInt8) (h : bytes.length = length.toNat) :
      Arrived (.block bytes)
        ((data0, .ok length) :: bytes.map fun b => (HostRegister.block, .ok b))

/-- The result `r` of a transaction is backed by its calls. -/
structure Backed (base : UInt16) (idle : UInt8 → Bool) (r : Except Error Payload)
    (calls : List Call) : Prop where
  /-- At most one start is attempted. -/
  once : calls.countP (fun call => Call.asksStart base call.request) ≤ 1
  /-- When it is attempted, the status read last shows an idle host. -/
  idle : ∀ before call after, calls = before ++ call :: after →
    Call.asksStart base call.request = true →
    ∃ seen, (statuses base before).getLast? = some (.ok seen) ∧ idle seen = true
  /-- A result other than a failure needs a start that was granted, a clean status at the end of the
  wait, and brings what was read since. -/
  clean : ∀ payload, r = .ok payload → ∃ final after, endOfWait? base calls = some (final, after) ∧
    Status.Clean final ∧ payload.Arrived (dataReads base after)
  /-- An error flag at the end of the wait is a failure. -/
  faulty : ∀ final after, endOfWait? base calls = some (final, after) →
    hasAny final Status.errors = true → ∃ e, r = .error e

variable {β : Type} {base : UInt16} {idle : UInt8 → Bool} {port : Port} {past calls : List Call}

/-- A payload has arrived after a clean completion. -/
def Arrival (base : UInt16) (idle : UInt8 → Bool) (payload : Payload) (calls : List Call) : Prop :=
  ∃ final data, Status.Clean final ∧ payload.Arrived data ∧ Concluded base idle final data calls

theorem arrival_unmoved (payload : Payload) :
    Unmoved (Aside base) (Arrival base idle payload) :=
  fun calls call ⟨final, data, hclean, ha, hs⟩ h =>
    ⟨final, data, hclean, ha, concluded_unmoved calls call hs h⟩

theorem Arrival.once {payload : Payload} (h : Arrival base idle payload calls) :
    Once base idle calls := by
  obtain ⟨_, _, -, -, hs⟩ := h
  exact hs.once

/-- What stands behind a result. -/
def Standing (base : UInt16) (idle : UInt8 → Bool) : Except Error Payload → List Call → Prop
  | .ok payload => Arrival base idle payload
  | .error _ => Once base idle

theorem standing_unmoved (r : Except Error Payload) :
    Unmoved (Aside base) (Standing base idle r) := by
  cases r with
  | ok payload => exact arrival_unmoved payload
  | error e => exact once_aside

theorem Quiet.endOfWait {rest : List Call} (h : Quiet base calls) :
    endOfWait? base (calls ++ rest) = endOfWait? base rest := by
  induction calls with
  | nil => rfl
  | cons call calls ih =>
      have hcall := h call List.mem_cons_self
      have hstarts : call.starts base = false := by
        unfold Call.starts
        split
        · simp only at hcall
          rw [hcall, Bool.false_and]
        · rfl
      rw [List.cons_append, endOfWait?, hstarts, if_neg (by decide)]
      exact ih fun c hc => h c (List.mem_cons_of_mem _ hc)

theorem Concluded.endOfWait {final : UInt8} {data : List (UInt16 × Except Error UInt8)}
    (h : Concluded base idle final data calls) :
    ∃ after, endOfWait? base calls = some (final, after) ∧ dataReads base after = data := by
  obtain ⟨rest, after, ⟨before, start, rfl, hb, -, hg, -⟩, hf, hd⟩ := h
  refine ⟨after, ?_, hd⟩
  rw [hb.1.endOfWait, endOfWait?, if_pos hg, hf]

theorem Once.countP (h : Once base idle calls) :
    calls.countP (fun call => Call.asksStart base call.request) ≤ 1 := by
  have hquiet : ∀ {calls}, Quiet base calls →
      calls.countP (fun call => Call.asksStart base call.request) = 0 := fun h =>
    List.countP_eq_zero.mpr fun call hc => by simp [h call hc]
  obtain h | ⟨granted, rest, before, start, rfl, hb, hs, -, hr⟩ := h
  · rw [hquiet h]
    decide
  · rw [List.countP_append, List.countP_cons, hquiet hb.1, hquiet hr]
    split <;> decide

theorem Once.ready_before (h : Once base idle calls) {before after : List Call} {call : Call}
    (heq : calls = before ++ call :: after) (hc : Call.asksStart base call.request = true) :
    Ready base idle before := by
  have hne : ∀ {calls}, Quiet base calls → call ∉ calls := fun h hm => by
    rw [h call hm] at hc
    cases hc
  obtain h | ⟨granted, rest, before', start, rfl, hb, -, -, hr⟩ := h
  · exact absurd (heq ▸ by simp : call ∈ calls) (hne h)
  · obtain ⟨more, hbefore, hmore⟩ | ⟨more, hbefore, hmore⟩ := List.append_eq_append_iff.mp heq
    · cases more with
      | nil => exact hbefore ▸ (List.append_nil before').symm ▸ hb
      | cons c more =>
          obtain ⟨-, rfl⟩ := List.cons.inj hmore
          exact absurd (by simp) (hne hr)
    · cases more with
      | nil => exact (List.append_nil before ▸ hbefore) ▸ hb
      | cons c more =>
          obtain ⟨rfl, -⟩ := List.cons.inj hmore
          exact absurd (by simp [hbefore]) (hne hb.1)

/-- What is proved of a run is what its calls have to show. -/
theorem backed_of_ends {x : Attempt Payload}
    (h : Ends port.answer x [] (Arrival base idle) fun _ => Once base idle) :
    Backed base idle (x.run.run port.answer []).1 (x.run.run port.answer []).2 := by
  revert h
  unfold Ends
  rcases x.run.run port.answer [] with ⟨e | payload, calls⟩
  · intro h
    exact ⟨h.countP, fun _ _ _ heq hc => (h.ready_before heq hc).2, nofun, fun _ _ _ _ => ⟨e, rfl⟩⟩
  · rintro ⟨final, data, hclean, harrived, hs⟩
    have h := hs.once
    obtain ⟨after, hend, hdata⟩ := hs.endOfWait
    refine ⟨h.countP, fun _ _ _ heq hc => (h.ready_before heq hc).2, fun _ hp => ?_,
      fun final' after' hend' herr => ?_⟩
    · cases hp
      exact ⟨final, after, hend, hclean, hdata ▸ harrived⟩
    · rw [hend] at hend'
      cases hend'
      rw [hclean.2.2] at herr
      cases herr

/-! ## Steps of a transaction -/

/-- What is asked for on the side leaves every stage as it is. -/
theorem stage_aside {α : Type} {x : Attempt α} (hx : x.Only (Aside base)) {P : List Call → Prop}
    (hP : Unmoved (Aside base) P) (hp : P past) :
    Ends port.answer x past (fun _ => P) fun _ => P := hx.ends fun _ hc => hP.chunk hp hc

/-- The same where a failure only leaves that one start was attempted at most. -/
theorem stage_once {α : Type} {x : Attempt α} (hx : x.Only (Aside base)) {P : List Call → Prop}
    (hP : Unmoved (Aside base) P) (hp : P past)
    (honce : ∀ {calls}, P calls → Once base idle calls) :
    Ends port.answer x past (fun _ => P) fun _ => Once base idle :=
  (stage_aside hx hP hp).mono (fun _ _ h => h) fun _ _ h => honce h

theorem Request.Touches.aside {reads writes : List UInt16} {pauses : Bool} {request : Request}
    (h : request.Touches base reads writes pauses)
    (hr : reads.all (fun offset => !List.contains [status, data0, data1, block] offset) = true)
    (hw : writes.contains control = false) : Aside base request := by
  cases h with
  | @read offset ho =>
      refine ⟨rfl, fun other hother heq => ?_⟩
      injection heq with heq
      obtain rfl := (UInt16.add_right_inj base).mp heq
      have hno := List.all_eq_true.mp hr offset ho
      rw [List.contains_iff_mem.mpr hother] at hno
      cases hno
  | @write offset ho value =>
      refine ⟨asksStart_ne fun heq => ?_, fun _ _ => nofun⟩
      rw [(UInt16.add_right_inj base).mp heq, ← List.contains_iff_mem, hw] at ho
      cases ho
  | sleep _ us => exact ⟨rfl, fun _ _ => nofun⟩

/-- What only touches other registers than these is on the side. -/
theorem Attempt.Only.aside {α : Type} {x : Attempt α} {reads writes : List UInt16} {pauses : Bool}
    (hx : x.Only (Request.Touches base reads writes pauses))
    (hr : reads.all (fun offset => !List.contains [status, data0, data1, block] offset) = true)
    (hw : writes.contains control = false) : x.Only (Aside base) :=
  hx.mono fun _ h => h.aside hr hw

theorem aside_sleep {us : UInt32} : (Access.sleep us).Only (Aside base) :=
  only_sleep ⟨rfl, fun _ _ => nofun⟩

theorem aside_readControl : (readIo8 (base + control)).Only (Aside base) := by
  have h : Attempt.Only (Request.Touches base [control] [] false) (readIo8 (base + control)) :=
    touches_read rfl
  exact h.aside rfl rfl

theorem aside_writeStatus {value : UInt8} :
    (writeIo8 (base + status) value).Only (Aside base) := by
  have h : Attempt.Only (Request.Touches base [] [status] false) (writeIo8 (base + status) value) :=
    touches_write rfl
  exact h.aside rfl rfl

/-- What follows a transaction on the side changes nothing about it. -/
theorem stage_after {x : Access β} {rest : Attempt Payload} (hx : x.Only (Aside base))
    {r : Except Error Payload} (h : Standing base idle r past)
    (hrest : ∀ calls, Standing base idle r calls →
      Ends port.answer rest calls (Arrival base idle) fun _ => Once base idle) :
    Ends port.answer (do
      let _ ← ExceptT.lift x
      rest) past (Arrival base idle) fun _ => Once base idle := by
  rw [ends_bind, ends_lift]
  obtain ⟨calls, hrun, haside⟩ := hx.calls port past
  rw [hrun]
  exact hrest _ ((standing_unmoved r).chunk h haside)

theorem stage_ofExcept {r : Except Error Payload} (h : Standing base idle r past) :
    Ends port.answer (Attempt.ofExcept r) past (Arrival base idle) fun _ => Once base idle := by
  cases r <;> exact h

/-- A result is kept while something else is done, whatever it is. -/
theorem stage_outcome {x : Attempt Payload} {rest : Except Error Payload → Attempt Payload}
    (hx : Ends port.answer x past (Arrival base idle) fun _ => Once base idle)
    (hrest : ∀ r calls, Standing base idle r calls →
      Ends port.answer (rest r) calls (Arrival base idle) fun _ => Once base idle) :
    Ends port.answer (x.outcome >>= rest) past (Arrival base idle) fun _ => Once base idle := by
  rw [ends_bind, ends_outcome]
  exact hx.mono (fun payload calls h => hrest (.ok payload) calls h)
    fun e calls h => hrest (.error e) calls h

theorem Control.hasAny_or_start : ∀ value, hasAny (value ||| Control.start) Control.start = true :=
  forall_byte (by decide +kernel)

/-- The start, on a host that is ready. -/
theorem stage_launch {value : UInt8} (hv : hasAny value Control.start = true)
    (h : Ready base idle past) : Ends port.answer (writeIo8 (base + control) value) past
      (fun _ => Launched base idle) fun _ => Once base idle :=
  ends_writeIo8 (h.launched hv) fun _ => h.refused hv

/-- A look at the status of a host that is at work. -/
theorem stage_look {ok : UInt8 → List Call → Prop} (h : Launched base idle past)
    (hfinal : ∀ value calls, Status.isFinal value = true → Concluded base idle value [] calls →
      ok value calls)
    (hwait : ∀ value calls, Status.isFinal value = false → Launched base idle calls →
      ok value calls) :
    Ends port.answer (readIo8 (base + status)) past ok fun _ => Once base idle := by
  refine ends_readIo8 (fun value => ?_) fun _ => once_unmoved _ _ h.once rfl
  cases hv : Status.isFinal value with
  | true => exact hfinal value _ hv (h.concluded hv)
  | false => exact hwait value _ hv (h.wait hv)

theorem Status.clean_of_isFinal : ∀ seen : UInt8, Status.isFinal seen = true →
    hasAny seen Status.failed = false → hasAny seen Status.deviceError = false →
    hasAny seen Status.busError = false → Status.Clean seen := by
  unfold Status.Clean
  exact forall_byte (by decide +kernel)

/-! ## Data -/

namespace HostData

variable {final : UInt8} {data : List (UInt16 × Except Error UInt8)}

theorem stage_data {offset : UInt16} (ho : offset ∈ [data0, data1, block])
    (h : Concluded base idle final data past) :
    Ends port.answer (readIo8 (base + offset)) past
      (fun value => Concluded base idle final (data ++ [(offset, .ok value)]))
      fun _ => Once base idle :=
  ends_readIo8 (fun _ => h.read ho) fun _ => once_unmoved _ _ h.once rfl

theorem stage_readBytes (n : Nat) (h : Concluded base idle final data past) :
    Ends port.answer (readBytes (base + block) n) past
      (fun bytes calls => bytes.length = n ∧
        Concluded base idle final (data ++ bytes.map fun b => (block, .ok b)) calls)
      fun _ => Once base idle := by
  induction n generalizing data past with
  | zero => exact ⟨rfl, by simpa using h⟩
  | succ n ih =>
      rw [readBytes]
      refine (stage_data (by decide) h).bind fun b calls h => ?_
      refine (ih h).bind fun bytes calls h => ?_
      exact ⟨congrArg (· + 1) h.1, by simpa using h.2⟩

/-- Nothing comes back but what is read. -/
theorem stage_collect (hclean : Status.Clean final) (tx : Transaction)
    (h : Concluded base idle final [] past) :
    Ends port.answer (collect base tx) past (Arrival base idle) fun _ => Once base idle := by
  have hbyte : Ends port.answer (do
      let value ← readIo8 (base + data0)
      return Payload.byte value) past (Arrival base idle) fun _ => Once base idle := by
    exact (stage_data (by decide) h).bind fun value _ h => ⟨final, _, hclean, .byte value, h⟩
  have hword : Ends port.answer (do
      let lo ← readIo8 (base + data0)
      let hi ← readIo8 (base + data1)
      return Payload.word (LittleEndian.word lo hi)) past (Arrival base idle)
      fun _ => Once base idle := by
    refine (stage_data (by decide) h).bind fun lo _ h => ?_
    exact (stage_data (by decide) h).bind fun hi _ h => ⟨final, _, hclean, .word lo hi, h⟩
  have hblock : Ends port.answer (collectBlock base) past (Arrival base idle)
      fun _ => Once base idle := by
    refine (stage_data (by decide) h).bind fun announced _ h => ?_
    rw [ends_bind]
    unfold checkReturnedLength
    split
    · rw [ends_ofExcept_ok]
      refine (stage_once aside_readControl concluded_unmoved h Concluded.once).bind fun _ _ h => ?_
      refine (stage_readBytes _ h).bind fun bytes _ h => ?_
      exact ⟨final, _, hclean, .block announced bytes h.1, h.2⟩
    · exact h.once
  unfold collect
  split
  · split
    · exact ⟨final, [], hclean, .none, h⟩
    · exact hbyte
    · exact hbyte
    · exact hword
    · exact hword
    · exact hblock
    · exact hblock
  · exact ⟨final, [], hclean, .none, h⟩

end HostData

/-! ## Intel hosts -/

namespace Ich

/-- No transaction is in progress. -/
def isIdle (seen : UInt8) : Bool := !hasAny seen Status.hostBusy

variable (c : Ich) (tx : Transaction)

theorem stage_awaitWithin (n : Nat) (h : Launched c.info.base isIdle past) :
    Ends port.answer (c.awaitWithin n) past
      (fun final calls => Status.isFinal final = true ∧ Concluded c.info.base isIdle final [] calls)
      fun _ => Once c.info.base isIdle := by
  -- A look that does not end the wait leaves the transaction launched, for the looks to come.
  induction n generalizing past with
  | zero => exact h.once
  | succ n ih =>
      rw [awaitWithin]
      refine (stage_once aside_sleep launched_unmoved h Launched.once).bind fun _ _ h => ?_
      rw [ends_bind]
      refine stage_look h (fun final calls hf h => ?_) fun value calls hf h => ?_
      · rw [if_pos hf]
        exact ⟨hf, h⟩
      · rw [if_neg (by simp [hf])]
        exact ih h

/-- A status with a fault is a failure. -/
theorem stage_checkStatus {final : UInt8} (hf : Status.isFinal final = true)
    (h : Concluded c.info.base isIdle final [] past) :
    Ends port.answer (c.checkStatus tx final) past
      (fun _ calls => Status.Clean final ∧ Concluded c.info.base isIdle final [] calls)
      fun _ => Once c.info.base isIdle := by
  by_cases hclean : hasAny final Status.failed = false ∧ hasAny final Status.deviceError = false ∧
      hasAny final Status.busError = false
  · obtain ⟨hfailed, hdevice, hbus⟩ := hclean
    simp only [checkStatus, hfailed, hdevice, hbus, Bool.false_eq_true, if_false]
    exact ⟨Status.clean_of_isFinal final hf hfailed hdevice hbus, h⟩
  · unfold checkStatus
    have hfault : Ends port.answer (c.deviceFault tx) past (fun _ => Once c.info.base isIdle)
        fun _ => Once c.info.base isIdle :=
      stage_aside ((c.only_deviceFault tx).aside rfl rfl) once_aside h.once
    split
    · exact h.once
    · split
      · rw [ends_bind]
        exact hfault.mono (fun _ _ h => h) fun _ _ h => h
      · split
        · exact h.once
        · simp_all

/-- A transaction on a host that is ready. -/
theorem stage_runIdle (h : Ready c.info.base isIdle past) :
    Ends port.answer (c.runIdle tx) past (Arrival c.info.base isIdle)
      fun _ => Once c.info.base isIdle := by
  rw [runIdle]
  refine (stage_once ((c.only_program tx).aside rfl rfl) ready_unmoved h Ready.once).bind
    fun _ _ h => ?_
  have hexecute : Ends port.answer (c.execute tx) ‹_› (Arrival c.info.base isIdle)
      fun _ => Once c.info.base isIdle := by
    rw [execute]
    refine (stage_launch (startValue_control tx).2 h).bind fun _ _ h => ?_
    refine (c.stage_awaitWithin _ h).bind fun final _ h => ?_
    refine (c.stage_checkStatus tx h.1 h.2).bind fun _ _ h => ?_
    exact HostData.stage_collect h.1 tx h.2
  refine stage_outcome hexecute fun r _ h => ?_
  rw [ends_bind]
  refine (stage_aside ((c.only_disableAux _).aside rfl rfl) (standing_unmoved r) h).mono
    (fun _ _ h => stage_ofExcept h) fun _ _ h => ?_
  cases r with
  | ok payload => exact h.once
  | error e => exact h

theorem stage_transact (h : Quiet c.info.base past) :
    Ends port.answer (c.transact tx) past (Arrival c.info.base isIdle)
      fun _ => Once c.info.base isIdle := by
  rw [transact, ends_bind]
  refine ends_readIo8 (fun seen => ?_) fun _ => .inl (h.snoc rfl)
  have hclear : ∀ value, (writeIo8 (c.register status) value).Only (Aside c.info.base) := fun _ =>
    aside_writeStatus
  split
  · exact (stage_aside (hclear _) once_aside (.inl (h.snoc rfl))).bind fun _ _ h => h
  · rename_i hbusy
    have hready : Ready c.info.base isIdle
        (past ++ [⟨.readIo8 (c.info.base + status), .ok seen⟩]) :=
      h.ready (by simp [isIdle, hbusy])
    split
    · exact (stage_once (hclear _) ready_unmoved hready Ready.once).bind fun _ _ h =>
        c.stage_runIdle tx h
    · exact c.stage_runIdle tx hready

/-- A kill is no start. -/
theorem kill_no_start : c.kill.Only fun r => Call.asksStart c.info.base r = false :=
  Attempt.Only.quietly <| .bind (only_writeIo8 (asksStart_clear rfl)) fun _ =>
    .bind (only_sleep rfl) fun _ =>
      .bind (only_writeIo8 (asksStart_clear rfl)) fun _ => only_readIo8 rfl

theorem stage_windUp {r : Except Error Payload} (h : Standing c.info.base isIdle r past) :
    Ends port.answer (c.windUp r) past (Arrival c.info.base isIdle)
      fun _ => Once c.info.base isIdle := by
  have hfree : ∀ calls, Standing c.info.base isIdle r calls → Ends port.answer (c.free r) calls
      (Arrival c.info.base isIdle) fun _ => Once c.info.base isIdle := fun _ h =>
    stage_after (c.only_cleanUp.mono fun _ h => h.aside rfl rfl) h fun _ => stage_ofExcept
  unfold windUp
  split
  -- A kill writes to the control register, so it is not on the side. It comes after a failure,
  -- where no more is claimed than that at most one start was attempted.
  · rename_i hr
    cases r with
    | ok payload => cases hr
    | error e =>
        rw [ends_bind, ends_lift]
        obtain ⟨calls, hrun, hkill⟩ := c.kill_no_start.calls port past
        rw [hrun]
        exact hfree _ (once_unmoved.chunk h hkill)
  · exact hfree _ h

theorem stage_transferDirect (h : Quiet c.info.base past) :
    Ends port.answer (c.transferDirect tx) past (Arrival c.info.base isIdle)
      fun _ => Once c.info.base isIdle := by
  rw [transferDirect_eq]
  exact stage_outcome (c.stage_transact tx h) fun _ _ => c.stage_windUp

end Ich

/-! ## PIIX4-compatible hosts -/

namespace Piix4

/-- No flag is up. -/
def isIdle (seen : UInt8) : Bool := seen == 0

variable (c : Piix4) (tx : Transaction)

theorem stage_clearStatus (h : Quiet c.info.base past) :
    Ends port.answer c.clearStatus past (fun _ => Ready c.info.base isIdle)
      fun _ => Once c.info.base isIdle := by
  have hlook : ∀ {calls}, Quiet c.info.base calls → ∀ seen : UInt8, seen = 0 →
      Ready c.info.base isIdle (calls ++ [⟨.readIo8 (c.info.base + status), .ok seen⟩]) :=
    fun h seen hs => h.ready (by simp [isIdle, hs])
  rw [clearStatus, ends_bind]
  refine ends_readIo8 (fun seen => ?_) fun _ => .inl (h.snoc rfl)
  split
  · rename_i hs
    exact hlook h seen hs
  · refine (stage_once aside_writeStatus quiet_unmoved (h.snoc rfl) Quiet.once).bind
      fun _ _ h => ?_
    rw [ends_bind]
    refine ends_readIo8 (fun again => ?_) fun _ => .inl (h.snoc rfl)
    split
    · rename_i hs
      exact hlook h again hs
    · exact .inl (h.snoc rfl)

theorem stage_start (h : Ready c.info.base isIdle past) :
    Ends port.answer (c.start tx) past (fun _ => Launched c.info.base isIdle)
      fun _ => Once c.info.base isIdle := by
  have hkind : (writeIo8 (c.register control) (kind tx.protocol)).Only (Aside c.info.base) :=
    only_writeIo8 ⟨asksStart_clear (startValue_control tx).1.2, fun _ _ => nofun⟩
  rw [start]
  refine (stage_once hkind ready_unmoved h Ready.once).bind fun _ _ h => ?_
  refine (stage_once aside_readControl ready_unmoved h Ready.once).bind fun value _ h => ?_
  exact (stage_launch (Control.hasAny_or_start value) h).bind fun _ _ h =>
    stage_once aside_sleep launched_unmoved h Launched.once

theorem stage_awaitWithin (n : Nat) (last : UInt8) (h : Launched c.info.base isIdle past) :
    Ends port.answer (c.awaitWithin n last) past
      (fun final calls => Status.isFinal final = true ∧ Concluded c.info.base isIdle final [] calls)
      fun _ => Once c.info.base isIdle := by
  induction n generalizing past last with
  | zero =>
      rw [awaitWithin]
      exact (stage_aside aside_writeStatus once_aside h.once).bind fun _ _ h => h
  | succ n ih =>
      rw [awaitWithin]
      refine (stage_once aside_sleep launched_unmoved h Launched.once).bind fun _ _ h => ?_
      rw [ends_bind]
      refine stage_look h (fun final calls hf h => ?_) fun value calls hf h => ?_
      · rw [if_pos hf]
        exact ⟨hf, h⟩
      · rw [if_neg (by simp [hf])]
        exact ih value h

theorem clean_of_faultOf {final : UInt8} (hf : Status.isFinal final = true)
    (hn : faultOf final = none) : Status.Clean final := by
  unfold faultOf at hn
  split at hn
  · cases hn
  · split at hn
    · cases hn
    · split at hn
      · cases hn
      · exact Status.clean_of_isFinal final hf (by simp_all) (by simp_all) (by simp_all)

theorem stage_transact (h : Quiet c.info.base past) :
    Ends port.answer (c.transact tx) past (Arrival c.info.base isIdle)
      fun _ => Once c.info.base isIdle := by
  rw [transact]
  refine (c.stage_clearStatus h).bind fun _ _ h => ?_
  refine (stage_once ((c.only_program tx).aside rfl rfl) ready_unmoved h Ready.once).bind
    fun _ _ h => ?_
  refine (c.stage_start tx h).bind fun _ _ h => ?_
  refine (c.stage_awaitWithin _ _ h).bind fun final _ ⟨hf, h⟩ => ?_
  refine (stage_once aside_writeStatus concluded_unmoved h Concluded.once).bind fun _ _ h => ?_
  rw [ends_bind]
  refine ends_readIo8 (fun _ => ?_) fun _ => once_unmoved _ _ h.once rfl
  split
  · exact h.look.once
  · rename_i hn
    exact HostData.stage_collect (clean_of_faultOf hf hn) tx h.look

/-- The addresses of the board are not those of the host. -/
theorem aside_of_board (hbase : base.toNat % 32 = 0) {request : Request} {pauses : Bool}
    (h : request.Board pauses) : Aside base request := by
  have hne : ∀ {address offset : UInt16}, address.toNat % 32 ≠ offset.toNat % 32 →
      address ≠ base + offset := by
    rintro address offset hne rfl
    apply hne
    rw [UInt16.toNat_add]
    omega
  cases h with
  | @read address h =>
      refine ⟨rfl, fun offset ho heq => ?_⟩
      injection heq with heq
      revert heq
      simp only [List.mem_cons, List.not_mem_nil, or_false] at h ho
      obtain rfl | rfl := h <;> obtain rfl | rfl | rfl | rfl := ho <;> exact hne (by decide)
  | @write address h value =>
      refine ⟨asksStart_ne ?_, fun _ _ => nofun⟩
      simp only [List.mem_cons, List.not_mem_nil, or_false] at h
      obtain rfl | rfl | rfl | rfl := h <;> exact hne (by decide)
  | readMmio physical => exact ⟨rfl, fun _ _ => nofun⟩
  | writeMmio physical value => exact ⟨rfl, fun _ _ => nofun⟩
  | sleep _ us => exact ⟨rfl, fun _ _ => nofun⟩

section

variable (s : Sb800) (hbase : c.info.base.toNat % 32 = 0)

include hbase

theorem stage_withPort (h : Quiet c.info.base past) :
    Ends port.answer (c.withPort s (c.transact tx)) past (Arrival c.info.base isIdle)
      fun _ => Once c.info.base isIdle := by
  have hboard : ∀ request, request.Board true → Aside c.info.base request := fun _ h =>
    aside_of_board hbase h
  rw [withPort]
  refine (stage_once ((s.pm.only_read _).mono hboard) quiet_unmoved h Quiet.once).bind
    fun saved _ h => ?_
  dsimp only
  split
  · exact c.stage_transact tx h
  · refine (stage_once ((s.pm.only_write _ _).mono hboard) quiet_unmoved h Quiet.once).bind
      fun _ _ h => ?_
    have hrestore : (s.pm.write s.selector.register saved).quietly.Only (Aside c.info.base) :=
      ((s.pm.only_write _ _).mono hboard).quietly
    exact stage_outcome (c.stage_transact tx h) fun r _ h =>
      stage_after hrestore h fun _ => stage_ofExcept

theorem stage_transferSb800 (h : Quiet c.info.base past) :
    Ends port.answer (c.transferSb800 s tx) past (Arrival c.info.base isIdle)
      fun _ => Once c.info.base isIdle := by
  have himc : ∀ command, (imcCommand command).Only (Aside c.info.base) := fun _ =>
    (only_imcCommand _).mono fun _ h => aside_of_board hbase h.board
  have hback : ∀ r calls, Standing c.info.base isIdle r calls → Ends port.answer (c.giveBack r)
      calls (Arrival c.info.base isIdle) fun _ => Once c.info.base isIdle := fun r _ h =>
    stage_after (c.only_release.mono fun _ h => h.aside rfl rfl) h fun _ => stage_ofExcept
  have hrest : ∀ (asleep : Bool) calls, Quiet c.info.base calls →
      Ends port.answer (c.underSemaphore s tx asleep) calls (Arrival c.info.base isIdle)
        fun _ => Once c.info.base isIdle := fun asleep _ h =>
    stage_outcome (c.stage_withPort tx s hbase h) fun r _ h => by
      cases asleep with
      | true => exact stage_after (himc _) h (hback r)
      | false => exact hback r _ h
  rw [transferSb800_eq]
  refine (stage_once (c.only_acquire.aside rfl rfl) quiet_unmoved h Quiet.once).bind
    fun _ _ h => ?_
  split
  · exact (stage_once (.lift (himc _)) quiet_unmoved h Quiet.once).bind fun asleep _ h =>
      hrest asleep _ h
  · exact hrest false _ h

end

end Piix4

/-! ## Every controller -/

namespace Controller

/-- No transaction is in progress on the host, as its status shows. -/
def isIdle : Controller → UInt8 → Bool
  | .ich _ => Ich.isIdle
  | .piix4 _ => Piix4.isIdle

theorem stage_transfer {c : Controller} (hc : c.Seated) (tx : Transaction) :
    Ends port.answer (c.transfer tx) [] (Arrival c.info.base c.isIdle)
      fun _ => Once c.info.base c.isIdle := by
  cases c with
  | ich c =>
      change Ends port.answer (c.transfer tx) [] _ _
      rw [Ich.transfer, hc.1]
      exact c.stage_transferDirect tx nofun
  | piix4 c =>
      change Ends port.answer (c.transfer tx) [] _ _
      rw [Piix4.transfer, hc.1]
      cases hs : c.sb800 with
      | none => exact c.stage_transact tx nofun
      | some s => exact c.stage_transferSb800 tx s (hc.2.2 (hs ▸ rfl)) nofun

end Controller

/-- On any machine, what a transaction on a controller in use comes to is backed by its calls. -/
theorem Controller.succeeds_only_clean {family : Family} {found : Detected} {config : Config}
    {c : Controller} {port₀ : Port}
    (hc : ((Controller.init family .direct found config).run.run port₀.answer []).1 = .ok c)
    (tx : Transaction) (port : Port) :
    Backed c.info.base c.isIdle ((c.transfer tx).run.run port.answer []).1
      ((c.transfer tx).run.run port.answer []).2 :=
  backed_of_ends
    (stage_transfer ((Access.Yields.run (yields_init family found config) _ _) c hc) tx)

/-- A host that is done as soon as it is started. -/
def Port.prompt : Port := fun past request =>
  match request with
  | .readPci32 .. => .ok 0xEFA1
  | .readIo8 address =>
    .ok (if address = 0xEFA0 ∧ past.any fun call => Call.asksStart 0xEFA0 call.request then
      Status.interrupt else 0)
  | .readPci8 .. | .readPci16 .. | .readMmio32 _ => .ok 0
  | .sleep _ => ()
  | .delegate .. => .ok []
  | .writeIo8 .. | .writePci8 .. | .writePci16 .. | .writePci32 .. | .writeMmio8 .. | .lock _
  | .unlock => .ok ()

/-- An Intel host as it is found on a board. -/
def Detected.sample : Detected := ⟨⟨⟨0, 0x1F, 4⟩, Pci.Vendor.intel, 0x7AA3, 0x11⟩, none⟩

theorem Controller.succeeds_only_clean_prompt : ∃ c,
    ((Controller.init .ich .direct .sample {}).run.run Port.prompt.answer []).1 = .ok c ∧
    ((c.transfer (.readByteData 0x50 2)).run.run Port.prompt.answer []).1 = .ok (.byte 0) ∧
    Backed c.info.base c.isIdle
      ((c.transfer (.readByteData 0x50 2)).run.run Port.prompt.answer []).1
      ((c.transfer (.readByteData 0x50 2)).run.run Port.prompt.answer []).2 :=
  ⟨_, rfl, rfl, @Controller.succeeds_only_clean .ich .sample {} _ Port.prompt rfl _ _⟩

end DimmBus
