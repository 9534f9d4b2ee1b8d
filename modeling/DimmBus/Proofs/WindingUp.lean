import Mathlib.Data.List.Basic
import DimmBus.Proofs.CleanCompletion
import DimmBus.Proofs.Paths
import DimmBus.Proofs.Requests

/-!
# Winding up

How a direct transaction of an Intel host ends, whatever it is answered: a host that may still be
running is killed, and the last access frees it. Neither has a say in the result.
-/

namespace DimmBus

open Access Attempt HostRegister
open Request (Touches)

/-! ## The requests that wind up -/

/-- Whether a request writes the kill bit to the host at `base`. -/
def Call.asksKill (base : UInt16) : Request → Bool
  | .writeIo8 address value => address == base + control && hasAny value Control.kill
  | _ => false

namespace Ich

/-- The request that frees the host at `base`. -/
abbrev freeing (base : UInt16) : Request :=
  .writeIo8 (base + status) (Status.inUse ||| Status.flags)

/-- A kill, or the freeing of the host. -/
def Winds (base : UInt16) (request : Request) : Prop :=
  Call.asksKill base request = true ∨ request = freeing base

/-- The calls of a kill, which is broken off where an access fails. -/
inductive Killed (base : UInt16) : List Call → Prop
  | refused (e : Error) : Killed base [⟨.writeIo8 (base + control) Control.kill, .error e⟩]
  | stuck (e : Error) : Killed base [⟨.writeIo8 (base + control) Control.kill, .ok ()⟩,
      ⟨.sleep killDelayUs, ()⟩, ⟨.writeIo8 (base + control) 0, .error e⟩]
  | through (seen : Except Error UInt8) :
      Killed base [⟨.writeIo8 (base + control) Control.kill, .ok ()⟩, ⟨.sleep killDelayUs, ()⟩,
        ⟨.writeIo8 (base + control) 0, .ok ()⟩, ⟨.readIo8 (base + status), seen⟩]

variable {c : Ich} {tx : Transaction} {base : UInt16} {calls : List Call}
  {r r' : Except Error Payload}

theorem killed_of_path {u : Unit} (h : c.kill.Path calls u) : Killed c.info.base calls := by
  obtain ⟨r, h⟩ := path_quietly.mp h
  simp only [path_bind, path_writeIo8, path_sleep, path_readIo8] at h
  obtain ⟨e, rfl, -⟩ | ⟨_, _, _, rfl, rfl, ⟨_, ⟨-, ⟨⟩⟩, -⟩ |
    ⟨_, _, _, rfl, ⟨rfl, -⟩, ⟨e, rfl, -⟩ | ⟨_, _, _, rfl, rfl, rfl⟩⟩⟩ := h
  · exact .refused e
  · exact .stuck e
  · exact .through r

/-! ## What comes before -/

theorem path_free (h : (c.free r).Path calls r') :
    r' = r ∧ ∃ answer, calls = [⟨freeing c.info.base, answer⟩] := by
  obtain ⟨_, before, after, rfl, hclean, hresult⟩ := path_lift_bind.mp h
  obtain ⟨rfl, rfl⟩ := path_ofExcept.mp hresult
  obtain ⟨answer, hclean⟩ := path_quietly.mp hclean
  exact ⟨rfl, answer, by rw [path_writeIo8.mp hclean]; rfl⟩

/-- The work, the recovery that its result asks for, and the freeing of the host. -/
theorem path_transferDirect (h : (c.transferDirect tx).Path calls r) :
    ∃ work recovery answer, calls = work ++ (recovery ++ [⟨freeing c.info.base, answer⟩]) ∧
      (c.transact tx).Path work r ∧
      (if interrupted r then Killed c.info.base recovery else recovery = []) := by
  rw [transferDirect_eq] at h
  obtain ⟨r', work, rest, rfl, hwork, h⟩ := path_outcome_bind.mp h
  unfold windUp at h
  split at h
  · rename_i hr
    obtain ⟨_, recovery, after, rfl, hkill, h⟩ := path_lift_bind.mp h
    obtain ⟨rfl, answer, rfl⟩ := path_free h
    refine ⟨work, recovery, answer, rfl, hwork, ?_⟩
    rw [if_pos hr]
    exact killed_of_path hkill
  · rename_i hr
    obtain ⟨rfl, answer, rfl⟩ := path_free h
    refine ⟨work, [], answer, rfl, hwork, ?_⟩
    rw [if_neg hr]

/-! ## The work leaves winding up alone -/

theorem not_winds_of_touches {reads writes : List UInt16} {pauses : Bool} {request : Request}
    (h : request.Touches base reads writes pauses) (hc : control ∉ writes) (hs : status ∉ writes) :
    ¬ Winds base request := by
  rintro (hkill | rfl)
  · cases h with
    | read | sleep => cases hkill
    | write ho value =>
        simp only [Call.asksKill, Bool.and_eq_true, beq_iff_eq, UInt16.add_right_inj] at hkill
        exact hc (hkill.1 ▸ ho)
  · generalize hr : freeing base = request at h
    cases h with
    | read | sleep => cases hr
    | write ho value =>
        simp only [freeing, Request.writeIo8.injEq, UInt16.add_right_inj] at hr
        exact hs (hr.1 ▸ ho)

/-- Clearing flags does not free the host. -/
theorem not_winds_clear (seen : UInt8) :
    ¬ Winds base (.writeIo8 (base + status) (seen &&& Status.flags)) := by
  have hfree : ∀ seen : UInt8, seen &&& Status.flags ≠ Status.inUse ||| Status.flags :=
    forall_byte (by decide +kernel)
  rintro (hkill | hfreeing)
  · simp only [Call.asksKill, Bool.and_eq_true, beq_iff_eq, UInt16.add_right_inj] at hkill
    exact absurd hkill.1 (by decide)
  · injection hfreeing with _ hvalue
    exact hfree seen hvalue

theorem not_winds_start : ¬ Winds base (.writeIo8 (base + control) (startValue tx)) := by
  rintro (hkill | hfreeing)
  · simp [Call.asksKill, (startValue_control tx).1] at hkill
  · injection hfreeing with haddress
    exact absurd ((UInt16.add_right_inj base).mp haddress) (by decide)

variable (c tx) in
theorem only_transact : (c.transact tx).Only fun request => ¬ Winds c.info.base request := by
  have hquiet : ∀ {α : Type} {x : Attempt α} {reads writes : List UInt16} {pauses : Bool},
      x.Only (Touches c.info.base reads writes pauses) → control ∉ writes → status ∉ writes →
      x.Only fun request => ¬ Winds c.info.base request := fun hx hc hs =>
    hx.mono fun _ h => not_winds_of_touches h hc hs
  have hidle : (c.runIdle tx).Only fun request => ¬ Winds c.info.base request := by
    unfold runIdle execute
    refine .bind (hquiet (c.only_program tx) (by decide) (by decide)) fun _ => .bind (.outcome ?_)
      fun _ => .bind (hquiet (c.only_disableAux _) (by decide) (by decide)) fun _ => .ofExcept _
    exact .bind (only_writeIo8 not_winds_start) fun _ =>
      .bind (hquiet (c.only_awaitWithin _) (by decide) (by decide)) fun _ =>
      .bind (hquiet (c.only_checkStatus tx _) (by decide) (by decide)) fun _ =>
        hquiet (HostData.only_collect tx) (by decide) (by decide)
  unfold transact
  refine .bind (only_readIo8 (by rintro (⟨⟨⟩⟩ | ⟨⟨⟩⟩))) fun seen => ?_
  refine .ite ?_ (.ite ?_ hidle)
  · exact .bind (only_writeIo8 (not_winds_clear seen)) fun _ => .throw _
  · exact .bind (only_writeIo8 (not_winds_clear seen)) fun _ => hidle

variable (c tx) in
/-- Winding up has no say in the result. -/
theorem sameResult_transact : (c.transferDirect tx).SameResult (c.transact tx) := by
  rw [transferDirect_eq]
  refine SameResult.outcome_bind fun r => ?_
  have hfree : SameResult (c.free r) (Attempt.ofExcept r) := .lift_bind fun _ => .refl
  unfold windUp
  split
  · exact .lift_bind fun _ => hfree
  · exact hfree

/-! ## How a transaction ends -/

theorem interrupted_iff {r : Except Error Payload} : interrupted r = true ↔
    (∃ retries quantumUs, r = .error (.timeout retries quantumUs)) ∨
      ∃ cause, r = .error (.access cause) := by
  unfold interrupted leavesRunning
  split
  · split <;> simp_all
  · simp

/-- No kill has been attempted. -/
def Spared (base : UInt16) (calls : List Call) : Prop :=
  ∀ call ∈ calls, Call.asksKill base call.request = false

theorem Killed.kill {recovery : List Call} (h : Killed base recovery) : ∃ kill after,
    recovery = kill :: after ∧ Call.asksKill base kill.request = true ∧
      Spared base after := by
  cases h <;>
    exact ⟨_, _, rfl, by simp [Call.asksKill, hasAny, Control.kill],
      by simp [Spared, Call.asksKill, hasAny]⟩

theorem asksKill_freeing : Call.asksKill base (freeing base) = false := by
  have hne : status ≠ HostRegister.control := by decide
  simp [Call.asksKill, hne]

theorem Spared.free {answer : Except Error Unit} (h : Spared base calls) :
    Spared base (calls ++ [⟨freeing base, answer⟩]) := by
  intro call hc
  obtain hc | hc := List.mem_append.mp hc
  · exact h call hc
  · exact List.mem_singleton.mp hc ▸ asksKill_freeing

/-- The calls of a transaction end as its result asks for. -/
structure WoundUp (base : UInt16) (r : Except Error Payload) (calls : List Call) : Prop where
  /-- The last access frees the host. -/
  freed : ∃ answer, calls.getLast? = some ⟨freeing base, answer⟩
  /-- At most one kill is attempted. -/
  once : calls.countP (fun call => Call.asksKill base call.request) ≤ 1
  /-- It is attempted after a timeout or a failed access, and after nothing else. -/
  killed : (∃ call ∈ calls, Call.asksKill base call.request = true) ↔
    (∃ retries quantumUs, r = .error (.timeout retries quantumUs)) ∨
      ∃ cause, r = .error (.access cause)
  /-- From a kill on, there is only the rest of it and the freeing of the host. -/
  settled : ∀ before kill after, calls = before ++ kill :: after →
    Call.asksKill base kill.request = true →
    ∃ rest answer, after = rest ++ [⟨freeing base, answer⟩] ∧ Killed base (kill :: rest)

section

variable {work recovery : List Call} {answer : Except Error Unit}

theorem woundUp_spared (hr : interrupted r = false) (h : Spared base work) :
    WoundUp base r (work ++ [⟨freeing base, answer⟩]) := by
  have hspared : ∀ call ∈ work ++ [⟨freeing base, answer⟩],
      ¬ Call.asksKill base call.request = true := fun call hc =>
    Bool.eq_false_iff.mp (h.free call hc)
  refine ⟨⟨answer, List.getLast?_concat⟩, ?_, ?_, fun before kill after heq hkill => ?_⟩
  · rw [List.countP_eq_zero.mpr hspared]
    decide
  · rw [← interrupted_iff, hr]
    exact ⟨fun h => absurd h.choose_spec.2 (hspared _ h.choose_spec.1), nofun⟩
  · exact absurd hkill (hspared kill (heq ▸ by simp))

theorem woundUp_killed (hr : interrupted r = true) (h : Spared base work)
    (hrecovery : Killed base recovery) :
    WoundUp base r (work ++ (recovery ++ [⟨freeing base, answer⟩])) := by
  obtain ⟨kill, rest, rfl, hkill, hrest⟩ := hrecovery.kill
  have hwork : ∀ call ∈ work, ¬ Call.asksKill base call.request = true := fun call hc =>
    Bool.eq_false_iff.mp (h call hc)
  have hafter : ∀ call ∈ rest ++ [⟨freeing base, answer⟩],
      ¬ Call.asksKill base call.request = true := fun call hc =>
    Bool.eq_false_iff.mp (Spared.free hrest call hc)
  rw [List.cons_append]
  refine ⟨⟨answer, ?_⟩, ?_, ?_, fun before kill' after heq hkill' => ?_⟩
  · rw [← List.cons_append, ← List.append_assoc, List.getLast?_concat]
  · rw [List.countP_append, List.countP_cons, List.countP_eq_zero.mpr hwork,
      List.countP_eq_zero.mpr hafter, hkill]
    decide
  · rw [← interrupted_iff, hr]
    exact ⟨fun _ => rfl, fun _ => ⟨kill, by simp, hkill⟩⟩
  · obtain ⟨-, rfl, rfl⟩ := (List.append_cons_inj_of_notMem (fun hc => hwork kill' hc hkill')
      fun hc => hafter kill' hc hkill').mp heq
    exact ⟨rest, answer, rfl, hrecovery⟩

end

theorem woundUp_of_path (h : (c.transferDirect tx).Path calls r) :
    WoundUp c.info.base r calls := by
  obtain ⟨work, recovery, answer, rfl, hwork, hrecovery⟩ := path_transferDirect h
  have hspared : Spared c.info.base work := fun call hc =>
    Bool.eq_false_iff.mpr fun hk => (c.only_transact tx).path hwork call hc (.inl hk)
  split at hrecovery
  · rename_i hr
    exact woundUp_killed hr hspared hrecovery
  · rename_i hr
    subst hrecovery
    exact woundUp_spared (Bool.eq_false_iff.mpr hr) hspared

end Ich

/-- On any machine, a direct transaction of an Intel host ends with the freeing of the host, after
a timeout or a failed access also with one kill before that. The result is the same whatever is
answered from then on. -/
theorem transaction_wound_up {c : Ich} (h : c.info.transport = .direct) (tx : Transaction)
    (port : Port) :
    Ich.WoundUp c.info.base ((c.transfer tx).run.run port.answer []).1
      ((c.transfer tx).run.run port.answer []).2 ∧
    ∀ port' : Port,
      (∀ past request, (∀ call ∈ past, ¬ Ich.Winds c.info.base call.request) →
        ¬ Ich.Winds c.info.base request → port' past request = port past request) →
      ((c.transfer tx).run.run port'.answer []).1 = ((c.transfer tx).run.run port.answer []).1 := by
  unfold Ich.transfer
  rw [h]
  constructor
  · obtain ⟨calls, hrun, hpath, -⟩ := path_run (c.transferDirect tx).run port []
    rw [List.nil_append] at hrun
    exact hrun ▸ Ich.woundUp_of_path hpath
  · intro port' hagree
    obtain ⟨work, -, hpath, hgives⟩ := path_run (c.transact tx).run port []
    have hwork := (c.only_transact tx).path hpath
    -- The work itself never winds up, so that the ports cannot differ before it is done.
    have hgives' : port'.Gives [] work := fun before call after heq => by
      subst heq
      rw [hagree _ _ (fun other ho => hwork other (by simp_all)) (hwork call (by simp))]
      exact hgives before call after rfl
    rw [c.sameResult_transact tx _ port'.answer, c.sameResult_transact tx _ port.answer,
      hpath.run hgives']

/-- An Intel host that is busy, and whose status cannot be written. -/
def Port.jammed : Port := fun _ request =>
  match request with
  | .readPci32 .. => .ok 0xEFA1
  | .readIo8 _ => .ok Status.hostBusy
  | .writeIo8 address _ =>
    if address = 0xEFA0 then .error (.access (.reported "jammed")) else .ok ()
  | .readPci8 .. | .readPci16 .. | .readMmio32 _ => .ok 0
  | .sleep _ => ()
  | .delegate .. => .ok []
  | .writePci8 .. | .writePci16 .. | .writePci32 .. | .writeMmio8 .. | .lock _ | .unlock => .ok ()

theorem transaction_wound_up_jammed : ∃ c : Ich,
    ((Ich.init .direct .sample {}).run.run Port.jammed.answer []).1 = .ok c ∧
    ((c.transfer (.readByteData 0x50 2)).run.run Port.jammed.answer []).1 =
      .error (.access (.reported "jammed")) ∧
    Ich.WoundUp c.info.base
      ((c.transfer (.readByteData 0x50 2)).run.run Port.jammed.answer []).1
      ((c.transfer (.readByteData 0x50 2)).run.run Port.jammed.answer []).2 :=
  ⟨_, rfl, rfl, (@transaction_wound_up _ rfl (.readByteData 0x50 2) Port.jammed).1⟩

/-! ## A busy host -/

namespace Ich

variable {c : Ich} {tx : Transaction} {base : UInt16} {calls : List Call}
  {r : Except Error Payload}

/-- A write of the control register of the host at `base`. -/
def Drives (base : UInt16) (request : Request) : Prop :=
  ∃ value, request = .writeIo8 (base + control) value

theorem Killed.quiet {recovery : List Call} (h : Killed base recovery) : Quiet base recovery := by
  have hkill : hasAny Control.kill Control.start = false := by decide
  have hzero : hasAny 0 Control.start = false := by decide
  cases h <;> simp [Quiet, Call.asksStart, hkill, hzero]

theorem Killed.drives {recovery : List Call} (h : Killed base recovery) :
    ∃ call ∈ recovery, Drives base call.request := by
  cases h <;> exact ⟨_, List.mem_cons_self, _, rfl⟩

theorem not_drives_status {value : UInt8} : ¬ Drives base (.writeIo8 (base + status) value) := by
  rintro ⟨_, heq⟩
  injection heq with haddress
  exact absurd ((UInt16.add_right_inj base).mp haddress) (by decide)

theorem quiet_of_not_drives (h : ∀ call ∈ calls, ¬ Drives base call.request) :
    Quiet base calls := by
  intro call hc
  have hnot := h call hc
  generalize call.request = request at hnot ⊢
  cases request with
  | writeIo8 address value => exact asksStart_ne fun ha => hnot ⟨value, by rw [ha]⟩
  | _ => rfl

/-- The control register is written to wind up, if at all. -/
theorem drives_iff {work recovery : List Call} (answer : Except Error Unit)
    (hwork : ∀ call ∈ work, ¬ Drives base call.request)
    (hrecovery : if interrupted r then Killed base recovery else recovery = []) :
    (∃ call ∈ work ++ (recovery ++ [⟨freeing base, answer⟩]), Drives base call.request) ↔
      interrupted r = true := by
  constructor
  · rintro ⟨call, hc, hd⟩
    split at hrecovery
    · assumption
    · subst hrecovery
      obtain hc | hc := List.mem_append.mp hc
      · exact absurd hd (hwork call hc)
      · exact absurd (List.mem_singleton.mp hc ▸ hd) not_drives_status
  · intro hr
    rw [if_pos hr] at hrecovery
    obtain ⟨call, hc, hd⟩ := hrecovery.drives
    exact ⟨call, by simp [hc], hd⟩

theorem quiet_windingUp {work recovery : List Call} {answer : Except Error Unit}
    (hwork : ∀ call ∈ work, ¬ Drives base call.request)
    (hrecovery : if interrupted r then Killed base recovery else recovery = []) :
    Quiet base (work ++ (recovery ++ [⟨freeing base, answer⟩])) := by
  have hkill : Quiet base recovery := by
    split at hrecovery
    · exact hrecovery.quiet
    · exact hrecovery ▸ nofun
  refine (quiet_of_not_drives hwork).append (hkill.append (quiet_of_not_drives fun call hc => ?_))
  exact List.mem_singleton.mp hc ▸ not_drives_status

/-- The work on a busy host is to clear its flags. -/
theorem path_transact_busy {seen : UInt8} {rest : List Call} (h : (c.transact tx).Path calls r)
    (hfirst : (statuses c.info.base (calls ++ rest)).head? = some (.ok seen))
    (hbusy : hasAny seen Status.hostBusy = true) : ∃ cleared : Except Error Unit,
      calls = [⟨.readIo8 (c.info.base + status), .ok seen⟩,
        ⟨.writeIo8 (c.info.base + status) (seen &&& Status.flags), cleared⟩] ∧
      r = cleared.bind fun _ => .error (.busy seen) := by
  have hhead : ∀ {answer : Except Error UInt8} {after : List Call}, (statuses c.info.base
      (⟨.readIo8 (c.info.base + status), answer⟩ :: after)).head? = some answer := by
    simp [statuses, read_readIo8]
  -- The status read first is the one that showed the host to be busy.
  obtain ⟨e, h, -⟩ | ⟨seen', before, after, rfl, hread, h⟩ := path_bind.mp h
  · rw [path_readIo8.mp h] at hfirst
    cases hhead.symm.trans hfirst
  rw [path_readIo8.mp hread] at hfirst ⊢
  obtain rfl : seen' = seen := Except.ok.inj (Option.some.inj (hhead.symm.trans hfirst))
  rw [if_pos hbusy] at h
  obtain ⟨e, hwrite, rfl⟩ | ⟨_, before, after, rfl, hwrite, hthrow⟩ := path_bind.mp h
  · exact ⟨.error e, by rw [path_writeIo8.mp hwrite]; rfl, rfl⟩
  · obtain ⟨rfl, rfl⟩ := path_throw.mp hthrow
    exact ⟨.ok (), by rw [path_writeIo8.mp hwrite]; rfl, rfl⟩

end Ich

/-- A transaction on a host that is busy with something else starts nothing and clears the flags of
that once. If this is granted, the control register is left alone and the host is reported as busy,
whatever the last access is answered. If it fails, that is the result, and after a timeout or a
failed access the control register is written to kill what the host is doing. -/
theorem busy_host_spared_once_cleared {c : Ich} (h : c.info.transport = .direct)
    {tx : Transaction} {port : Port} {seen : UInt8}
    (hfirst : (statuses c.info.base ((c.transfer tx).run.run port.answer []).2).head? =
      some (.ok seen))
    (hbusy : hasAny seen Status.hostBusy = true) :
    Quiet c.info.base ((c.transfer tx).run.run port.answer []).2 ∧
    ∃ (cleared : Except Error Unit) (rest : List Call),
      ((c.transfer tx).run.run port.answer []).2 =
        ⟨.readIo8 (c.info.base + status), .ok seen⟩ ::
          ⟨.writeIo8 (c.info.base + status) (seen &&& Status.flags), cleared⟩ :: rest ∧
      (cleared = .ok () →
        ((c.transfer tx).run.run port.answer []).1 = .error (.busy seen) ∧
        ∀ call ∈ ((c.transfer tx).run.run port.answer []).2,
          ¬ Ich.Drives c.info.base call.request) ∧
      ∀ e, cleared = .error e → ((c.transfer tx).run.run port.answer []).1 = .error e ∧
        ((∃ call ∈ ((c.transfer tx).run.run port.answer []).2,
            Ich.Drives c.info.base call.request) ↔
          (∃ retries quantumUs, e = .timeout retries quantumUs) ∨ ∃ cause, e = .access cause) := by
  unfold Ich.transfer at hfirst ⊢
  rw [h] at hfirst ⊢
  obtain ⟨calls, hrun, hpath, -⟩ := path_run (c.transferDirect tx).run port []
  rw [List.nil_append] at hrun
  simp only [hrun] at hfirst ⊢
  generalize ((c.transferDirect tx).run.run port.answer []).1 = r at hpath ⊢
  obtain ⟨work, recovery, freed, rfl, hwork, hrecovery⟩ := Ich.path_transferDirect hpath
  obtain ⟨cleared, rfl, rfl⟩ := Ich.path_transact_busy hwork hfirst hbusy
  have hwork : ∀ call ∈ [⟨.readIo8 (c.info.base + status), .ok seen⟩,
      (⟨.writeIo8 (c.info.base + status) (seen &&& Status.flags), cleared⟩ : Call)],
      ¬ Ich.Drives c.info.base call.request :=
    List.forall_mem_cons.mpr ⟨nofun, List.forall_mem_cons.mpr ⟨Ich.not_drives_status, nofun⟩⟩
  have hdrives := Ich.drives_iff freed hwork hrecovery
  refine ⟨Ich.quiet_windingUp hwork hrecovery, cleared, _, rfl, ?_, ?_⟩
  · rintro rfl
    refine ⟨rfl, fun call hc hd => ?_⟩
    exact absurd (hdrives.mp ⟨call, hc, hd⟩) Bool.false_ne_true
  · rintro e rfl
    refine ⟨rfl, hdrives.trans ?_⟩
    rw [Ich.interrupted_iff]
    simp [Except.bind]

theorem busy_host_spared_once_cleared_jammed : ∃ c : Ich,
    ((Ich.init .direct .sample {}).run.run Port.jammed.answer []).1 = .ok c ∧
    (statuses c.info.base
      ((c.transfer (.readByteData 0x50 2)).run.run Port.jammed.answer []).2).head? =
        some (.ok Status.hostBusy) ∧
    Quiet c.info.base ((c.transfer (.readByteData 0x50 2)).run.run Port.jammed.answer []).2 :=
  ⟨_, rfl, rfl, (@busy_host_spared_once_cleared _ rfl (.readByteData 0x50 2) Port.jammed
    Status.hostBusy rfl rfl).1⟩

/-- A host that was seen to be busy is killed when its flags cannot be cleared, and is not reported
as busy. -/
theorem busy_host_killed_jammed : ∃ c : Ich,
    ((Ich.init .direct .sample {}).run.run Port.jammed.answer []).1 = .ok c ∧
    (statuses c.info.base
      ((c.transfer (.readByteData 0x50 2)).run.run Port.jammed.answer []).2).head? =
        some (.ok Status.hostBusy) ∧
    ((c.transfer (.readByteData 0x50 2)).run.run Port.jammed.answer []).1 =
      .error (.access (.reported "jammed")) ∧
    ∃ call ∈ ((c.transfer (.readByteData 0x50 2)).run.run Port.jammed.answer []).2,
      call.request = .writeIo8 (c.info.base + control) Control.kill :=
  ⟨_, rfl, rfl, rfl, _, List.mem_of_getElem? (i := 2) rfl, rfl⟩

end DimmBus
