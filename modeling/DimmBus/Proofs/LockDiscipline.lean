import DimmBus.Monitor
import DimmBus.Proofs.Tenets

/-!
# The lock is held in sections

On any machine, an operation takes the bus lock, works under it and gives it back, or is refused the
lock and leaves the machine alone, as often as it likes. It never takes the lock twice, never keeps
it, and never works without it.
-/

namespace DimmBus

open Session

/-! ## Sections -/

/-- Calls in sections: a refused attempt at the lock alone, or a successful one, then calls that
neither take nor give back the lock, then one that gives it back. -/
inductive Sections : List Call → Prop
  | nil : Sections []
  | refused {timeoutUs : Nat} {e : Error} {rest : List Call} (h : Sections rest) :
      Sections (⟨.lock timeoutUs, .error e⟩ :: rest)
  | held {timeoutUs : Nat} {inner rest : List Call} {answer : Except Error Unit}
      (hi : ∀ call ∈ inner, call.request.Plain) (h : Sections rest) :
      Sections (⟨.lock timeoutUs, .ok ()⟩ :: (inner ++ ⟨.unlock, answer⟩ :: rest))

namespace Access

variable {α β : Type}

/-- How the giving back of the lock goes makes no difference. -/
def IgnoresRelease : Access α → Prop
  | .done _ => True
  | .call request next => (request = .unlock → ∀ answer answer', next answer = next answer') ∧
      ∀ answer, (next answer).IgnoresRelease

/-- On every port the calls come in sections, and how each section ends makes no difference. -/
def Disciplined (x : Access α) : Prop :=
  (∀ port : Port, Sections (x.run port.answer []).2) ∧ x.IgnoresRelease

theorem IgnoresRelease.bind_plain {x : Access α} {f : α → Access β} (hx : x.Only Request.Plain)
    (hf : ∀ a, (f a).IgnoresRelease) : (x.bind f).IgnoresRelease := by
  induction x with
  | done value => exact hf value
  | call request next ih =>
      refine ⟨fun h => ?_, fun answer => ih answer (hx.2 answer)⟩
      subst h
      exact hx.1.elim

end Access

namespace Script

variable {α : Type} {held : Bool}

/-- What is left of the sections while the lock is free or held. -/
def Left : Bool → List Call → Prop
  | false, calls => Sections calls
  | true, calls => ∃ inner answer rest, calls = inner ++ ⟨.unlock, answer⟩ :: rest ∧
      (∀ call ∈ inner, call.request.Plain) ∧ Sections rest

theorem left_perform (c : Controller) (script : Script α false held) (port : Port)
    (past : List Call) : ∃ calls, ((script.perform c).run port.answer past).2 = past ++ calls ∧
      Left held calls := by
  -- While the lock is held, what is left begins in the middle of a section.
  induction script generalizing past with
  | done value => exact ⟨[], (List.append_nil past).symm, .nil⟩
  | lock timeoutUs refused granted ihr ihg =>
      let call (answer : Except Error Unit) : Call := ⟨.lock timeoutUs, answer⟩
      simp only [perform, Access.run, Port.answer]
      cases port past (.lock timeoutUs) with
      | ok u =>
          obtain ⟨calls, hrun, inner, answer, rest, rfl, hi, hr⟩ := ihg (past ++ [call (.ok u)])
          exact ⟨_, hrun.trans (List.append_assoc ..), .held hi hr⟩
      | error e =>
          obtain ⟨calls, hrun, hs⟩ := ihr e (past ++ [call (.error e)])
          exact ⟨_, hrun.trans (List.append_assoc ..), .refused hs⟩
  | unlock next ih =>
      obtain ⟨calls, hrun, hs⟩ := ih (past ++ [⟨.unlock, port past .unlock⟩])
      exact ⟨_, hrun.trans (List.append_assoc ..), [], _, calls, rfl, List.forall_mem_nil _, hs⟩
  | hand tx next ih =>
      obtain ⟨chunk, hchunk, hplain⟩ := Access.Only.calls (c.only_transfer tx) port past
      obtain ⟨calls, hcalls, inner, answer, rest, rfl, hi, hr⟩ :=
        ih ((c.transfer tx).run.run port.answer past).1 (past ++ chunk)
      refine ⟨(chunk ++ inner) ++ ⟨.unlock, answer⟩ :: rest, ?_, chunk ++ inner, answer, rest, rfl,
        fun call hc => ?_, hr⟩
      · have hrun := @Access.run_bind _ _ _ port.answer (c.transfer tx).run
          (fun answer => (next answer).perform c) past
        rw [hchunk] at hrun
        exact (congrArg Prod.snd hrun).trans (hcalls.trans (by simp))
      · obtain hc | hc := List.mem_append.mp hc
        · exact hplain call hc
        · exact hi call hc

theorem ignoresRelease_perform (c : Controller) {last : Bool} (script : Script α last held) :
    (script.perform c).IgnoresRelease := by
  induction script with
  | done value => trivial
  | lock timeoutUs refused granted ihr ihg =>
      simp only [perform]
      refine ⟨fun h => (by cases h), fun answer => ?_⟩
      cases answer with
      | ok _ => exact ihg
      | error e => exact ihr e
  | unlock next ih =>
      simp only [perform]
      exact ⟨fun _ _ _ => rfl, fun _ => ih⟩
  | hand tx next ih =>
      simp only [perform]
      exact Access.IgnoresRelease.bind_plain (c.only_transfer tx) ih

theorem disciplined_perform (c : Controller) (script : Script α false false) :
    (script.perform c).Disciplined := by
  refine ⟨fun port => ?_, ignoresRelease_perform c script⟩
  obtain ⟨calls, hrun, hs⟩ := left_perform c script port []
  rw [hrun]
  exact hs

end Script

/-! ## Operations -/

section

variable {α β : Type} {link : Link}

/-- Work that is a script is disciplined, whatever is made of its result. -/
theorem disciplined_of_scripted {c : Controller} {pre : Stage} {post : α → Stage} {x : Step α}
    (hx : Scripted c anything false false pre x post) (m : Memory) (f : α × Memory → β) :
    (x.run m >>= fun r => pure (f r)).Disciplined := by
  obtain ⟨script, hperform, -⟩ := hx m
  have h := (script.bind fun r => Script.done (f r)).disciplined_perform c
  rw [Script.perform_bind, hperform] at h
  exact h

/-- Nothing is known of the memory. -/
abbrev blank : Tenet .empty := .vouched .empty

theorem blank_lasts : blank.Lasts := Tenet.vouched_lasts _

theorem scripted_inspect (slot : UInt8) : Scripted link.controller anything false false blank.holds
    (Monitor.inspect link slot) fun _ => blank.holds := by
  unfold Monitor.inspect
  refine (Tenet.scripted_probe blank_lasts fun _ _ _ _ => trivial).bind fun g? => ?_
  split
  · exact .pure fun _ _ h => h.1
  · refine ((Tenet.keeps_thermalAvailable blank_lasts fun _ _ _ _ => trivial).mono
      (fun _ _ h => h.1) fun _ _ _ h => h).bind fun _ => ?_
    exact Scripted.get.bind fun _ => .pure fun _ _ h => h.2

theorem scripted_inspectAll (slots : List UInt8) : Scripted link.controller anything false false
    blank.holds (Monitor.inspectAll link slots) fun _ => blank.holds := by
  induction slots with
  | nil => exact .pure fun _ _ h => h
  | cons slot rest ih =>
      exact (scripted_inspect slot).bind fun _ => ih.bind fun _ => .pure fun _ _ h => h

theorem scripted_pollAll (slots : List MonitoredSlot) : Scripted link.controller anything false
    false blank.holds (Monitor.pollAll link slots) fun _ => blank.holds := by
  have hslot : ∀ s, Scripted link.controller anything false false blank.holds
      (Monitor.pollSlot link s) fun _ => blank.holds := fun s => by
    unfold Monitor.pollSlot
    split
    · exact .pure fun _ _ h => h
    · refine (Planned.run (Tenet.keeps_readTemperature blank_lasts
        fun _ _ _ _ => trivial)).bind fun r => ?_
      refine (Scripted.get.mono (fun _ _ h => ?_) fun _ _ _ h => h.2).bind fun _ =>
        .pure fun _ _ h => h
      cases r <;> exact h
  induction slots with
  | nil => exact .pure fun _ _ h => h
  | cons s rest ih => exact (hslot s).bind fun _ => ih.bind fun _ => .pure fun _ _ h => h

end

/-- Every operation of a session or a monitor, in whatever state it finds it and whatever the
machine answers, is disciplined about the lock. -/
theorem locks_in_sections (s : Session) (m : Monitor) (tx : Transaction) (slot : UInt8)
    (address : UInt16) (mode : DumpMode) :
    (s.run fun link => transfer link tx).Disciplined ∧
    (s.perform fun link => probe link slot).Disciplined ∧
    (s.run fun link => readSpd link slot address).Disciplined ∧
    (s.run fun link => dump link slot mode).Disciplined ∧
    (s.perform fun link => thermalAvailable link slot).Disciplined ∧
    (s.run fun link => readTemperature link slot).Disciplined ∧
    (Monitor.ofSession s).Disciplined ∧ m.rescan.Disciplined ∧ m.poll.Disciplined := by
  have hmay : ∀ (slot : UInt8), slot.toNat < Spd.slotCount → ∀ past tx,
      Asked .empty slot past tx → anything past tx := fun _ _ _ _ _ => trivial
  have hl := blank_lasts
  have hnew : ∀ s, (Monitor.ofSession s).Disciplined := fun s => by
    unfold Monitor.ofSession Session.perform
    rw [bind_assoc]
    exact disciplined_of_scripted (scripted_inspectAll _) s.memory _
  refine ⟨?_, ?_, ?_, ?_, ?_, ?_, hnew s, hnew _, ?_⟩
  · exact disciplined_of_scripted (Planned.run (Tenet.keeps_transfer hl fun _ => trivial)) _ _
  · exact disciplined_of_scripted (Tenet.scripted_probe hl (hmay slot)) _ _
  · exact disciplined_of_scripted (Planned.run (Tenet.keeps_readSpd hl (hmay slot) address)) _ _
  · exact disciplined_of_scripted (Planned.run (Tenet.keeps_dump hl (hmay slot) mode)) _ _
  · exact disciplined_of_scripted (Tenet.keeps_thermalAvailable hl (hmay slot)) _ _
  · exact disciplined_of_scripted (Planned.run (Tenet.keeps_readTemperature hl (hmay slot))) _ _
  · unfold Monitor.poll Session.perform
    rw [bind_assoc]
    exact disciplined_of_scripted (scripted_pollAll _) m.session.memory _

end DimmBus
