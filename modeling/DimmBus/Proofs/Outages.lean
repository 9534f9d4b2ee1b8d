import DimmBus.Platform.Answer
import DimmBus.Proofs.Paths
import DimmBus.Tap

/-!
# Accesses that fail on the way

A simulated machine behind accesses of which any may fail: a request that fails does not reach the
machine. What the machine comes to is told by the calls alone.
-/

namespace DimmBus

/-- Which requests fail, and why, in the light of all earlier calls. -/
abbrev Outages := (past : List Call) → Request → Option AccessFault

/-- A machine, and the calls so far, failed ones included. -/
structure Flaky where
  platform : Platform
  past : List Call := []

namespace Flaky

/-- The answer to a request that fails; a pause cannot. -/
def failure? (outages : Outages) (m : Flaky) (request : Request) : Option request.Answer :=
  (outages m.past request).bind fun cause => Tap.failed? (.access cause) request

/-- Answers a request, or lets it fail. -/
def answer (outages : Outages) (request : Request) (m : Flaky) : request.Answer × Flaky :=
  match m.failure? outages request with
  | some answer => (answer, ⟨m.platform, m.past ++ [⟨request, answer⟩]⟩)
  | none =>
    let (answer, platform) := m.platform.answer request
    (answer, ⟨platform, m.past ++ [⟨request, answer⟩]⟩)

end Flaky

namespace Platform

/-- Through these calls, of which any may have failed, one machine becomes the other. -/
inductive Evolves : Platform → List Call → Platform → Prop
  | nil (p : Platform) : Evolves p [] p
  | failed {p p' : Platform} {request : Request} {cause : AccessFault} {answer : request.Answer}
      {calls : List Call} (hanswer : Tap.failed? (.access cause) request = some answer)
      (h : Evolves p calls p') : Evolves p (⟨request, answer⟩ :: calls) p'
  | granted {p p' : Platform} {request : Request} {calls : List Call}
      (h : Evolves (p.answer request).2 calls p') :
      Evolves p (⟨request, (p.answer request).1⟩ :: calls) p'

variable {p p' : Platform} {before after : List Call}

theorem Evolves.split (h : p.Evolves (before ++ after) p') :
    ∃ q, p.Evolves before q ∧ q.Evolves after p' := by
  induction before generalizing p with
  | nil => exact ⟨p, .nil p, h⟩
  | cons call before ih =>
      rw [List.cons_append] at h
      cases h with
      | failed hanswer h =>
          obtain ⟨q, hq, hrest⟩ := ih h
          exact ⟨q, .failed hanswer hq, hrest⟩
      | granted h =>
          obtain ⟨q, hq, hrest⟩ := ih h
          exact ⟨q, .granted hq, hrest⟩

/-- A single request fails, or is answered by the machine. -/
theorem Evolves.single {request : Request} {answer : request.Answer}
    (h : p.Evolves [⟨request, answer⟩] p') :
    (∃ cause, Tap.failed? (.access cause) request = some answer) ∧ p' = p ∨
      answer = (p.answer request).1 ∧ p' = (p.answer request).2 := by
  cases h with
  | failed hanswer h =>
      cases h
      exact .inl ⟨⟨_, hanswer⟩, rfl⟩
  | granted h =>
      cases h
      exact .inr ⟨rfl, rfl⟩

theorem Evolves.read {address : UInt16} {answer : Except Error UInt8}
    (h : p.Evolves [⟨.readIo8 address, answer⟩] p') : (∃ e, answer = .error e) ∧ p' = p ∨
      answer = (p.answer (.readIo8 address)).1 ∧ p' = (p.answer (.readIo8 address)).2 := by
  obtain ⟨⟨_, ⟨⟩⟩, hp⟩ | h := h.single
  · exact .inl ⟨⟨_, rfl⟩, hp⟩
  · exact .inr h

theorem Evolves.write {address : UInt16} {value : UInt8} {answer : Except Error Unit}
    (h : p.Evolves [⟨.writeIo8 address value, answer⟩] p') : (∃ e, answer = .error e) ∧ p' = p ∨
      answer = .ok () ∧ p' = (p.answer (.writeIo8 address value)).2 := by
  obtain ⟨⟨_, ⟨⟩⟩, hp⟩ | h := h.single
  · exact .inl ⟨⟨_, rfl⟩, hp⟩
  · exact .inr h

/-- The machine in the midst of what is done in two parts: the first fails, or what it comes to goes
on from there. -/
theorem Evolves.path_bind {α β : Type} {x : Attempt α} {y : α → Attempt β} {calls : List Call}
    {r : Except Error β} (he : p.Evolves calls p') (h : (x >>= y).Path calls r) :
    (∃ e, x.Path calls (.error e) ∧ r = .error e) ∨
    ∃ a before after q, calls = before ++ after ∧ x.Path before (.ok a) ∧ p.Evolves before q ∧
      (y a).Path after r ∧ q.Evolves after p' := by
  obtain hfails | ⟨a, before, after, rfl, hx, hy⟩ := Attempt.path_bind.mp h
  · exact .inl hfails
  · obtain ⟨q, hbefore, hafter⟩ := he.split
    exact .inr ⟨a, before, after, q, rfl, hx, hbefore, hy, hafter⟩

/-- What a granted request of a kind keeps, calls of this kind keep. -/
theorem Evolves.keeps {ok : Request → Prop} {P : Platform → Prop} {calls : List Call}
    (h : p.Evolves calls p') (hok : ∀ call ∈ calls, ok call.request)
    (hstep : ∀ p request, ok request → P p → P (p.answer request).2) (hp : P p) : P p' := by
  induction h with
  | nil => exact hp
  | failed _ _ ih => exact ih (fun call hc => hok call (List.mem_cons_of_mem _ hc)) hp
  | granted _ ih =>
      exact ih (fun call hc => hok call (List.mem_cons_of_mem _ hc))
        (hstep _ _ (hok _ List.mem_cons_self) hp)

end Platform

/-- One answer is one call, whichever way it goes. -/
theorem Flaky.answer_call (outages : Outages) (request : Request) (m : Flaky) :
    ∃ (answer : request.Answer) (p : Platform),
      m.answer outages request = (answer, ⟨p, m.past ++ [⟨request, answer⟩]⟩) ∧
      ∀ {calls : List Call} {p' : Platform}, p.Evolves calls p' →
        m.platform.Evolves (⟨request, answer⟩ :: calls) p' := by
  unfold Flaky.answer
  split
  · rename_i answer h
    obtain ⟨cause, -, hanswer⟩ := Option.bind_eq_some_iff.mp h
    exact ⟨answer, m.platform, rfl, fun h => .failed hanswer h⟩
  · exact ⟨_, _, rfl, fun h => .granted h⟩

/-- A run follows a path, and the machine evolves along it. -/
theorem Access.path_flaky {α : Type} (x : Access α) (outages : Outages) (m : Flaky) :
    ∃ calls, (x.run (Flaky.answer outages) m).2.past = m.past ++ calls ∧
      x.Path calls (x.run (Flaky.answer outages) m).1 ∧
      m.platform.Evolves calls (x.run (Flaky.answer outages) m).2.platform := by
  induction x generalizing m with
  | done value => exact ⟨[], (List.append_nil _).symm, .done value, .nil _⟩
  | call request next ih =>
      obtain ⟨answer, p, hanswer, hevolves⟩ := m.answer_call outages request
      have hrun : (Access.call request next).run (Flaky.answer outages) m =
          (next answer).run (Flaky.answer outages) ⟨p, m.past ++ [⟨request, answer⟩]⟩ := by
        change (next (m.answer outages request).1).run (Flaky.answer outages)
          (m.answer outages request).2 = _
        rw [hanswer]
      obtain ⟨calls, hpast, hpath, h⟩ := ih answer ⟨p, m.past ++ [⟨request, answer⟩]⟩
      rw [hrun]
      exact ⟨⟨request, answer⟩ :: calls, hpast.trans (List.append_assoc ..), .call hpath,
        hevolves h⟩

end DimmBus
