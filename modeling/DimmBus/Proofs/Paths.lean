import DimmBus.Proofs.Ports

/-!
# Paths through programs

The calls that a program makes and what it comes to by them, whoever answers. A path through a
program that is put together is put together from paths through the parts.
-/

namespace DimmBus

variable {α β : Type} {ok : Request → Prop} {calls past : List Call}

namespace Port

/-- The port gives the answers of these calls, when it is asked in their order. -/
def Gives (port : Port) (past calls : List Call) : Prop :=
  ∀ before call after, calls = before ++ call :: after →
    port (past ++ before) call.request = call.answer

variable {port : Port} {call : Call} {more : List Call}

theorem gives_nil : port.Gives past [] := fun before _ _ heq => by cases before <;> cases heq

theorem gives_cons : port.Gives past (call :: calls) ↔
    port past call.request = call.answer ∧ port.Gives (past ++ [call]) calls := by
  constructor
  · intro h
    refine ⟨by simpa using h [] call calls rfl, fun before c after heq => ?_⟩
    simpa using h (call :: before) c after (by rw [heq]; rfl)
  · rintro ⟨hcall, hcalls⟩ (_ | ⟨b, before⟩) c after heq
    · obtain ⟨rfl, rfl⟩ := List.cons.inj heq
      rwa [List.append_nil]
    · obtain ⟨rfl, htail⟩ := List.cons.inj heq
      simpa using hcalls before c after htail

theorem Gives.left (h : port.Gives past (calls ++ more)) : port.Gives past calls :=
  fun before call after heq => h before call (after ++ more) (by rw [heq]; simp)

end Port

namespace Access

/-- Answered as in these calls, the program makes no others and comes to the value. -/
inductive Path : Access α → List Call → α → Prop
  | done (value : α) : Path (.done value) [] value
  | call {request : Request} {next : request.Answer → Access α} {answer : request.Answer}
      {calls : List Call} {a : α} (h : Path (next answer) calls a) :
      Path (.call request next) (⟨request, answer⟩ :: calls) a

variable {x : Access α} {f : α → Access β} {a : α} {b : β}

theorem path_done {value : α} : (Access.done value).Path calls a ↔ calls = [] ∧ a = value := by
  constructor
  · rintro ⟨⟩
    exact ⟨rfl, rfl⟩
  · rintro ⟨rfl, rfl⟩
    exact .done a

protected theorem path_bind : (x >>= f).Path calls b ↔ ∃ a before after, calls = before ++ after ∧
    x.Path before a ∧ (f a).Path after b := by
  induction x generalizing calls with
  | done value =>
      constructor
      · exact fun h => ⟨value, [], calls, rfl, .done value, h⟩
      · rintro ⟨_, _, _, rfl, ⟨⟩, h⟩
        exact h
  | call request next ih =>
      constructor
      · rintro (_ | h)
        obtain ⟨a, before, after, rfl, hx, hf⟩ := (ih _).mp h
        exact ⟨a, _, after, rfl, .call hx, hf⟩
      · rintro ⟨a, _, after, rfl, _ | hx, hf⟩
        exact .call ((ih _).mpr ⟨a, _, after, rfl, hx, hf⟩)

theorem Only.path (hx : x.Only ok) (h : x.Path calls a) : ∀ call ∈ calls, ok call.request := by
  induction h with
  | done value => exact fun _ hc => by cases hc
  | call h ih =>
      intro call hc
      obtain rfl | hc := List.mem_cons.mp hc
      · exact hx.1
      · exact ih (hx.2 _) call hc

/-- A run follows a path, along the answers that the port gives. -/
theorem path_run (x : Access α) (port : Port) (past : List Call) :
    ∃ calls, (x.run port.answer past).2 = past ++ calls ∧
      x.Path calls (x.run port.answer past).1 ∧ port.Gives past calls := by
  induction x generalizing past with
  | done value =>
      exact ⟨[], (List.append_nil past).symm, .done value, Port.gives_nil⟩
  | call request next ih =>
      let call : Call := ⟨request, port past request⟩
      obtain ⟨calls, hrun, hpath, hgives⟩ := ih call.answer (past ++ [call])
      exact ⟨call :: calls, hrun.trans (List.append_assoc ..), .call hpath,
        Port.gives_cons.mpr ⟨rfl, hgives⟩⟩

/-- A port that gives the answers along a path makes the program run along it. -/
theorem Path.run (h : x.Path calls a) {port : Port} (hgives : port.Gives past calls) :
    x.run port.answer past = (a, past ++ calls) := by
  induction h generalizing past with
  | done value => rw [List.append_nil]; rfl
  | @call request next answer calls a h ih =>
      obtain ⟨hanswer, hgives⟩ := Port.gives_cons.mp hgives
      change (next (port past request)).run port.answer (past ++ [⟨request, port past request⟩]) = _
      rw [show port past request = answer from hanswer, ih hgives, List.append_assoc]
      rfl

end Access

namespace Attempt

/-- The same for programs that can fail. -/
def Path (x : Attempt α) (calls : List Call) (r : Except Error α) : Prop := x.run.Path calls r

variable {x : Attempt α} {f : α → Attempt β} {r : Except Error β}

theorem Only.path {r : Except Error α} (hx : x.Only ok) (h : x.Path calls r) :
    ∀ call ∈ calls, ok call.request := Access.Only.path hx h

@[simp]
theorem path_pure {b : β} : Path (pure b) calls r ↔ calls = [] ∧ r = .ok b := Access.path_done

@[simp]
theorem path_throw {e : Error} :
    Path (throw e : Attempt β) calls r ↔ calls = [] ∧ r = .error e := Access.path_done

@[simp]
theorem path_ofExcept {r' : Except Error β} :
    (ofExcept r').Path calls r ↔ calls = [] ∧ r = r' := Access.path_done

/-- The first part fails, or the second part goes on with its result. -/
theorem path_bind : (x >>= f).Path calls r ↔ (∃ e, x.Path calls (.error e) ∧ r = .error e) ∨
    ∃ a before after, calls = before ++ after ∧ x.Path before (.ok a) ∧ (f a).Path after r := by
  unfold Path
  rw [ExceptT.run_bind, Access.path_bind]
  constructor
  · rintro ⟨e | a, before, after, rfl, hx, hf⟩
    · obtain ⟨rfl, rfl⟩ := Access.path_done.mp hf
      exact .inl ⟨e, by rwa [List.append_nil], rfl⟩
    · exact .inr ⟨a, before, after, rfl, hx, hf⟩
  · rintro (⟨e, hx, rfl⟩ | ⟨a, before, after, rfl, hx, hf⟩)
    · exact ⟨.error e, calls, [], (List.append_nil calls).symm, hx, .done _⟩
    · exact ⟨.ok a, before, after, rfl, hx, hf⟩

/-- What cannot fail is always followed by the second part. -/
theorem path_lift_bind {x : Access α} : (ExceptT.lift x >>= f).Path calls r ↔
    ∃ a before after, calls = before ++ after ∧ x.Path before a ∧ (f a).Path after r := by
  change (ExceptT.lift x >>= f).run.Path calls r ↔ _
  rw [ExceptT.run_bind, ExceptT.run_lift, bind_map_left, Access.path_bind]
  rfl

theorem path_outcome_bind {f : Except Error α → Attempt β} : (x.outcome >>= f).Path calls r ↔
    ∃ r' before after, calls = before ++ after ∧ x.Path before r' ∧ (f r').Path after r :=
  path_lift_bind

theorem path_quietly {done : Unit} : x.quietly.Path calls done ↔ ∃ r, x.Path calls r := by
  unfold quietly
  rw [Access.path_bind]
  constructor
  · rintro ⟨r, before, after, rfl, hx, hdone⟩
    obtain ⟨rfl, -⟩ := Access.path_done.mp hdone
    exact ⟨r, by rwa [List.append_nil]⟩
  · rintro ⟨r, hx⟩
    exact ⟨r, calls, [], (List.append_nil calls).symm, hx, .done ()⟩

/-! ### Programs that come to the same -/

/-- On every machine, two programs come to the same result, though not by the same calls. -/
def SameResult (x y : Attempt α) : Prop :=
  ∀ (σ : Type) (step : (request : Request) → σ → request.Answer × σ) (s : σ),
    (x.run.run step s).1 = (y.run.run step s).1

namespace SameResult

variable {x : Attempt α} {f g : α → Attempt β} {y z : Attempt β}

theorem refl : y.SameResult y := fun _ _ _ => rfl

theorem trans {w : Attempt β} (h : w.SameResult y) (h' : y.SameResult z) : w.SameResult z :=
  fun σ step s => (h σ step s).trans (h' σ step s)

theorem bind (h : ∀ a, (f a).SameResult (g a)) : (x >>= f).SameResult (x >>= g) := by
  intro σ step s
  rw [ExceptT.run_bind, ExceptT.run_bind, Access.run_bind, Access.run_bind]
  rcases x.run.run step s with ⟨e | a, s'⟩
  · rfl
  · exact h a σ step s'

/-- What cannot fail has no say in a result that is already known. -/
theorem lift_bind {x : Access α} {r : Except Error β} (h : ∀ a, (f a).SameResult (ofExcept r)) :
    SameResult (ExceptT.lift x >>= f) (ofExcept r) := by
  intro σ step s
  rw [ExceptT.run_bind, ExceptT.run_lift, Access.run_bind, Access.run_map]
  exact h _ σ step _

/-- Nor has what comes after a program whose outcome is kept. -/
theorem outcome_bind {f : Except Error α → Attempt α} (h : ∀ r, (f r).SameResult (ofExcept r)) :
    (x.outcome >>= f).SameResult x := by
  intro σ step s
  rw [ExceptT.run_bind, Access.run_bind, outcome, ExceptT.run_lift, Access.run_map]
  exact h _ σ step _

end SameResult

end Attempt

namespace Access

open Attempt

/-- A request that is answered with the result. -/
theorem path_call {request : Request} {answer : request.Answer} :
    (Access.call request .done).Path calls answer ↔ calls = [⟨request, answer⟩] := by
  constructor
  · rintro (_ | ⟨⟨⟩⟩)
    rfl
  · rintro rfl
    exact .call (.done answer)

variable {address : UInt16} {value : UInt8} {physical : UInt64}

@[simp]
theorem path_readIo8 {r : Except Error UInt8} :
    (readIo8 address).Path calls r ↔ calls = [⟨.readIo8 address, r⟩] :=
  @path_call _ (.readIo8 address) r

@[simp]
theorem path_writeIo8 {r : Except Error Unit} :
    (writeIo8 address value).Path calls r ↔ calls = [⟨.writeIo8 address value, r⟩] :=
  @path_call _ (.writeIo8 address value) r

@[simp]
theorem path_readMmio32 {r : Except Error UInt32} :
    (readMmio32 physical).Path calls r ↔ calls = [⟨.readMmio32 physical, r⟩] :=
  @path_call _ (.readMmio32 physical) r

@[simp]
theorem path_writeMmio8 {r : Except Error Unit} :
    (writeMmio8 physical value).Path calls r ↔ calls = [⟨.writeMmio8 physical value, r⟩] :=
  @path_call _ (.writeMmio8 physical value) r

theorem path_sleep {us : UInt32} {r : Except Error Unit} :
    (sleep us).Path calls r ↔ calls = [⟨.sleep us, ()⟩] ∧ r = .ok () := by
  constructor
  · rintro (_ | ⟨⟨⟩⟩)
    exact ⟨rfl, rfl⟩
  · rintro ⟨rfl, rfl⟩
    exact .call (.done _)

end Access

end DimmBus
