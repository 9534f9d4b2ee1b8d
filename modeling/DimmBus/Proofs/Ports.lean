import DimmBus.Proofs.Running

/-!
# Ports of every kind

A machine of which nothing is known: each request may be answered in any way, in the light of all
that was asked before. The state of such a machine is the list of the calls so far. What a program
can ask for at all is read off its tree.
-/

namespace DimmBus

/-- A request and the answer to it. -/
structure Call where
  request : Request
  answer : request.Answer

/-- Any way to answer requests, in the light of all earlier calls. -/
abbrev Port := (past : List Call) → (request : Request) → request.Answer

/-- The calls that are made on a port. -/
def Port.answer (port : Port) (request : Request) (past : List Call) :
    request.Answer × List Call :=
  (port past request, past ++ [⟨request, port past request⟩])

variable {α β : Type} {ok ok' : Request → Prop}

namespace Access

/-- Every request of the program is of a kind, whatever the answers. -/
def Only (ok : Request → Prop) : Access α → Prop
  | .done _ => True
  | .call request next => ok request ∧ ∀ answer, (next answer).Only ok

theorem Only.mono {x : Access α} (hx : x.Only ok) (h : ∀ request, ok request → ok' request) :
    x.Only ok' := by
  induction x with
  | done => trivial
  | call request next ih => exact ⟨h request hx.1, fun answer => ih answer (hx.2 answer)⟩

theorem only_true (x : Access α) : x.Only fun _ => True := by
  induction x with
  | done => trivial
  | call request next ih => exact ⟨trivial, ih⟩

theorem Only.bind {x : Access α} {f : α → Access β} (hx : x.Only ok) (hf : ∀ a, (f a).Only ok) :
    (x >>= f).Only ok := by
  induction x with
  | done value => exact hf value
  | call request next ih => exact ⟨hx.1, fun answer => ih answer (hx.2 answer)⟩

/-- Every value that the program can come to, whatever the answers. -/
def Yields (P : α → Prop) : Access α → Prop
  | .done value => P value
  | .call _ next => ∀ answer, (next answer).Yields P

theorem Yields.bind {P : β → Prop} {Q : α → Prop} {x : Access α} {f : α → Access β}
    (hx : x.Yields Q) (hf : ∀ a, Q a → (f a).Yields P) : (x >>= f).Yields P := by
  induction x with
  | done value => exact hf value hx
  | call request next ih => exact fun answer => ih answer (hx answer)

theorem Yields.always {P : α → Prop} (h : ∀ a, P a) (x : Access α) : x.Yields P := by
  induction x with
  | done value => exact h value
  | call request next ih => exact ih

theorem Yields.mono {P Q : α → Prop} {x : Access α} (hx : x.Yields P) (h : ∀ a, P a → Q a) :
    x.Yields Q := by
  induction x with
  | done value => exact h value hx
  | call request next ih => exact fun answer => ih answer (hx answer)

/-- What is done with values that never come up makes no difference. -/
theorem Yields.bind_congr {P : α → Prop} {x : Access α} {f g : α → Access β} (hx : x.Yields P)
    (h : ∀ a, P a → f a = g a) : x >>= f = x >>= g := by
  induction x with
  | done value => exact h value hx
  | call request next ih =>
      exact congrArg (Access.call request) (funext fun answer => ih answer (hx answer))

theorem Yields.run {P : α → Prop} {x : Access α} (hx : x.Yields P) {σ : Type}
    (step : (request : Request) → σ → request.Answer × σ) (s : σ) : P (x.run step s).1 := by
  induction x generalizing s with
  | done value => exact hx
  | call request next ih => exact ih _ (hx _) _

/-- The calls of a run are added to those before it. -/
theorem Only.calls {x : Access α} (hx : x.Only ok) (port : Port) (past : List Call) :
    ∃ calls, (x.run port.answer past).2 = past ++ calls ∧ ∀ call ∈ calls, ok call.request := by
  induction x generalizing past with
  | done value => exact ⟨[], (List.append_nil past).symm, fun _ h => by cases h⟩
  | call request next ih =>
      let call : Call := ⟨request, port past request⟩
      obtain ⟨calls, hrun, hok⟩ := ih call.answer (hx.2 call.answer) (past ++ [call])
      refine ⟨call :: calls, hrun.trans (List.append_assoc ..), fun c hc => ?_⟩
      obtain rfl | hc := List.mem_cons.mp hc
      · exact hx.1
      · exact hok c hc

end Access

namespace Attempt

/-- Every request of a program that can fail is of a kind. -/
def Only (ok : Request → Prop) (x : Attempt α) : Prop := x.run.Only ok

theorem Only.mono {x : Attempt α} (hx : x.Only ok) (h : ∀ request, ok request → ok' request) :
    x.Only ok' := Access.Only.mono hx h

theorem Only.pure (a : α) : Only ok (pure a) := trivial

theorem Only.throw (e : Error) : Only ok (throw e : Attempt α) := trivial

theorem Only.bind {x : Attempt α} {f : α → Attempt β} (hx : x.Only ok)
    (hf : ∀ a, (f a).Only ok) : (x >>= f).Only ok := by
  unfold Only
  rw [ExceptT.run_bind]
  refine Access.Only.bind hx fun r => ?_
  cases r with
  | ok a => exact hf a
  | error e => trivial

theorem Only.ite {p : Prop} [Decidable p] {x y : Attempt α} (hx : x.Only ok) (hy : y.Only ok) :
    (if p then x else y).Only ok := by
  split
  · exact hx
  · exact hy

theorem Only.lift {x : Access α} (hx : x.Only ok) : Only ok (ExceptT.lift x) := by
  unfold Only
  rw [ExceptT.run_lift, map_eq_pure_bind]
  exact Access.Only.bind hx fun _ => trivial

theorem Only.outcome {x : Attempt α} (hx : x.Only ok) : x.outcome.Only ok := Only.lift hx

theorem Only.ofExcept (r : Except Error α) : Only ok (ofExcept r) := trivial

theorem Only.quietly {x : Attempt α} (hx : x.Only ok) : x.quietly.Only ok :=
  Access.Only.bind hx fun _ => trivial

/-- Every result that a program can come to. -/
def Yields (P : α → Prop) (x : Attempt α) : Prop :=
  Access.Yields (fun r => ∀ a, r = .ok a → P a) x.run

variable {P : α → Prop}

theorem Yields.mono {P' : α → Prop} {x : Attempt α} (hx : x.Yields P) (h : ∀ a, P a → P' a) :
    x.Yields P' := Access.Yields.mono hx fun _ hr a ha => h a (hr a ha)

theorem Yields.pure {a : α} (h : P a) : Yields P (pure a) := fun _ ha => Except.ok.inj ha ▸ h

theorem Yields.throw (e : Error) : Yields P (throw e : Attempt α) := nofun

theorem Yields.bind {Q : β → Prop} {x : Attempt β} {f : β → Attempt α} (hx : x.Yields Q)
    (hf : ∀ b, Q b → (f b).Yields P) : (x >>= f).Yields P := by
  unfold Yields
  rw [ExceptT.run_bind]
  refine Access.Yields.bind hx fun r hr => ?_
  cases r with
  | ok b => exact hf b (hr b rfl)
  | error e => exact nofun

/-- What comes after something of which nothing is known. -/
theorem Yields.after {x : Attempt β} {f : β → Attempt α} (hf : ∀ b, (f b).Yields P) :
    (x >>= f).Yields P :=
  .bind (Access.Yields.always (fun _ _ _ => trivial) x.run : Yields (fun _ => True) x)
    fun b _ => hf b

theorem Yields.ite {p : Prop} [Decidable p] {x y : Attempt α} (hx : x.Yields P) (hy : y.Yields P) :
    (if p then x else y).Yields P := by
  split
  · exact hx
  · exact hy

theorem Yields.ofExcept {r : Except Error α} (h : ∀ a, r = .ok a → P a) :
    (ofExcept r).Yields P := h

theorem Yields.outcome {x : Attempt α} (hx : x.Yields P) :
    x.outcome.Yields fun r => ∀ a, r = .ok a → P a := by
  unfold Yields Attempt.outcome
  rw [ExceptT.run_lift, map_eq_pure_bind]
  exact Access.Yields.bind hx fun r hr _ h => Except.ok.inj h ▸ hr

/-- What outlives calls of a kind holds after a program that makes no others. -/
theorem Only.ends {x : Attempt α} {P : List Call → Prop} {port : Port} {past : List Call}
    (hx : x.Only ok) (h : ∀ calls, (∀ call ∈ calls, ok call.request) → P (past ++ calls)) :
    Ends port.answer x past (fun _ => P) (fun _ => P) := by
  obtain ⟨calls, hrun, hok⟩ := Access.Only.calls hx port past
  have hpost := (ends_post (Q := fun _ => P)).mpr (hrun.symm ▸ h calls hok)
  exact hpost

end Attempt

namespace Access

theorem only_readIo8 {address : UInt16} (h : ok (.readIo8 address)) : (readIo8 address).Only ok :=
  ⟨h, fun _ => trivial⟩

theorem only_writeIo8 {address : UInt16} {value : UInt8} (h : ok (.writeIo8 address value)) :
    (writeIo8 address value).Only ok := ⟨h, fun _ => trivial⟩

theorem only_readMmio32 {physical : UInt64} (h : ok (.readMmio32 physical)) :
    (readMmio32 physical).Only ok := ⟨h, fun _ => trivial⟩

theorem only_writeMmio8 {physical : UInt64} {value : UInt8} (h : ok (.writeMmio8 physical value)) :
    (writeMmio8 physical value).Only ok := ⟨h, fun _ => trivial⟩

section

variable {location : Pci.Address} {offset : UInt8}

theorem only_readPci8 (h : ok (.readPci8 location offset)) : (readPci8 location offset).Only ok :=
  ⟨h, fun _ => trivial⟩

theorem only_readPci16 (h : ok (.readPci16 location offset)) :
    (readPci16 location offset).Only ok := ⟨h, fun _ => trivial⟩

theorem only_readPci32 (h : ok (.readPci32 location offset)) :
    (readPci32 location offset).Only ok := ⟨h, fun _ => trivial⟩

theorem only_writePci8 {value : UInt8} (h : ok (.writePci8 location offset value)) :
    (writePci8 location offset value).Only ok := ⟨h, fun _ => trivial⟩

theorem only_writePci16 {value : UInt16} (h : ok (.writePci16 location offset value)) :
    (writePci16 location offset value).Only ok := ⟨h, fun _ => trivial⟩

end

theorem only_sleep {us : UInt32} (h : ok (.sleep us)) : (sleep us).Only ok :=
  ⟨h, fun _ => trivial⟩

theorem only_delegate {routine : String} {words : List UInt64} {n : Nat}
    (h : ok (.delegate routine words n)) : (delegate routine words n).Only ok :=
  ⟨h, fun _ => trivial⟩

/-! ### Single accesses on a port -/

section

open Attempt

variable {port : Port} {past : List Call} {address : UInt16} {value : UInt8}

theorem ends_readIo8 {ok : UInt8 → List Call → Prop} {bad : Error → List Call → Prop}
    (hok : ∀ value, ok value (past ++ [⟨.readIo8 address, .ok value⟩]))
    (hbad : ∀ e, bad e (past ++ [⟨.readIo8 address, .error e⟩])) :
    Ends port.answer (readIo8 address) past ok bad := by
  have hrun : (readIo8 address).run.run port.answer past =
      (port past (.readIo8 address), past ++ [⟨.readIo8 address, port past (.readIo8 address)⟩]) :=
    rfl
  unfold Ends
  rw [hrun]
  cases port past (.readIo8 address) with
  | ok value => exact hok value
  | error e => exact hbad e

theorem ends_writeIo8 {ok : Unit → List Call → Prop} {bad : Error → List Call → Prop}
    (hok : ok () (past ++ [⟨.writeIo8 address value, .ok ()⟩]))
    (hbad : ∀ e, bad e (past ++ [⟨.writeIo8 address value, .error e⟩])) :
    Ends port.answer (writeIo8 address value) past ok bad := by
  have hrun : (writeIo8 address value).run.run port.answer past =
      (port past (.writeIo8 address value),
        past ++ [⟨.writeIo8 address value, port past (.writeIo8 address value)⟩]) := rfl
  unfold Ends
  rw [hrun]
  cases port past (.writeIo8 address value) with
  | ok _ => exact hok
  | error e => exact hbad e

end

end Access

end DimmBus
