import DimmBus.Access

/-!
# What a run ends in

A program that can fail is judged by what holds after its run: one condition for success, one for
failure. Each way of putting programs together has its rule.
-/

namespace DimmBus

variable {σ α β : Type} {step : (request : Request) → σ → request.Answer × σ}

theorem Access.run_bind (x : Access α) (f : α → Access β) (s : σ) :
    (x >>= f).run step s = (f (x.run step s).1).run step (x.run step s).2 := by
  induction x generalizing s with
  | done value => rfl
  | call request next ih => exact ih _ _

theorem Access.run_map (f : α → β) (x : Access α) (s : σ) :
    (f <$> x).run step s = (f (x.run step s).1, (x.run step s).2) := by
  rw [map_eq_pure_bind, run_bind]
  rfl

namespace Attempt

/-- A run from `s` ends in success and `ok`, or in failure and `bad`. -/
def Ends (step : (request : Request) → σ → request.Answer × σ) (x : Attempt α) (s : σ)
    (ok : α → σ → Prop) (bad : Error → σ → Prop) : Prop :=
  match x.run.run step s with
  | (.ok value, s) => ok value s
  | (.error e, s) => bad e s

variable {s : σ} {ok ok' : α → σ → Prop} {bad bad' : Error → σ → Prop}

theorem ends_iff_run {x : Attempt α} : Ends step x s ok bad ↔
    (∀ value s', x.run.run step s = (.ok value, s') → ok value s') ∧
      (∀ e s', x.run.run step s = (.error e, s') → bad e s') := by
  unfold Ends
  rcases x.run.run step s with ⟨e | value, s'⟩ <;> simp

theorem Ends.mono {x : Attempt α} (h : Ends step x s ok bad) (hok : ∀ a s, ok a s → ok' a s)
    (hbad : ∀ e s, bad e s → bad' e s) : Ends step x s ok' bad' := by
  rw [ends_iff_run] at h ⊢
  exact ⟨fun a s' hr => hok a s' (h.1 a s' hr), fun e s' hr => hbad e s' (h.2 e s' hr)⟩

/-- One condition on the outcome, whichever it is. -/
theorem ends_post {x : Attempt α} {Q : Except Error α → σ → Prop} :
    Ends step x s (fun a => Q (.ok a)) (fun e => Q (.error e)) ↔
      Q (x.run.run step s).1 (x.run.run step s).2 := by
  unfold Ends
  rcases x.run.run step s with ⟨e | value, s'⟩ <;> rfl

@[simp]
theorem ends_pure {a : α} : Ends step (pure a) s ok bad ↔ ok a s := Iff.rfl

@[simp]
theorem ends_bind {x : Attempt β} {f : β → Attempt α} : Ends step (x >>= f) s ok bad ↔
    Ends step x s (fun b s => Ends step (f b) s ok bad) bad := by
  unfold Ends
  rw [ExceptT.run_bind, Access.run_bind]
  rcases x.run.run step s with ⟨e | b, s'⟩ <;> rfl

/-- What the first part ends in is where the second part starts. -/
theorem Ends.bind {x : Attempt β} {f : β → Attempt α} {Q : β → σ → Prop}
    (hx : Ends step x s Q bad) (hf : ∀ b s, Q b s → Ends step (f b) s ok bad) :
    Ends step (x >>= f) s ok bad := ends_bind.mpr (hx.mono hf fun _ _ h => h)

@[simp]
theorem ends_lift {x : Access α} : Ends step (ExceptT.lift x) s ok bad ↔
    ok (x.run step s).1 (x.run step s).2 := by
  unfold Ends
  rw [ExceptT.run_lift, map_eq_pure_bind, Access.run_bind]
  rfl

@[simp]
theorem ends_quietly {x : Attempt β} {ok : Unit → σ → Prop} :
    Ends step (ExceptT.lift x.quietly) s ok bad ↔
      Ends step x s (fun _ => ok ()) (fun _ => ok ()) := by
  rw [ends_lift, quietly, Access.run_bind]
  unfold Ends
  rcases x.run.run step s with ⟨e | b, s'⟩ <;> rfl

@[simp]
theorem ends_outcome {x : Attempt α} {ok : Except Error α → σ → Prop} :
    Ends step x.outcome s ok bad ↔
      Ends step x s (fun a => ok (.ok a)) (fun e => ok (.error e)) := by
  rw [outcome, ends_lift]
  unfold Ends
  rcases x.run.run step s with ⟨e | b, s'⟩ <;> rfl

@[simp]
theorem ends_ofExcept_ok {a : α} : Ends step (ofExcept (.ok a)) s ok bad ↔ ok a s := Iff.rfl

theorem ends_ofExcept_post {r : Except Error α} {Q : Except Error α → σ → Prop}
    (h : Q r s) :
    Ends step (ofExcept r) s (fun a => Q (.ok a)) (fun e => Q (.error e)) := by
  cases r <;> exact h

end Attempt

end DimmBus
