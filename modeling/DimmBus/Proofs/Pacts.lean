import DimmBus.Proofs.Scripts

/-!
# Pacts

What a program relies on and what others may rely on, when it does not have the machine to itself.
It keeps track of something that only its own requests change. In the light of that, some requests
are not its to make, and some answers are certain. Of all other answers it knows nothing.
-/

namespace DimmBus

/-- What may be asked for, which answers are certain, and what is kept track of. -/
structure Pact (γ : Type) where
  may : γ → Request → Prop
  shown : γ → (request : Request) → request.Answer → Prop
  after : γ → (request : Request) → request.Answer → γ

variable {α β γ : Type} {P : Pact γ} {g : γ}

namespace Access

/-- As long as the answers are as they must be, the program asks only for what it may, and it ends
in `post`. -/
def Heeds (P : Pact γ) (post : α → γ → Prop) : Access α → γ → Prop
  | .done value, g => post value g
  | .call request next, g => P.may g request ∧
      ∀ answer, P.shown g request answer → (next answer).Heeds P post (P.after g request answer)

variable {post post' : α → γ → Prop}

theorem Heeds.mono {x : Access α} (hx : x.Heeds P post g) (h : ∀ a g, post a g → post' a g) :
    x.Heeds P post' g := by
  induction x generalizing g with
  | done value => exact h value g hx
  | call request next ih => exact ⟨hx.1, fun answer ha => ih answer (hx.2 answer ha)⟩

theorem Heeds.bind {Q : β → γ → Prop} {x : Access β} {f : β → Access α} (hx : x.Heeds P Q g)
    (hf : ∀ b g, Q b g → (f b).Heeds P post g) : (x >>= f).Heeds P post g := by
  induction x generalizing g with
  | done value => exact hf value g hx
  | call request next ih => exact ⟨hx.1, fun answer ha => ih answer (hx.2 answer ha)⟩

theorem Heeds.map {Q : β → γ → Prop} {x : Access β} {f : β → α} (hx : x.Heeds P Q g)
    (hf : ∀ b g, Q b g → post (f b) g) : (f <$> x).Heeds P post g := by
  rw [map_eq_pure_bind]
  exact hx.bind hf

/-- Requests that are always allowed and change nothing that is kept track of. -/
theorem Only.heeds {ok : Request → Prop} {x : Access α} (hx : x.Only ok)
    (h : ∀ request, ok request → P.may g request ∧ ∀ answer, P.after g request answer = g) :
    x.Heeds P (fun _ g' => g' = g) g := by
  induction x with
  | done value => rfl
  | call request next ih =>
      obtain ⟨hmay, hafter⟩ := h request hx.1
      refine ⟨hmay, fun answer _ => ?_⟩
      rw [hafter]
      exact ih answer (hx.2 answer)

end Access

/-! ## Programs that can fail -/

namespace Attempt

/-- The same with one condition for success and one for failure. -/
def Heeds (P : Pact γ) (ok : α → γ → Prop) (bad : Error → γ → Prop) (x : Attempt α) (g : γ) :
    Prop :=
  Access.Heeds P (fun r g => match r with
    | .ok a => ok a g
    | .error e => bad e g) x.run g

variable {ok ok' : α → γ → Prop} {bad bad' : Error → γ → Prop}

theorem Heeds.mono {x : Attempt α} (hx : x.Heeds P ok bad g) (hok : ∀ a g, ok a g → ok' a g)
    (hbad : ∀ e g, bad e g → bad' e g) : x.Heeds P ok' bad' g :=
  Access.Heeds.mono hx fun r g => by
    cases r with
    | ok a => exact hok a g
    | error e => exact hbad e g

theorem Heeds.pure {a : α} (h : ok a g) : Heeds P ok bad (pure a) g := h

theorem Heeds.bind {Q : β → γ → Prop} {x : Attempt β} {f : β → Attempt α}
    (hx : x.Heeds P Q bad g) (hf : ∀ b g, Q b g → (f b).Heeds P ok bad g) :
    (x >>= f).Heeds P ok bad g := by
  unfold Heeds
  rw [ExceptT.run_bind]
  refine Access.Heeds.bind hx fun r g => ?_
  cases r with
  | ok b => exact hf b g
  | error e => exact id

/-- The second part starts where the first one ends. -/
theorem Heeds.seq {x : Attempt β} {f : β → Attempt α}
    (hx : x.Heeds P (fun b g => (f b).Heeds P ok bad g) bad g) : (x >>= f).Heeds P ok bad g :=
  hx.bind fun _ _ h => h

theorem Heeds.lift {x : Access α} (hx : x.Heeds P ok g) : Heeds P ok bad (ExceptT.lift x) g := by
  unfold Heeds
  rw [ExceptT.run_lift]
  exact hx.map fun _ _ => id

/-- Whatever comes of a program, one condition holds in the end. -/
theorem Heeds.outcome {Q : γ → Prop} {x : Attempt α}
    (hx : x.Heeds P (fun _ => Q) (fun _ => Q) g) : x.outcome.Heeds P (fun _ => Q) bad g :=
  .lift (Access.Heeds.mono hx fun r g h => by cases r <;> exact h)

theorem Heeds.quietly {Q : γ → Prop} {x : Attempt α}
    (hx : x.Heeds P (fun _ => Q) (fun _ => Q) g) :
    Heeds P (fun _ => Q) bad (ExceptT.lift x.quietly) g :=
  .lift (Access.Heeds.bind hx fun r g h => by cases r <;> exact h)

theorem Heeds.ofExcept {Q : γ → Prop} {r : Except Error α} (h : Q g) :
    Heeds P (fun _ => Q) (fun _ => Q) (ofExcept r) g := by
  cases r <;> exact h

theorem Only.heeds {kind : Request → Prop} {x : Attempt α} (hx : x.Only kind)
    (h : ∀ request, kind request → P.may g request ∧ ∀ answer, P.after g request answer = g) :
    x.Heeds P (fun _ g' => g' = g) (fun _ g' => g' = g) g :=
  Access.Heeds.mono (Access.Only.heeds hx h) fun r g h => by cases r <;> exact h

end Attempt

/-- A script heeds what the transactions of its controller heed, if the lock is no matter. -/
theorem Script.heeds {c : Controller} {Q : γ → Prop}
    (hlock : ∀ g request, Q g → ¬request.Plain →
      P.may g request ∧ ∀ answer, Q (P.after g request answer))
    (hhand : ∀ tx g, Q g → (c.transfer tx).run.Heeds P (fun _ => Q) g) {last held : Bool}
    (script : Script α last held) (hg : Q g) : (script.perform c).Heeds P (fun _ => Q) g := by
  induction script generalizing g with
  | done value => exact hg
  | lock timeoutUs refused granted ihr ihg =>
      obtain ⟨hmay, hafter⟩ := hlock g (.lock timeoutUs) hg id
      simp only [perform]
      refine ⟨hmay, fun answer _ => ?_⟩
      have hg' := hafter answer
      cases answer with
      | ok _ => exact ihg hg'
      | error e => exact ihr e hg'
  | unlock next ih =>
      obtain ⟨hmay, hafter⟩ := hlock g .unlock hg id
      simp only [perform]
      exact ⟨hmay, fun answer _ => ih (hafter answer)⟩
  | hand tx next ih =>
      simp only [perform]
      exact (hhand tx g hg).bind fun answer _ hg' => ih answer hg'

end DimmBus
