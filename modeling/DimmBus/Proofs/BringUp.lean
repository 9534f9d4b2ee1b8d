import DimmBus.Proofs.Piix4BringUp
import DimmBus.Session

/-!
# Bringing a session up
-/

namespace DimmBus

open Access Attempt Platform

/-! ## The first that works -/

/-- The wait for completion that a family is given. -/
def Config.poll (config : Config) : Family → PollBudget
  | .ich => config.ichPoll
  | .piix4 => config.piix4Poll

theorem Config.retries_default (family : Family) : (({} : Config).poll family).retries ≠ 0 := by
  cases family <;> decide

namespace Controller

/-- The family of a controller in use. -/
def family : Controller → Family
  | .ich _ => .ich
  | .piix4 _ => .piix4

/-- The waits and the output of the multiplexer are those of the configuration. -/
def Follows (config : Config) : Controller → Prop
  | .ich c => c.poll = config.ichPoll
  | .piix4 c => c.poll = config.piix4Poll ∧ c.port = config.piix4Port

theorem Follows.attends {c : Controller} {config : Config} (hf : c.Follows config)
    (hpoll : (config.poll c.family).retries ≠ 0)
    (hport : c.family = .piix4 → config.piix4Port = 0) : c.Attends := by
  cases c with
  | ich c =>
      have hf : c.poll = config.ichPoll := hf
      change c.poll.retries ≠ 0
      rw [hf]
      exact hpoll
  | piix4 c =>
      obtain ⟨hf, hp⟩ : c.poll = config.piix4Poll ∧ c.port = config.piix4Port := hf
      refine ⟨?_, hp.trans (hport rfl)⟩
      rw [hf]
      exact hpoll

variable {p : Platform} {config : Config}

theorem ends_bringUp_ich {ok : Option Controller → Platform → Prop}
    {bad : Error → Platform → Prop} (hl : p.Laid)
    (hok : ∀ c p', c.Fits p → c.Follows config → p.Untouched p' → ok (some c) p')
    (hnone : ∀ k, Ich.candidate? p = none → ok none (p.spent k))
    (hbad : ∀ e k, (∀ found, Ich.candidate? p = some found →
      found.identity.location ≠ Ich.usualLocation) → bad e (p.spent k)) :
    Ends answer (bringUp .ich p.transport config) p ok bad := by
  rw [bringUp, ends_bind]
  refine Ich.ends_detect fun k => ?_
  cases hf : Ich.candidate? p with
  | none => exact hnone k hf
  | some found =>
      dsimp only
      simp only [init, map_eq_pure_bind, ends_bind]
      refine Ich.ends_init (p := p.spent k) ?_ (fun c p' _ hfits hpoll hu => ?_)
        fun e k' hne => hbad e k' fun found' hf' => ?_
      · exact Ich.candidate_of_laid (hl.spent k) hf
      · exact hok (.ich c) p' (Fits.stands (c := .ich c) hfits ⟨rfl, rfl, rfl, rfl, rfl⟩) hpoll
          ((Untouched.spent p k).trans hu)
      · rw [hf] at hf'
        cases hf'
        exact hne

theorem ends_bringUp_piix4 {ok : Option Controller → Platform → Prop}
    {bad : Error → Platform → Prop} (hl : p.Laid)
    (hok : ∀ c p', c.Fits p → c.Follows config → p.Untouched p' → ok (some c) p')
    (hnone : ∀ k, Piix4.candidate? p = none → ok none (p.spent k))
    (hbad : ∀ e p', (config.piix4Port = 0 → ∀ found, Piix4.candidate? p = some found →
      found.identity.location = Ich.usualLocation) → p.Untouched p' → bad e p') :
    Ends answer (bringUp .piix4 p.transport config) p ok bad := by
  rw [bringUp, ends_bind]
  refine Piix4.ends_detect fun k => ?_
  cases hf : Piix4.candidate? p with
  | none => exact hnone k hf
  | some found =>
      dsimp only
      simp only [init, map_eq_pure_bind, ends_bind]
      have hu₀ := Untouched.spent p k
      refine Piix4.ends_init (p := p.spent k) (hl.spent k) hf (fun c p' hfits hpoll hport hu => ?_)
        fun e p' hwhy hu => hbad e p' (fun hz found' hf' => ?_) (hu₀.trans hu)
      · exact hok (.piix4 c) p' (Fits.stands (c := .piix4 c) hfits ⟨rfl, rfl, rfl, rfl, rfl⟩)
          ⟨hpoll, hport⟩ (hu₀.trans hu)
      · rw [hf] at hf'
        cases hf'
        obtain hloc | hne := hwhy
        · exact hloc
        · exact absurd hz hne

theorem probeFamilies_cons {σ : Type} {step : (request : Request) → σ → request.Answer × σ} {s : σ}
    (transport : Transport) (family : Family) (rest : List Family) :
    (probeFamilies transport config (family :: rest)).run step s =
      match (bringUp family transport config).run.run step s with
      | (.ok (some c), s') => (some c, s')
      | (_, s') => (probeFamilies transport config rest).run step s' := by
  rw [probeFamilies, Access.run_bind]
  rcases (bringUp family transport config).run.run step s with ⟨_ | _ | _, s'⟩ <;> rfl

theorem run_of_ends {σ : Type} {step : (request : Request) → σ → request.Answer × σ} {s : σ}
    {x : Attempt (Option Controller)} {Q : Option Controller → σ → Prop}
    (rest : σ → Option Controller × σ)
    (h : Ends step x s (fun c? s' => match c? with
        | some c => Q (some c) s'
        | none => Q (rest s').1 (rest s').2)
      fun _ s' => Q (rest s').1 (rest s').2) :
    Q (match x.run.run step s with
        | (.ok (some c), s') => (some c, s')
        | (_, s') => rest s').1
      (match x.run.run step s with
        | (.ok (some c), s') => (some c, s')
        | (_, s') => rest s').2 := by
  unfold Ends at h
  rcases hx : x.run.run step s with ⟨_ | _ | _, s'⟩ <;> rw [hx] at h <;> exact h

theorem probe_ends (config : Config) {Q : Option Controller → Platform → Prop} (hl : p.Laid)
    (hok : ∀ c p', c.Fits p → c.Follows config → p.Untouched p' → Q (some c) p')
    (hnone : ∀ p', p.Untouched p' →
      (∀ found, Ich.candidate? p = some found → found.identity.location ≠ Ich.usualLocation) →
      (config.piix4Port = 0 → ∀ found, Piix4.candidate? p = some found →
        found.identity.location = Ich.usualLocation) → Q none p') :
    Q ((probe p.transport config).run answer p).1 ((probe p.transport config).run answer p).2 := by
  have hsecond : ∀ k, (∀ found, Ich.candidate? p = some found →
      found.identity.location ≠ Ich.usualLocation) →
      Q ((probeFamilies p.transport config [.piix4]).run answer (p.spent k)).1
        ((probeFamilies p.transport config [.piix4]).run answer (p.spent k)).2 := fun k hich => by
    rw [probeFamilies_cons]
    refine run_of_ends ((probeFamilies p.transport config []).run answer) ?_
    have hu₀ := Untouched.spent p k
    refine ends_bringUp_piix4 (hl.spent k) (fun c p' hfits hfollows hu => ?_) (fun k' hn => ?_)
      fun e p' hwhy hu => ?_
    · exact hok c p' (hfits.stands ⟨rfl, rfl, rfl, rfl, rfl⟩) hfollows (hu₀.trans hu)
    · refine hnone _ (.spent p k') hich fun _ found hf => ?_
      have hf' : Piix4.candidate? (p.spent k) = some found := hf
      rw [hn] at hf'
      cases hf'
    · exact hnone p' (hu₀.trans hu) hich hwhy
  rw [probe, probeFamilies_cons]
  refine run_of_ends ((probeFamilies p.transport config [.piix4]).run answer) ?_
  refine ends_bringUp_ich hl (fun c p' hfits hfollows hu => hok c p' hfits hfollows hu)
    (fun k hn => hsecond k fun found hf => ?_) fun e k hwhy => hsecond k hwhy
  rw [hn] at hf
  cases hf

end Controller

namespace Session

variable {p : Platform} {config : Config}

/-- A session that was brought up drives the host of the machine, and the machine is as it was. -/
theorem bringUp_ends (config : Config) {Q : Option Session → Platform → Prop} (hl : p.Laid)
    (hok : ∀ c p', c.Fits p → c.Follows config → p.Untouched p' →
      Q (some ⟨⟨c, config⟩, .empty⟩) p')
    (hnone : ∀ p', p.Untouched p' →
      (∀ found, Ich.candidate? p = some found → found.identity.location ≠ Ich.usualLocation) →
      (config.piix4Port = 0 → ∀ found, Piix4.candidate? p = some found →
        found.identity.location = Ich.usualLocation) → Q none p') :
    Q ((bringUp p.transport config).run answer p).1
      ((bringUp p.transport config).run answer p).2 := by
  have h := Controller.probe_ends config
    (Q := fun c? p' => Q (c?.map fun c => ⟨⟨c, config⟩, .empty⟩) p') hl hok hnone
  rw [bringUp, Access.run_bind]
  rcases hx : (Controller.probe p.transport config).run answer p with ⟨_ | c, p'⟩ <;>
    rw [hx] at h <;> exact h

end Session

end DimmBus
