import DimmBus.Proofs.Footprint
import DimmBus.Session.Basic

/-!
# Scripts

A session's work as its controller sees it: the bus lock is taken and given back, and in between
whole transactions are handed over. A script branches on what comes of each of these and leaves open
how a controller carries a transaction out. Its type keeps track of the lock, so that it is taken
when free and given back when held.
-/

namespace DimmBus

/-- One step of a session's work, with what came of it. -/
inductive Exchange where
  | refused (e : Error)
  | locked
  | unlocked
  | handed (tx : Transaction) (answer : Except Error Payload)

/-- Any transaction is allowed. -/
def anything : List Exchange → Transaction → Prop := fun _ _ => True

/-- Work that begins with the lock as `held` says and ends with it as `last` says. How the giving
back of the lock went makes no difference. -/
inductive Script (α : Type) (last : Bool) : (held : Bool) → Type
  | done (value : α) : Script α last last
  | lock (timeoutUs : Nat) (refused : Error → Script α last false) (granted : Script α last true) :
      Script α last false
  | unlock (next : Script α last false) : Script α last true
  | hand (tx : Transaction) (next : Except Error Payload → Script α last true) :
      Script α last true

namespace Script

variable {α β : Type} {last middle held : Bool}

protected def bind (f : α → Script β last middle) :
    {held : Bool} → Script α middle held → Script β last held
  | _, .done value => f value
  | _, .lock timeoutUs refused granted =>
    .lock timeoutUs (fun e => (refused e).bind f) (granted.bind f)
  | _, .unlock next => .unlock (next.bind f)
  | _, .hand tx next => .hand tx fun answer => (next answer).bind f

/-- The accesses of the work on a controller. -/
def perform (c : Controller) : {held : Bool} → Script α last held → Access α
  | _, .done value => .done value
  | _, .lock timeoutUs refused granted => .call (.lock timeoutUs) fun answer : Except Error Unit =>
    match answer with
    | .ok _ => granted.perform c
    | .error e => (refused e).perform c
  | _, .unlock next => .call .unlock fun _ => next.perform c
  | _, .hand tx next => (c.transfer tx).run.bind fun answer => (next answer).perform c

/-- Whatever comes of its steps, the script hands over only what `may` be handed over in the light
of all steps before, and ends in `post`. -/
def Meets (may : List Exchange → Transaction → Prop) (post : α → List Exchange → Prop) :
    {held : Bool} → Script α last held → (past : List Exchange) → Prop
  | _, .done value, past => post value past
  | _, .lock _ refused granted, past =>
    (∀ e, (refused e).Meets may post (past ++ [.refused e])) ∧
      granted.Meets may post (past ++ [.locked])
  | _, .unlock next, past => next.Meets may post (past ++ [.unlocked])
  | _, .hand tx next, past =>
    may past tx ∧ ∀ answer, (next answer).Meets may post (past ++ [.handed tx answer])

theorem perform_bind (c : Controller) (script : Script α middle held)
    (f : α → Script β last middle) :
    (script.bind f).perform c = (script.perform c).bind fun a => (f a).perform c := by
  induction script with
  | done value => rfl
  | lock timeoutUs refused granted ihr ihg =>
      simp only [Script.bind, perform, Access.bind, ihg]
      refine congrArg (Access.call (.lock timeoutUs)) (funext fun answer => ?_)
      cases answer with
      | ok _ => rfl
      | error e => exact ihr e
  | unlock next ih => simp only [Script.bind, perform, Access.bind, ih]
  | hand tx next ih => simp only [Script.bind, perform, Access.bind_assoc, ih]

variable {may : List Exchange → Transaction → Prop}

theorem Meets.bind {Q : α → List Exchange → Prop} {post : β → List Exchange → Prop}
    {script : Script α middle held} {f : α → Script β last middle} {past : List Exchange}
    (hs : script.Meets may Q past) (hf : ∀ a past, Q a past → (f a).Meets may post past) :
    (script.bind f).Meets may post past := by
  induction script generalizing past with
  | done value => exact hf value past hs
  | lock timeoutUs refused granted ihr ihg => exact ⟨fun e => ihr e (hs.1 e), ihg hs.2⟩
  | unlock next ih => exact ih hs
  | hand tx next ih => exact ⟨hs.1, fun answer => ih answer (hs.2 answer)⟩

theorem Meets.mono {post post' : α → List Exchange → Prop} {script : Script α last held}
    {past : List Exchange} (hs : script.Meets may post past)
    (h : ∀ a past, post a past → post' a past) : script.Meets may post' past := by
  induction script generalizing past with
  | done value => exact h value past hs
  | lock timeoutUs refused granted ihr ihg => exact ⟨fun e => ihr e (hs.1 e), ihg hs.2⟩
  | unlock next ih => exact ih hs
  | hand tx next ih => exact ⟨hs.1, fun answer => ih answer (hs.2 answer)⟩

/-- A condition that further steps do not undo. -/
def Lasting (P : List Exchange → Prop) : Prop := ∀ past x, P past → P (past ++ [x])

end Script

namespace Session

variable {α β : Type} {c : Controller} {may : List Exchange → Transaction → Prop}
  {last middle held : Bool} {link : Link} {tx : Transaction}

/-! ## Work that cannot fail -/

/-- A condition on what is remembered and on the steps so far. -/
abbrev Stage := Memory → List Exchange → Prop

/-- Whatever is remembered, the work is a script; begun at the stage `pre`, the script meets
`post`. -/
def Scripted (c : Controller) (may : List Exchange → Transaction → Prop) (last held : Bool)
    (pre : Stage) (x : Step α) (post : α → Stage) : Prop :=
  ∀ m, ∃ script : Script (α × Memory) last held, script.perform c = x.run m ∧
    ∀ past, pre m past → script.Meets may (fun r => post r.1 r.2) past

namespace Scripted

variable {pre pre' : Stage} {post post' : α → Stage}

theorem mono {x : Step α} (hx : Scripted c may last held pre x post)
    (hpre : ∀ m past, pre' m past → pre m past)
    (hpost : ∀ a m past, post a m past → post' a m past) :
    Scripted c may last held pre' x post' := fun m => by
  obtain ⟨script, hperform, hmeets⟩ := hx m
  exact ⟨script, hperform, fun past hp =>
    (hmeets past (hpre m past hp)).mono fun r past => hpost r.1 r.2 past⟩

theorem pure {a : α} (h : ∀ m past, pre m past → post a m past) :
    Scripted c may held held pre (pure a) post := fun m =>
  ⟨.done (a, m), rfl, fun past hp => h m past hp⟩

theorem bind {x : Step β} {f : β → Step α} {Q : β → Stage}
    (hx : Scripted c may middle held pre x Q)
    (hf : ∀ b, Scripted c may last middle (Q b) (f b) post) :
    Scripted c may last held pre (x >>= f) post := fun m => by
  obtain ⟨script, hperform, hmeets⟩ := hx m
  have hrest (r : β × Memory) := (hf r.1 r.2).choose_spec
  refine ⟨script.bind fun r => (hf r.1 r.2).choose, ?_, fun past hp =>
    (hmeets past hp).bind fun r past hq => (hrest r).2 past hq⟩
  rw [Script.perform_bind, hperform, StateT.run_bind, funext fun r => (hrest r).1]
  rfl

theorem get : Scripted c may held held pre get fun m' m past => m' = m ∧ pre m past := fun m =>
  ⟨.done (m, m), rfl, fun _ hp => ⟨rfl, hp⟩⟩

theorem modify {f : Memory → Memory} {post : Unit → Stage}
    (h : ∀ m past, pre m past → post () (f m) past) :
    Scripted c may held held pre (modify f) post := fun m =>
  ⟨.done ((), f m), rfl, fun past hp => h m past hp⟩

theorem dropLatch {post : Unit → Stage}
    (h : ∀ m past, pre m past → post () { m with latch := none } past) :
    Scripted c may held held pre dropLatch post := modify h

theorem set {m' : Memory} {post : Unit → Stage} (h : ∀ m past, pre m past → post () m' past) :
    Scripted c may held held pre (set m') post := fun m =>
  ⟨.done ((), m'), rfl, fun past hp => h m past hp⟩

end Scripted

/-! ## Work that can fail -/

/-- The same for work that can fail, with one stage for success and one for failure. -/
def Planned (c : Controller) (may : List Exchange → Transaction → Prop) (last held : Bool)
    (pre : Stage) (x : Operation α) (ok : α → Stage) (bad : Error → Stage) : Prop :=
  Scripted c may last held pre x.run fun r =>
    match r with
    | .ok a => ok a
    | .error e => bad e

namespace Planned

variable {pre pre' : Stage} {ok ok' : α → Stage} {bad bad' : Error → Stage}

theorem mono {x : Operation α} (hx : Planned c may last held pre x ok bad)
    (hpre : ∀ m past, pre' m past → pre m past) (hok : ∀ a m past, ok a m past → ok' a m past)
    (hbad : ∀ e m past, bad e m past → bad' e m past) :
    Planned c may last held pre' x ok' bad' :=
  Scripted.mono hx hpre fun r => by
    cases r with
    | ok a => exact hok a
    | error e => exact hbad e

theorem pure {a : α} (h : ∀ m past, pre m past → ok a m past) :
    Planned c may held held pre (pure a) ok bad := fun m =>
  ⟨.done (.ok a, m), rfl, fun past hp => h m past hp⟩

theorem throw {e : Error} (h : ∀ m past, pre m past → bad e m past) :
    Planned c may held held pre (throw e : Operation α) ok bad := fun m =>
  ⟨.done (.error e, m), rfl, fun past hp => h m past hp⟩

/-- What follows a result that is already known. -/
theorem bind_ofExcept {r : Except Error β} {f : β → Operation α}
    (hf : ∀ b, r = .ok b → Planned c may held held pre (f b) ok bad)
    (hbad : ∀ e m past, pre m past → bad e m past) :
    Planned c may held held pre (Session.ofExcept r >>= f) ok bad := by
  cases r with
  | ok b => exact hf b rfl
  | error e => exact throw (hbad e)

theorem run {x : Operation α} (hx : Planned c may last held pre x ok bad) :
    Scripted c may last held pre x.run fun r =>
      match r with
      | .ok a => ok a
      | .error e => bad e := hx

/-- Where the first part fails, the whole fails, with the lock where that leaves it. -/
theorem bind {x : Operation β} {f : β → Operation α} {Q : β → Stage}
    (hx : Planned c may held held pre x Q bad)
    (hf : ∀ b, Planned c may held held (Q b) (f b) ok bad) :
    Planned c may held held pre (x >>= f) ok bad := by
  unfold Planned
  rw [ExceptT.run_bind]
  refine Scripted.bind hx fun r => ?_
  cases r with
  | ok b => exact hf b
  | error e => exact Scripted.pure fun _ _ hb => hb

theorem get : Planned c may held held pre (get : Operation Memory)
    (fun m' m past => m' = m ∧ pre m past) bad := fun m =>
  ⟨.done (.ok m, m), rfl, fun _ hp => ⟨rfl, hp⟩⟩

theorem step {x : Step α} (hx : Scripted c may last held pre x ok) :
    Planned c may last held pre (step x) ok bad := by
  unfold Planned Session.step
  rw [ExceptT.run_lift, map_eq_pure_bind]
  exact hx.bind fun a => Scripted.pure fun _ _ ha => ha

theorem outcome {x : Operation α} {bad' : Error → Stage}
    (hx : Planned c may last held pre x ok bad) :
    Planned c may last held pre (outcome x)
      (fun r => match r with
        | .ok a => ok a
        | .error e => bad e) bad' := step hx

theorem adapt {x : Operation α} {f : Error → Error}
    (hx : Planned c may last held pre x ok fun e => bad (f e)) :
    Planned c may last held pre (ExceptT.adapt f x) ok bad := by
  change Scripted c may last held pre (Except.mapError f <$> x.run) _
  rw [map_eq_pure_bind]
  refine Scripted.bind hx fun r => ?_
  cases r with
  | ok a => exact Scripted.pure fun _ _ ha => ha
  | error e => exact Scripted.pure fun _ _ hb => hb

/-! ### On the bus -/

theorem accept (h : ∀ e m past, pre m past → bad e m past) :
    Planned c may held held pre (accept link tx) (fun _ => pre) bad := by
  refine bind_ofExcept (fun _ _ => ?_) h
  cases link.controller.check tx with
  | ok _ => exact pure fun _ _ hp => hp
  | error e => exact throw (h e)

theorem hand {ok : Payload → Stage} (hmay : ∀ m past, pre m past → may past tx)
    (hok : ∀ payload m past, pre m past → ok payload m (past ++ [.handed tx (.ok payload)]))
    (hbad : ∀ e m past, pre m past → bad e m (past ++ [.handed tx (.error e)])) :
    Planned c may true true pre (access (c.transfer tx)) ok bad := fun m =>
  ⟨.hand tx fun answer => .done (answer, m), rfl, fun past hp => ⟨hmay m past hp, fun answer => by
    cases answer with
    | ok payload => exact hok payload m past hp
    | error e => exact hbad e m past hp⟩⟩

theorem send {ok : Payload → Stage} (hrefused : ∀ e m past, pre m past → bad e m past)
    (hmay : ∀ m past, pre m past → may past tx)
    (hok : ∀ payload m past, pre m past → ok payload m (past ++ [.handed tx (.ok payload)]))
    (hbad : ∀ e m past, pre m past → bad e m (past ++ [.handed tx (.error e)])) :
    Planned link.controller may true true pre (send link tx) ok bad :=
  (accept hrefused).bind fun _ => hand hmay hok hbad

/-- The lock is taken for the work and given back after it, whether the work fails or not. -/
theorem locked {body : Operation α}
    (hrefused : ∀ e m past, pre m past → bad e m (past ++ [.refused e]))
    (hlocked : ∀ m past, pre m past → pre' m (past ++ [.locked]))
    (hbody : Planned c may true true pre' body (fun a m past => ok a m (past ++ [.unlocked]))
      fun e m past => bad e m (past ++ [.unlocked])) :
    Planned c may false false pre (locked link body) ok bad := fun m => by
  obtain ⟨script, hperform, hmeets⟩ := hbody m
  refine ⟨.lock link.config.lockTimeoutUs (fun e => .done (.error e, m))
    (script.bind fun r => .unlock (.done r)), ?_,
    fun past hp => ⟨fun e => hrefused e m past hp, ?_⟩⟩
  · simp only [Script.perform, Script.perform_bind, hperform]
    refine congrArg (Access.call (.lock link.config.lockTimeoutUs)) (funext fun answer => ?_)
    cases answer with
    | error e => rfl
    | ok u =>
        -- The session keeps the outcome of the release only to drop it, as the script does.
        change (body.run.run m >>= fun r => Access.call .unlock fun _ => .done r) =
          (Session.outcome body >>= fun result => Session.outcome (access Access.unlock) >>=
            fun _ => Session.ofExcept result : Operation α).run.run m
        unfold Session.outcome
        rw [ExceptT.run_bind, ExceptT.run_lift, map_eq_pure_bind, bind_assoc, StateT.run_bind]
        rfl
  · refine (hmeets _ (hlocked m past hp)).bind fun r past hr => ?_
    obtain ⟨e | a, m'⟩ := r
    · exact hr
    · exact hr

/-- Work is repeated from whatever a failure leaves, without a page to rely on. The stage may depend
on the attempts left. -/
theorem retryingWhile {body : Operation α} {pre : Nat → Stage} (n : Nat)
    (hbody : ∀ left ≤ n, Planned c may held held (pre left) body ok fun e m past =>
      (∀ k, left = k + 1 → pre k { m with latch := none } past) ∧
        bad e { m with latch := none } past) :
    Planned c may held held (pre n) (Session.retryingWithin body n) ok bad := by
  have hdrop : ∀ {rest : Operation α} {e : Error} {q : Stage},
      Planned c may held held (fun m past => q m past ∧ bad e m past) rest ok bad →
      Planned c may held held (fun m past => q { m with latch := none } past ∧
        bad e { m with latch := none } past)
        (do Session.step Session.dropLatch; rest) ok bad := fun hrest =>
    (step (Scripted.dropLatch fun _ _ h => h)).bind fun _ => hrest
  -- On the attempts left. A failed attempt ends where another may begin.
  induction n with
  | zero =>
      rw [Session.retryingWithin]
      refine (outcome (hbody 0 (Nat.le_refl 0))).bind fun r => ?_
      cases r with
      | ok a => exact pure fun _ _ h => h
      | error e =>
          exact (hdrop (q := fun _ _ => True) (throw fun _ _ h => h.2)).mono
            (fun _ _ h => ⟨trivial, h.2⟩) (fun _ _ _ h => h) fun _ _ _ h => h
  | succ n ih =>
      rw [Session.retryingWithin]
      refine (outcome (hbody (n + 1) (Nat.le_refl _))).bind fun r => ?_
      cases r with
      | ok a => exact pure fun _ _ h => h
      | error e =>
          refine (hdrop (q := pre n) ?_).mono (fun _ _ h => ⟨h.1 n rfl, h.2⟩)
            (fun _ _ _ h => h) fun _ _ _ h => h
          split
          · exact (ih fun k hk => hbody k (Nat.le_succ_of_le hk)).mono (fun _ _ h => h.1)
              (fun _ _ _ h => h) fun _ _ _ h => h
          · exact throw fun _ _ h => h.2

theorem retryingWithin {body : Operation α} (n : Nat)
    (hbody : Planned c may held held pre body ok fun e m past =>
      pre { m with latch := none } past ∧ bad e { m with latch := none } past) :
    Planned c may held held pre (retryingWithin body n) ok bad :=
  retryingWhile n fun _ _ => hbody.mono (fun _ _ h => h) (fun _ _ _ h => h)
    fun _ _ _ h => ⟨fun _ _ => h.1, h.2⟩

end Planned
end Session

end DimmBus
