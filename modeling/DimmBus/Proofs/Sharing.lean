import DimmBus.Proofs.SoundReads

/-!
# Two sessions on one machine

Two sessions that are brought up on the same machine and take turns. The lock keeps their operations
apart, but what a session remembers outlives its turn. The modules it remembers stay the right ones.
The page it relies on may be moved in the other's turn, and then it reads the wrong byte.
-/

namespace DimmBus

open Platform Session

/-- The two sessions. -/
inductive User where
  | first
  | second
deriving DecidableEq

/-- Each session has a memory of its own; the machine is one. -/
structure Shared where
  session : User → Session
  machine : Platform

/-- What happens next, and in whose turn. -/
structure Turn where
  user : User
  move : Move

namespace Shared

/-- The second session is brought up on the machine as the first leaves it. -/
def broughtUp? (p : Platform) (config : User → Config) : Option Shared :=
  match (Session.bringUp p.transport (config .first)).run answer p with
  | (some first, q) =>
    match (Session.bringUp q.transport (config .second)).run answer q with
    | (some second, r) => some ⟨fun | .first => first | .second => second, r⟩
    | _ => none
  | _ => none

/-- The machine as one of the sessions sees it. -/
def bench (s : Shared) (u : User) : Bench := ⟨s.session u, s.machine⟩

def step (s : Shared) (t : Turn) : Shared :=
  let w := (s.bench t.user).step t.move
  ⟨fun u => if u = t.user then w.session else s.session u, w.machine⟩

def after (s : Shared) (turns : List Turn) : Shared := turns.foldl step s

variable {p : Platform} {config : User → Config} {s : Shared} {u : User}

theorem startedOn_of_broughtUp (hs : broughtUp? p config = some s) :
    ∃ q, (⟨s.session .first, q⟩ : Bench).StartedOn p (config .first) ∧
      (s.bench .second).StartedOn q (config .second) := by
  unfold broughtUp? at hs
  split at hs
  · rename_i first q hfirst
    split at hs
    · rename_i second r hsecond
      obtain rfl := Option.some.inj hs
      exact ⟨q, hfirst, hsecond⟩
    · cases hs
  · cases hs

theorem bench_step_self (s : Shared) (t : Turn) :
    (s.step t).bench t.user = (s.bench t.user).step t.move := by
  simp only [bench, step, if_true]

theorem bench_step_other {t : Turn} (hu : u ≠ t.user) :
    (s.step t).bench u = ⟨s.session u, ((s.bench t.user).step t.move).machine⟩ := by
  simp only [bench, step, if_neg hu]

/-- A session that is alone has the machine to itself. -/
theorem bench_after_alone {alone : List Turn} (h : ∀ t ∈ alone, t.user = u) :
    (s.after alone).bench u = (s.bench u).after (alone.map Turn.move) := by
  induction alone generalizing s with
  | nil => rfl
  | cons t alone ih =>
      obtain rfl := h t List.mem_cons_self
      have hrest := @ih (s.step t) fun t' ht' => h t' (List.mem_cons_of_mem _ ht')
      rw [bench_step_self] at hrest
      exact hrest

end Shared

/-! ## A page that was moved -/

namespace Shared

/-- The first byte of the module in the first slot, as the first session reads it after some turns
on a machine. -/
def readFirst (p : Platform) (turns : List Turn) : Option UInt8 := do
  let s ← broughtUp? p fun _ => {}
  (((s.after turns).bench .first).read 0 0).1.toOption

theorem exists_of_readFirst {p : Platform} {turns : List Turn} {value : UInt8}
    (h : readFirst p turns = some value) : ∃ s, broughtUp? p (fun _ => {}) = some s ∧
      (((s.after turns).bench .first).read 0 0).1 = .ok value := by
  obtain ⟨s, hs, hread⟩ := Option.bind_eq_some_iff.mp h
  refine ⟨s, hs, ?_⟩
  generalize (((s.after turns).bench .first).read 0 0).1 = r at hread
  cases r with
  | ok value => exact congrArg Except.ok (Option.some.inj hread)
  | error e => cases hread

end Shared

/-- The first session relies on the lower page, the second moves on to the upper one, and the first
takes a byte of the upper page for one of the lower. -/
theorem shared_read_stale_intelSample : ∃ s value,
    Shared.broughtUp? .intelSample (fun _ => {}) = some s ∧
    (((s.after [⟨.first, .job (.read 0 0)⟩, ⟨.second, .job (.read 0 0x100)⟩]).bench .first).read
      0 0).1 = .ok value ∧
    Platform.intelSample.storedByte? 0 0 ≠ some value := by
  have hread : Shared.readFirst .intelSample
      [⟨.first, .job (.read 0 0)⟩, ⟨.second, .job (.read 0 0x100)⟩] = some 0x9F := by
    rw [Platform.intelSample_eq]
    decide +kernel
  have hstored : Platform.intelSample.storedByte? 0 0 ≠ some 0x9F := by
    rw [Platform.intelSample_eq]
    decide +kernel
  obtain ⟨s, hs, hread⟩ := Shared.exists_of_readFirst hread
  exact ⟨s, 0x9F, hs, hread, hstored⟩

/-! ## What the sessions know -/

namespace Binding

variable {p : Platform} {config : User → Config} {s : Shared} {g₀ : Segment} {b : User → Binding}
  {q : Platform}

/-- Bindings to one machine. -/
def Alike (b : User → Binding) (q : Platform) : Prop := ∀ u, (b u).machine = q ∧ (b u).held = true

theorem Alike.holds (hb : Alike b q) (u u' : User) {faults : List Fault} {locked : Bool}
    (h : (b u).Holds faults locked p) : (b u').Holds faults locked p where
  stands := by
    rw [(hb u').1, ← (hb u).1]
    exact h.stands
  tidy := by
    rw [(hb u').2, ← (hb u).2]
    exact h.tidy
  faults := h.faults
  lock := h.lock

/-- Whoever's turn it is, both sessions still know the modules. -/
theorem Alike.step (hb : Alike b q) (hg : g₀.Telling) (hs : ∀ u, (b u).Knowing g₀ (s.bench u))
    (t : Turn) (u : User) : (b u).Knowing g₀ ((s.step t).bench u) := by
  have hturn : (b t.user).Knowing g₀ ((s.bench t.user).step t.move) :=
    (hs t.user).step hg.recognisable (.inl (hb t.user).2)
  by_cases hu : u = t.user
  · subst hu
    rw [Shared.bench_step_self]
    exact hturn
  · -- The machine has gone on under this session, which is why nothing is kept about its page.
    rw [Shared.bench_step_other hu]
    obtain ⟨-, hholds, hknows⟩ := hturn
    exact ⟨(hs u).1, hb.holds t.user u hholds, hknows.lasting, hknows.page, (hs u).2.knows.modules,
      (hs u).2.knows.codes⟩

theorem Alike.after (hb : Alike b q) (hg : g₀.Telling) (hs : ∀ u, (b u).Knowing g₀ (s.bench u))
    (turns : List Turn) (u : User) : (b u).Knowing g₀ ((s.after turns).bench u) := by
  induction turns generalizing s with
  | nil => exact hs u
  | cons t turns ih => exact ih (hb.step hg hs t)

theorem exists_alike (ha : p.Assembled) (hs : Shared.broughtUp? p config = some s) :
    ∃ (b : User → Binding) (q : Platform), Alike b q ∧
      ∀ u, (b u).Knowing p.segment (s.bench u) := by
  obtain ⟨q, hfirst, hsecond⟩ := Shared.startedOn_of_broughtUp hs
  obtain ⟨b₁, haware₁, -, -, rfl, -, hu⟩ := exists_aware_of_laid ha.laid ha.telling.2 hfirst
  have hl := hu.laid ha.laid
  have hpage : q.segment.page ≤ 1 := hu.segment ▸ ha.telling.2
  obtain ⟨b₂, haware₂, hheld₂, -, hmachine₂, -, hu₂⟩ := exists_aware_of_laid hl hpage hsecond
  -- The second bring-up is on the machine as the first leaves it, so both are tied to that one.
  let b : User → Binding
    | .first => ⟨b₁.link, q, true, hl.wired, b₁.fits.stands hu.stands⟩
    | .second => b₂
  have hb : Alike b q := fun u => by
    cases u with
    | first => exact ⟨rfl, rfl⟩
    | second => exact ⟨hmachine₂, hheld₂⟩
  have hknows₂ := haware₂.2.knows
  rw [hu.segment] at hknows₂
  refine ⟨b, q, hb, fun u => ?_⟩
  have hholds : (b .second).Holds s.machine.faults false s.machine := haware₂.2.holds
  cases u with
  | first =>
      refine ⟨haware₁.1, hb.holds .second .first hholds, ?_⟩
      have hsame : s.machine.segment = q.segment := hu₂.segment
      change Memory.Knows _ _ s.machine.segment
      rw [hsame]
      exact haware₁.2.knows
  | second => exact ⟨haware₂.1, hholds, hknows₂⟩

end Binding

/-- Two sessions are brought up on an assembled machine and take turns in any way. Each of them is
right about the modules that it remembers. Once the page that it relies on is shown, and as long as
it is alone after that, a byte that it reads is the one that the module has stored from the
beginning. -/
theorem shared_reads_stored_byte {p : Platform} (ha : p.Assembled) {config : User → Config}
    {s : Shared} (hs : Shared.broughtUp? p config = some s) (turns : List Turn) (u : User) :
    (∀ slot found, ((s.after turns).session u).memory.module? slot = some found →
      p.segment.generation? (Spd.eepromAddress slot) = some found.generation) ∧
    (((s.after turns).session u).memory.Trusts (s.after turns).machine.segment →
      ∀ alone : List Turn, (∀ t ∈ alone, t.user = u) → ∀ slot address value,
        (((s.after (turns ++ alone)).bench u).read slot address).1 = .ok value →
          p.storedByte? slot address = some value) := by
  obtain ⟨b, q, hb, hknowing⟩ := Binding.exists_alike ha hs
  have hg := ha.telling.1
  have hafter := hb.after hg hknowing turns u
  refine ⟨hafter.2.knows.modules, fun htrusts alone halone slot address value hr => ?_⟩
  have haware := (hafter.aware htrusts).after hg (hb u).2 (alone.map Turn.move)
  rw [← Shared.bench_after_alone halone] at haware
  have hread := haware.read hg slot address
  rw [Shared.after, List.foldl_append] at hr
  rw [Shared.after, Shared.after, hr] at hread
  rw [Platform.storedByte?_stored]
  exact hread

/-- A session that forgets what it knows is right again. -/
theorem shared_reads_stored_byte_intelSample : ∃ s value,
    Shared.broughtUp? .intelSample (fun _ => {}) = some s ∧
    (((s.after ([⟨.first, .job (.read 0 0)⟩, ⟨.second, .job (.read 0 0x100)⟩,
      ⟨.first, .job .forget⟩] ++ [⟨.first, .job (.probe 0)⟩])).bench .first).read 0 0).1 =
        .ok value ∧
    Platform.intelSample.storedByte? 0 0 = some value := by
  have hread : Shared.readFirst .intelSample ([⟨.first, .job (.read 0 0)⟩,
      ⟨.second, .job (.read 0 0x100)⟩, ⟨.first, .job .forget⟩] ++
        [⟨.first, .job (.probe 0)⟩]) = some 0x23 := by
    rw [Platform.intelSample_eq]
    decide +kernel
  obtain ⟨s, hs, hread⟩ := Shared.exists_of_readFirst hread
  refine ⟨s, 0x23, hs, hread, ?_⟩
  refine (shared_reads_stored_byte Platform.hosted_intelSample.assembled hs _ .first).2
    (Binding.trusts_of_none rfl) _ (fun t ht => ?_) 0 0 0x23 hread
  rw [List.mem_singleton.mp ht]

end DimmBus
