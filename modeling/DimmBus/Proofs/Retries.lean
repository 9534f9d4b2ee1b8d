import DimmBus.Proofs.Footprint
import DimmBus.Proofs.Machines
import DimmBus.Proofs.Reading
import DimmBus.Proofs.SlotTable

/-!
# Repeated attempts

A read of a module is attempted until it succeeds or fails for good, or as often as the session is
set to. No attempt relies on a page that an attempt before it has left behind.
-/

namespace DimmBus

open Session

namespace Session

variable {σ α β : Type}

/-! ## Attempts in turn -/

/-- No page is relied on. -/
def unlatched (w : Memory × σ) : Memory × σ := ({ w.1 with latch := none }, w.2)

/-- A failure that may pass. -/
def Passing (r : Except Error α) : Prop := ∃ e : Error, r = .error e ∧ e.isRetryable = true

/-- After a failure no page is relied on. -/
def concluded : Except Error α × Memory × σ → Except Error α × Memory × σ
  | (.ok value, w) => (.ok value, w)
  | (.error e, w) => (.error e, unlatched w)

section

variable (attempt : Memory × σ → Except Error α × Memory × σ) (w : Memory × σ)

/-- Where an attempt starts that comes after so many others. -/
def startAfter : Nat → Memory × σ
  | 0 => w
  | n + 1 => unlatched (attempt (startAfter n)).2

/-- What it comes to. -/
def attemptAfter (n : Nat) : Except Error α × Memory × σ := attempt (startAfter attempt w n)

/-- As many attempts fail in a way that may pass as come before the first that does not, or before
the last that there may be. -/
structure Undecided (further n : Nat) : Prop where
  within : n ≤ further
  passing : ∀ i < n, Passing (attemptAfter attempt w i).1
  decided : n = further ∨ ¬Passing (attemptAfter attempt w n).1

end

section

variable {attempt : Memory × σ → Except Error α × Memory × σ} {w : Memory × σ} {further n : Nat}
  {r : Except Error α × Memory × σ}

theorem startAfter_succ (n : Nat) :
    startAfter attempt w (n + 1) = startAfter attempt (unlatched (attempt w).2) n := by
  induction n with
  | zero => rfl
  | succ n ih => exact congrArg (fun w => unlatched (attempt w).2) ih

theorem attemptAfter_succ (n : Nat) :
    attemptAfter attempt w (n + 1) = attemptAfter attempt (unlatched (attempt w).2) n :=
  congrArg attempt (startAfter_succ n)

theorem latch_startAfter (hn : 0 < n) : (startAfter attempt w n).1.latch = none := by
  cases n with
  | zero => cases hn
  | succ n => rfl

theorem Undecided.zero (h : further = 0 ∨ ¬Passing (attempt w).1) :
    Undecided attempt w further 0 :=
  ⟨Nat.zero_le _, fun _ hi => absurd hi (Nat.not_lt_zero _), h.imp_left Eq.symm⟩

theorem Undecided.succ (hp : Passing (attempt w).1)
    (h : Undecided attempt (unlatched (attempt w).2) further n) :
    Undecided attempt w (further + 1) (n + 1) where
  within := Nat.succ_le_succ h.within
  passing i hi := by
    cases i with
    | zero => exact hp
    | succ i =>
        rw [attemptAfter_succ]
        exact h.passing i (Nat.lt_of_succ_lt_succ hi)
  decided := by
    rw [attemptAfter_succ]
    exact h.decided.imp_left (congrArg (· + 1))

theorem concluded_ok {value : α} (h : r.1 = .ok value) : concluded r = (.ok value, r.2) := by
  rcases r with ⟨_ | _, w⟩ <;> cases h
  rfl

theorem concluded_error {e : Error} (h : r.1 = .error e) :
    concluded r = (.error e, unlatched r.2) := by
  rcases r with ⟨_ | _, w⟩ <;> cases h
  rfl

theorem concluded_machine (r : Except Error α × Memory × σ) : (concluded r).2.2 = r.2.2 := by
  rcases r with ⟨_ | _, w⟩ <;> rfl

end

section

variable {answer : (request : Request) → σ → request.Answer × σ} {link : Link} {w : Memory × σ}

/-- What comes of repeating is what comes of the attempt that decides. -/
theorem runOn_retryingWithin (x : Operation α) (further : Nat) (w : Memory × σ) :
    ∃ n, Undecided (runOn answer x) w further n ∧
      runOn answer (retryingWithin x further) w =
        concluded (attemptAfter (runOn answer x) w n) := by
  -- The first attempt decides, or it is put in front of those that start where it has left off.
  induction further generalizing w with
  | zero =>
      refine ⟨0, .zero (.inl rfl), ?_⟩
      rw [retryingWithin, runOn_bind, runOn_outcome, attemptAfter, startAfter]
      rcases runOn answer x w with ⟨e | value, w₁⟩ <;> rfl
  | succ further ih =>
      rw [retryingWithin, runOn_bind, runOn_outcome]
      cases hr : (runOn answer x w).1 with
      | ok value =>
          refine ⟨0, .zero (.inr ?_), ?_⟩
          · rintro ⟨e, he, -⟩
            rw [hr] at he
            cases he
          · rw [attemptAfter, startAfter, ← Prod.eta (runOn answer x w), hr]
            rfl
      | error e =>
          dsimp only [andThen]
          rw [runOn_bind, runOn_step]
          dsimp only [andThen]
          by_cases he : e.isRetryable = true
          · obtain ⟨n, hn, hrun⟩ := ih (unlatched (runOn answer x w).2)
            refine ⟨n + 1, .succ ⟨e, hr, he⟩ hn, ?_⟩
            rw [if_pos he, attemptAfter_succ, ← hrun]
            rfl
          · refine ⟨0, .zero (.inr ?_), ?_⟩
            · rintro ⟨e', he', hpass⟩
              rw [hr] at he'
              cases he'
              exact he hpass
            · rw [if_neg he, attemptAfter, startAfter, ← Prod.eta (runOn answer x w), hr]
              rfl

end

/-! ## Calls of an attempt -/

def asksLock : Request → Bool
  | .lock _ => true
  | _ => false

/-- How often the lock was asked for. -/
def lockRequests (log : List Call) : Nat := log.countP fun call => asksLock call.request

/-- The operation neither takes the lock nor gives it back. -/
def Quiet (x : Operation α) : Prop := ∀ m, (x.run.run m).Only Request.Plain

theorem asksLock_of_plain {request : Request} (h : request.Plain) : asksLock request = false := by
  cases request with
  | lock _ => exact h.elim
  | _ => rfl

section

variable {x : Operation α} {r : Except Error α}

theorem Quiet.bind {y : Operation β} {f : β → Operation α} (hy : Quiet y)
    (hf : ∀ b, Quiet (f b)) : Quiet (y >>= f) := fun m => by
  rw [ExceptT.run_bind, StateT.run_bind]
  refine Access.Only.bind (hy m) fun ⟨r, m'⟩ => ?_
  cases r with
  | ok b => exact hf b m'
  | error e => trivial

theorem quiet_ofExcept : Quiet (ofExcept r) := fun _ => trivial

theorem quiet_access {x : Attempt α} (hx : x.Only Request.Plain) : Quiet (access x) := fun m => by
  change ((StateT.lift x.run : Step (Except Error α)).run m).Only Request.Plain
  rw [StateT.run_lift]
  exact Access.Only.bind hx fun _ => trivial

theorem Quiet.outcome (hx : Quiet x) : Quiet (outcome x) := fun m => by
  unfold Session.outcome
  rw [ExceptT.run_lift, map_eq_pure_bind, StateT.run_bind]
  exact Access.Only.bind (hx m) fun _ => trivial

theorem quiet_send (link : Link) (tx : Transaction) : Quiet (send link tx) :=
  .bind (.bind quiet_ofExcept fun _ => quiet_ofExcept) fun _ =>
    quiet_access (link.controller.only_transfer tx)

theorem quiet_readByte (link : Link) (slave command : UInt8) :
    Quiet (readByte link slave command) := by
  refine .bind (quiet_send link _) fun payload => ?_
  cases payload <;> exact fun _ => trivial

theorem quiet_selectPage (link : Link) (g : Generation) (slave page : UInt8) :
    Quiet (selectPage link g slave page) := by
  unfold selectPage
  split
  · exact fun _ => trivial
  · refine .bind (fun _ => trivial) fun m => ?_
    split
    · exact fun _ => trivial
    · refine .bind (quiet_send link _).outcome fun r => ?_
      cases r <;> exact fun _ => trivial

end

section

variable {port : Port} {link : Link} {w : Memory × List Call} {x body : Operation α}

theorem prefix_runOn (x : Operation α) : w.2 <+: (runOn port.answer x w).2.2 := by
  obtain ⟨calls, hrun, -⟩ := Access.Only.calls (Access.only_true (x.run.run w.1)) port w.2
  exact ⟨calls, hrun.symm⟩

theorem prefix_bind (y : Operation β) (f : β → Operation α) :
    (runOn port.answer y w).2.2 <+: (runOn port.answer (y >>= f) w).2.2 := by
  rw [runOn_bind]
  rcases runOn port.answer y w with ⟨e | b, w₁⟩
  · exact List.prefix_refl _
  · exact prefix_runOn (f b)

theorem prefix_retryingWithin (x : Operation α) (further : Nat) :
    (runOn port.answer x w).2.2 <+: (runOn port.answer (retryingWithin x further) w).2.2 := by
  have houtcome : (runOn port.answer (outcome x) w).2.2 = (runOn port.answer x w).2.2 := by
    rw [runOn_outcome]
  rw [← houtcome]
  cases further <;> exact prefix_bind _ _

theorem lockRequests_quiet (hx : Quiet x) :
    lockRequests (runOn port.answer x w).2.2 = lockRequests w.2 := by
  obtain ⟨calls, hrun, hplain⟩ := Access.Only.calls (hx w.1) port w.2
  have hlog : (runOn port.answer x w).2.2 = w.2 ++ calls := hrun
  rw [hlog, lockRequests, List.countP_append, lockRequests]
  refine Nat.add_eq_left.mpr (List.countP_eq_zero.mpr fun call hcall => ?_)
  rw [asksLock_of_plain (hplain call hcall)]
  exact Bool.false_ne_true

theorem lockRequests_concat (log : List Call) (call : Call) :
    lockRequests (log ++ [call]) = lockRequests log + lockRequests [call] := List.countP_append

theorem lockRequests_locked (hbody : Quiet body) :
    lockRequests (runOn port.answer (locked link body) w).2.2 = lockRequests w.2 + 1 := by
  rw [runOn_locked]
  dsimp only [Port.answer]
  cases hlent : port w.2 (.lock link.config.lockTimeoutUs) with
  | error e => exact lockRequests_concat w.2 _
  | ok _ =>
      dsimp only
      rw [lockRequests_concat, lockRequests_quiet hbody, lockRequests_concat]
      rfl

theorem locked_refused {e : Error} (h : port w.2 (.lock link.config.lockTimeoutUs) = .error e) :
    runOn port.answer (locked link body) w =
      (.error e, w.1, w.2 ++ [⟨.lock link.config.lockTimeoutUs, .error e⟩]) := by
  rw [runOn_locked]
  dsimp only [Port.answer]
  rw [h]

end

/-! ## Selections -/

/-- The operation begins with the selection of a page: it asks for the lock and, where that is lent,
runs the write that shows the page before anything else. -/
def Selects (port : Port) (link : Link) (g : Generation) (slot page : UInt8) (x : Operation α)
    (w : Memory × List Call) : Prop :=
  ∃ tx, pageSelect? g (Spd.eepromAddress slot) page = some tx ∧
    let (lent, asked) := port.answer (.lock link.config.lockTimeoutUs) w.2
    let log := (runOn port.answer x w).2.2
    asked <+: log ∧
      (lent = .ok () → ((link.controller.transfer tx).run.run port.answer asked).2 <+: log)

section

variable {port : Port} {link : Link} {g : Generation} {slot page : UInt8}
  {w : Memory × List Call} {x : Operation α} {y : Operation β}

theorem Selects.mono (h : Selects port link g slot page x w)
    (hlog : (runOn port.answer x w).2.2 <+: (runOn port.answer y w).2.2) :
    Selects port link g slot page y w := by
  obtain ⟨tx, ht, hasked, hfirst⟩ := h
  exact ⟨tx, ht, hasked.trans hlog, fun hlent => (hfirst hlent).trans hlog⟩

theorem Selects.retryingWithin (h : Selects port link g slot page x w) (further : Nat) :
    Selects port link g slot page (retryingWithin x further) w :=
  h.mono (prefix_retryingWithin x further)

theorem exists_pageSelect (hg : g.isPaged = true) (slave page : UInt8) :
    ∃ tx, pageSelect? g slave page = some tx := by
  cases g with
  | ddr3 => cases hg
  | ddr4 => exact ⟨_, rfl⟩
  | ddr5 => exact ⟨_, rfl⟩

theorem runOn_send {tx : Transaction} (ht : Binding.Plain tx) :
    runOn port.answer (send link tx) w = (((link.controller.transfer tx).run.run port.answer w.2).1,
      w.1, ((link.controller.transfer tx).run.run port.answer w.2).2) := by
  rw [send, accept, ht.valid, Binding.check_of_plain _ ht]
  exact runOn_access _

theorem prefix_selectPage {tx : Transaction} (hp : Binding.PageOf g page)
    (ht : pageSelect? g (Spd.eepromAddress slot) page = some tx) (hl : w.1.latch = none) :
    ((link.controller.transfer tx).run.run port.answer w.2).2 <+:
      (runOn port.answer (selectPage link g (Spd.eepromAddress slot) page) w).2.2 := by
  have hnone : ¬w.1.latch = some ⟨Spd.eepromAddress slot, page⟩ := by
    rw [hl]
    exact nofun
  have hsend : (runOn port.answer (outcome (send link tx)) w).2.2 =
      ((link.controller.transfer tx).run.run port.answer w.2).2 := by
    rw [runOn_outcome, runOn_send (Binding.plain_select hp ht)]
  unfold selectPage
  rw [ht, ← hsend]
  dsimp only
  rw [runOn_bind, runOn_get]
  dsimp only [andThen]
  rw [if_neg hnone]
  exact prefix_bind _ _

/-- Where no page is relied on, work on a page begins with its selection. -/
theorem selects_locked (hg : g.isPaged = true) (hp : Binding.PageOf g page)
    (hl : w.1.latch = none) (next : Operation α) :
    Selects port link g slot page (locked link do
      selectPage link g (Spd.eepromAddress slot) page
      next) w := by
  obtain ⟨tx, ht⟩ := exists_pageSelect hg (Spd.eepromAddress slot) page
  refine ⟨tx, ht, ?_⟩
  -- The calls of the selection stand behind the one for the lock and before the one that ends it.
  rw [runOn_locked]
  rcases port.answer (.lock link.config.lockTimeoutUs) w.2 with ⟨e | _, asked⟩
  · exact ⟨List.prefix_refl _, fun h => by cases h⟩
  · have hunlock : ∀ log, log <+: (port.answer .unlock log).2 := fun log => List.prefix_append log _
    have hstart := @prefix_runOn _ port (w.1, asked)
      (selectPage link g (Spd.eepromAddress slot) page >>= fun _ => next)
    refine ⟨hstart.trans (hunlock _), fun _ => ?_⟩
    exact ((@prefix_selectPage port link g slot page (w.1, asked) tx hp ht hl).trans
      (prefix_bind _ _)).trans (hunlock _)

theorem selects_readAttempt {address : UInt16} (hg : g.isPaged = true) (ha : address < g.size)
    (hl : w.1.latch = none) : Selects port link g slot (g.pageOf address)
      (readAttempt link g (Spd.eepromAddress slot) ⟨g.pageOf address, g.offsetOf address⟩) w := by
  have hlocate : g.locate? address = some ⟨g.pageOf address, g.offsetOf address⟩ := if_pos ha
  exact selects_locked hg (Binding.pageOf_location hlocate) hl _

theorem selects_readSpd {address : UInt16} (hw : w.1.Has slot g) (hg : g.isPaged = true)
    (ha : address < g.size) (hl : w.1.latch = none) :
    Selects port link g slot (g.pageOf address) (readSpd link slot address) w := by
  obtain ⟨found, hfound, rfl⟩ := Option.map_eq_some_iff.mp hw
  refine ((selects_readAttempt hg ha hl).retryingWithin link.config.retries.toNat).mono ?_
  rw [runOn_readSpd_known hfound ha]
  exact List.prefix_refl _

theorem selects_readTemperature {found : Module} (hf : w.1.module? slot = some found)
    (ht : found.thermal = some true) (hg : found.generation.isPaged = true)
    (hl : w.1.latch = none) :
    Selects port link found.generation slot 0 (readTemperature link slot) w := by
  let reading : Operation UInt16 := locked link do
    selectPage link found.generation (Spd.eepromAddress slot) 0
    readWord link (ThermalSensor.ofModule found.generation slot).reading
  have hreading : Selects port link found.generation slot 0 reading w :=
    selects_locked hg (Binding.pageOf_zero _) hl _
  refine (hreading.retryingWithin link.config.retries.toNat).mono ?_
  unfold readTemperature
  rw [runOn_known hf, runOn_bind, runOn_thermalCapability_known hf ht]
  dsimp only [andThen]
  rw [if_pos rfl]
  refine List.IsPrefix.trans ?_ (prefix_bind _ _)
  rw [runOn_adapt]
  exact List.prefix_refl _

end

/-- No page is relied on, so that work on the pages of a module begins with a selection. -/
structure Distrusts (port : Port) (link : Link) (w : Memory × List Call) : Prop where
  latch : w.1.latch = none
  read : ∀ slot g address, w.1.Has slot g → g.isPaged = true → address < g.size →
    Selects port link g slot (g.pageOf address) (readSpd link slot address) w
  temperature : ∀ slot found, w.1.module? slot = some found → found.thermal = some true →
    found.generation.isPaged = true →
      Selects port link found.generation slot 0 (readTemperature link slot) w

theorem distrusts_of_latch {port : Port} {link : Link} {w : Memory × List Call}
    (hl : w.1.latch = none) : Distrusts port link w :=
  ⟨hl, fun _ _ _ hw hg ha => selects_readSpd hw hg ha hl,
    fun _ _ hf ht hg => selects_readTemperature hf ht hg hl⟩

/-! ## Reads -/

theorem lockRequests_attemptAfter
    {attempt : Memory × List Call → Except Error α × Memory × List Call}
    (h : ∀ w, lockRequests (attempt w).2.2 = lockRequests w.2 + 1) (w : Memory × List Call)
    (n : Nat) : lockRequests (attemptAfter attempt w n).2.2 = lockRequests w.2 + (n + 1) := by
  induction n with
  | zero => exact h w
  | succ n ih => exact (h _).trans (congrArg (· + 1) ih)

/-- A read of a module that is known is attempted until an attempt succeeds or fails for good, or as
often as the session is set to, and the last attempt tells what comes of it. A refused lock is an
attempt, without any other access. Every attempt after the first relies on no page, and so begins
with a selection if the module has pages; so does what is done next after a failure. -/
theorem reads_retry_until_decided (port : Port) (link : Link) {slot : UInt8} {address : UInt16}
    {g : Generation} {w : Memory × List Call} (hknown : w.1.Has slot g)
    (haddress : address < g.size) :
    let attempt := readAttempt link g (Spd.eepromAddress slot)
      ⟨g.pageOf address, g.offsetOf address⟩
    let start := startAfter (runOn port.answer attempt) w
    let outcome := attemptAfter (runOn port.answer attempt) w
    let (result, w') := runOn port.answer (readSpd link slot address) w
    ∃ n, Undecided (runOn port.answer attempt) w link.config.retries.toNat n ∧
      (∀ value, (outcome n).1 = .ok value → result = .ok value ∧ w' = (outcome n).2) ∧
      (∀ e, (outcome n).1 = .error e →
        let reported : Error := .spd slot address .byteData e
        result = .error reported ∧ w' = unlatched (outcome n).2 ∧
          reported.isRetryable = e.isRetryable ∧ reported.isNak = e.isNak) ∧
      lockRequests w'.2 = lockRequests w.2 + (n + 1) ∧
      (∀ i e, port (start i).2 (.lock link.config.lockTimeoutUs) = .error e → outcome i =
        (.error e, (start i).1, (start i).2 ++ [⟨.lock link.config.lockTimeoutUs, .error e⟩])) ∧
      (∀ i, 0 < i → (start i).1.latch = none ∧
        (g.isPaged = true → Selects port link g slot (g.pageOf address) attempt (start i))) ∧
      ∀ e, result = .error e → Distrusts port link w' := by
  obtain ⟨found, hfound, rfl⟩ := Option.map_eq_some_iff.mp hknown
  intro attempt start outcome
  obtain ⟨n, hn, hrun⟩ := @runOn_retryingWithin _ _ port.answer attempt link.config.retries.toNat w
  have hread : runOn port.answer (readSpd link slot address) w =
      ((concluded (outcome n)).1.mapError (·.atSpd slot address .byteData),
        (concluded (outcome n)).2) := by
    rw [← hrun]
    exact runOn_readSpd_known hfound haddress
  have hlocks : lockRequests (outcome n).2.2 = lockRequests w.2 + (n + 1) :=
    lockRequests_attemptAfter (fun _ => lockRequests_locked
      ((quiet_selectPage link _ _ _).bind fun _ => quiet_readByte link _ _)) w n
  rw [hread]
  refine ⟨n, hn, fun value hv => ?_, fun e he => ?_, ?_, fun i e h => locked_refused h,
    fun i hi => ⟨latch_startAfter hi, fun hg =>
      selects_readAttempt hg haddress (latch_startAfter hi)⟩, fun e he => ?_⟩
  · rw [concluded_ok hv]
    exact ⟨rfl, rfl⟩
  · rw [concluded_error he]
    exact ⟨rfl, rfl, rfl, rfl⟩
  · rw [concluded_machine]
    exact hlocks
  · cases hv : (outcome n).1 with
    | ok value =>
        rw [concluded_ok hv] at he
        cases he
    | error cause =>
        rw [concluded_error hv]
        exact distrusts_of_latch rfl

/-- An attempt that moves the page and cannot read, and two that are refused the lock. -/
theorem reads_retry_until_decided_failing :
    ∃ w', runOn (Port.failing [2, 4, 5]).answer (readSpd (delegated .ddr4).link 0 0x155)
        ((delegated .ddr4).memory, []) = (.error (.spd 0 0x155 .byteData (.busy 0x41)), w') ∧
      lockRequests w'.2 = 3 ∧
      Distrusts (Port.failing [2, 4, 5]) (delegated .ddr4).link w' := by
  obtain ⟨w', hrun, hlocks⟩ : ∃ w', runOn (Port.failing [2, 4, 5]).answer
      (readSpd (delegated .ddr4).link 0 0x155) ((delegated .ddr4).memory, []) =
        (.error (.spd 0 0x155 .byteData (.busy 0x41)), w') ∧ lockRequests w'.2 = 3 :=
    ⟨_, rfl, rfl⟩
  have hretried := @reads_retry_until_decided (Port.failing [2, 4, 5]) (delegated .ddr4).link 0
    0x155 .ddr4 ((delegated .ddr4).memory, []) rfl (by decide)
  rw [hrun] at hretried
  obtain ⟨-, -, -, -, -, -, -, hdistrusts⟩ := hretried
  exact ⟨w', hrun, hlocks, hdistrusts _ rfl⟩

end Session

end DimmBus
