import DimmBus.Proofs.Operations
import DimmBus.Proofs.Ports
import DimmBus.Session

/-!
# Work on any machine

What an operation comes to on a machine of which nothing is known but how it answers each request.
Each way of putting work together has its equation.
-/

namespace DimmBus

namespace Session

variable {σ α β : Type} {answer : (request : Request) → σ → request.Answer × σ} {link : Link}
  {w : Memory × σ}

/-- The result of an operation and what it leaves: what is remembered, and the machine. -/
def runOn (answer : (request : Request) → σ → request.Answer × σ) (x : Operation α)
    (w : Memory × σ) : Except Error α × Memory × σ :=
  let ((result, memory), machine) := (x.run.run w.1).run answer w.2
  (result, memory, machine)

/-- Continues with a result; a failure is the end. -/
def andThen (run : β → Memory × σ → Except Error α × Memory × σ) :
    Except Error β × Memory × σ → Except Error α × Memory × σ
  | (.ok value, w) => run value w
  | (.error e, w) => (.error e, w)

@[simp]
theorem runOn_pure (a : α) : runOn answer (pure a) w = (.ok a, w) := rfl

@[simp]
theorem runOn_get : runOn answer (get : Operation Memory) w = (.ok w.1, w) := rfl

theorem runOn_bind (x : Operation β) (f : β → Operation α) :
    runOn answer (x >>= f) w = andThen (fun b => runOn answer (f b)) (runOn answer x w) := by
  unfold runOn andThen
  rw [ExceptT.run_bind, StateT.run_bind, Access.run_bind]
  rcases (x.run.run w.1).run answer w.2 with ⟨⟨e | b, m⟩, s⟩ <;> rfl

theorem runOn_outcome (x : Operation α) :
    runOn answer (outcome x) w = (.ok (runOn answer x w).1, (runOn answer x w).2) := by
  unfold runOn outcome
  rw [ExceptT.run_lift, map_eq_pure_bind, StateT.run_bind, Access.run_bind]
  rfl

theorem runOn_access (x : Attempt α) : runOn answer (access x) w =
    ((x.run.run answer w.2).1, w.1, (x.run.run answer w.2).2) := by
  unfold runOn access
  have hrun : ((ExceptT.mk (StateT.lift x.run) : Operation α).run.run w.1).run answer w.2 =
      (((x.run.run answer w.2).1, w.1), (x.run.run answer w.2).2) := by
    change ((StateT.lift x.run : Step (Except Error α)).run w.1).run answer w.2 = _
    rw [StateT.run_lift, Access.run_bind]
    rfl
  rw [hrun]

theorem runOn_step (x : Step α) : runOn answer (step x) w =
    (.ok ((x.run w.1).run answer w.2).1.1, ((x.run w.1).run answer w.2).1.2,
      ((x.run w.1).run answer w.2).2) := by
  unfold runOn step
  rw [ExceptT.run_lift, map_eq_pure_bind, StateT.run_bind, Access.run_bind]
  rfl

@[simp]
theorem runOn_ofExcept (r : Except Error α) : runOn answer (ofExcept r) w = (r, w) := rfl

theorem runOn_adapt (x : Operation α) (f : Error → Error) : runOn answer (ExceptT.adapt f x) w =
    ((runOn answer x w).1.mapError f, (runOn answer x w).2) := by
  unfold runOn
  have hrun : (ExceptT.adapt f x).run = Except.mapError f <$> x.run := rfl
  rw [hrun, map_eq_pure_bind, StateT.run_bind, Access.run_bind]
  rfl

/-- The lock is asked for; if it is refused, that is all. -/
theorem runOn_locked (body : Operation α) : runOn answer (locked link body) w =
    match answer (.lock link.config.lockTimeoutUs) w.2 with
    | (.error e, machine) => (.error e, w.1, machine)
    | (.ok _, machine) =>
      let (result, memory, machine) := runOn answer body (w.1, machine)
      (result, memory, (answer .unlock machine).2) := by
  unfold locked
  rw [runOn_bind, runOn_access]
  have hlock : (Access.lock link.config.lockTimeoutUs).run.run answer w.2 =
      answer (.lock link.config.lockTimeoutUs) w.2 := rfl
  rw [hlock]
  rcases answer (.lock link.config.lockTimeoutUs) w.2 with ⟨e | _, machine⟩
  · rfl
  · dsimp only [andThen]
    rw [runOn_bind, runOn_outcome]
    dsimp only [andThen]
    rw [runOn_bind, runOn_outcome, runOn_access]
    rfl

/-! ## Modules that are known -/

/-- A module that is known is there without any access. -/
theorem runOn_known {slot : UInt8} {found : Module} {next : Generation → Operation α}
    (h : w.1.module? slot = some found) :
    runOn answer (confirmed link slot >>= next) w = runOn answer (next found.generation) w := by
  unfold runOn
  rw [ExceptT.run_bind, StateT.run_bind, confirmed_known h]
  rfl

/-- A byte of a module that is known: as often as it may be attempted, and a failure tells where. -/
theorem runOn_readSpd_known {slot : UInt8} {address : UInt16} {found : Module}
    (h : w.1.module? slot = some found) (ha : address < found.generation.size) :
    let g := found.generation
    let r := runOn answer (retrying link (readAttempt link g (Spd.eepromAddress slot)
      ⟨g.pageOf address, g.offsetOf address⟩)) w
    runOn answer (readSpd link slot address) w =
      (r.1.mapError (·.atSpd slot address .byteData), r.2) := by
  unfold readSpd
  rw [runOn_known h, runOn_bind, locate, Generation.locate?, if_pos ha, runOn_ofExcept]
  dsimp only [andThen]
  rw [runOn_adapt]

theorem runOn_thermalCapability_known {slot : UInt8} {found : Module} {available : Bool}
    (hf : w.1.module? slot = some found) (ht : found.thermal = some available) :
    runOn answer (thermalCapability link slot) w = (.ok available, w) := by
  unfold thermalCapability
  rw [runOn_known hf, runOn_bind, runOn_get]
  dsimp only [andThen]
  rw [hf, Option.bind_some, ht]
  rfl

/-- What confirming comes to where it is not known: the slot does not exist, or a probe tells. -/
theorem runOn_confirmed {slot : UInt8} (hs : slot.toNat < Spd.slotCount) :
    runOn answer (confirmed link slot) w =
      andThen (fun g? w => (g?.elim (.error (.noModule slot)) .ok, w))
        (runOn answer (step (probe link slot)) w) := by
  unfold confirmed
  rw [if_pos hs, runOn_bind]
  congr 1
  funext g? w
  cases g? <;> rfl

theorem runOn_confirmed_beyond {slot : UInt8} (hs : ¬slot.toNat < Spd.slotCount) :
    runOn answer (confirmed link slot) w = (.error (.param (.slot slot)), w) := by
  unfold confirmed
  rw [if_neg hs]
  rfl

end Session

/-! ## A machine that fails at times -/

/-- A machine that runs routines and fails some of the requests, counted from its start. -/
def Port.failing (failing : List Nat) : Port := fun past request =>
  let busy : Option Error := if past.length ∈ failing then some (.busy 0x41) else none
  match request with
  | .delegate .. => busy.elim (.ok [0x0C, 0, 0, 0, 0]) .error
  | .readIo8 _ | .readPci8 .. => busy.elim (.ok 0) .error
  | .readPci16 .. => busy.elim (.ok 0) .error
  | .readPci32 .. | .readMmio32 _ => busy.elim (.ok 0) .error
  | .sleep _ => ()
  | .writeIo8 .. | .writePci8 .. | .writePci16 .. | .writePci32 .. | .writeMmio8 .. | .lock _
  | .unlock => busy.elim (.ok ()) .error

/-- A session that knows a module, over a host that is reached through routines. -/
def Session.delegated (g : Generation) : Session :=
  ⟨⟨.ich ⟨{ (default : ControllerInfo) with transport := .delegated }, .ich⟩, {}⟩,
    Memory.empty.setModule 0 ⟨g, 0x0C, none⟩⟩

end DimmBus
