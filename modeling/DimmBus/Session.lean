import DimmBus.Session.Thermal
/-!
# The life of a session
-/

namespace DimmBus

/-- A live handle on the bus. -/
structure Session where
  link : Link
  memory : Memory
deriving DecidableEq, Repr, Inhabited

namespace Session

/-- A session over the controller that is found, if one is. -/
def bringUp (transport : Transport) (config : Config) : Access (Option Session) := do
  match ← Controller.probe transport config with
  | some controller => return some ⟨⟨controller, config⟩, .empty⟩
  | none => return none

/-- Carries out a piece of work that cannot fail. -/
def perform (s : Session) (work : Link → Step α) : Access (α × Session) := do
  let (value, memory) ← (work s.link).run s.memory
  return (value, ⟨s.link, memory⟩)

/-- Carries out a piece of work that can fail. -/
def run (s : Session) (work : Link → Operation α) : Access (Except Error α × Session) :=
  s.perform fun link => (work link).run

def info (s : Session) : ControllerInfo := s.link.controller.info

def config (s : Session) : Config := s.link.config

/-- The module that is known to be in a slot. -/
def module? (s : Session) (slot : UInt8) : Option Module := s.memory.module? slot

/-- The same session with nothing remembered. -/
def forgotten (s : Session) : Session := ⟨s.link, .empty⟩

end Session

end DimmBus
