import DimmBus.Controller.Ich
import DimmBus.Controller.Piix4
/-!
# Host controllers

The families in one type, and the search for a controller that works: Intel hosts first, then
PIIX4-compatible ones.
-/

namespace DimmBus

/-- A host controller in use. -/
inductive Controller where
  | ich (controller : Ich)
  | piix4 (controller : Piix4)
deriving DecidableEq, Repr, Inhabited

namespace Controller

def info : Controller → ControllerInfo
  | .ich c => c.info
  | .piix4 c => c.info

/-- Refuses what the controller cannot carry, without touching it. -/
def check : Controller → Transaction → Except Error Unit
  | .ich c, tx => c.check tx
  | .piix4 c, tx => c.check tx

/-- Runs one checked transaction. The caller holds the bus lock. -/
def transfer : Controller → Transaction → Attempt Payload
  | .ich c, tx => c.transfer tx
  | .piix4 c, tx => c.transfer tx

/-- Looks for a controller of a family. -/
def detect : Family → Transport → Attempt (Option Detected)
  | .ich, transport => Ich.detect transport
  | .piix4, transport => Piix4.detect transport

/-- Takes a controller of a family into use. -/
def init : Family → Transport → Detected → Config → Attempt Controller
  | .ich, transport, found, config => .ich <$> Ich.init transport found config
  | .piix4, transport, found, config => .piix4 <$> Piix4.init transport found config

/-- Looks for a controller of a family and takes it into use. -/
def bringUp (family : Family) (transport : Transport) (config : Config) :
    Attempt (Option Controller) := do
  match ← detect family transport with
  | some found => some <$> init family transport found config
  | none => return none

/-- The first controller that works, of the families in the order given. A family that has none, or
whose controller cannot be used, is passed over. -/
def probeFamilies (transport : Transport) (config : Config) :
    List Family → Access (Option Controller)
  | [] => return none
  | family :: rest => do
    match ← (bringUp family transport config).run with
    | .ok (some controller) => return some controller
    | _ => probeFamilies transport config rest

/-- The controller that a session uses. -/
def probe (transport : Transport) (config : Config) : Access (Option Controller) :=
  probeFamilies transport config [.ich, .piix4]

end Controller

end DimmBus
