/-!
# Transports
-/

namespace DimmBus

/-- How transactions reach the hardware. -/
inductive Transport where
  /-- The controller's registers are programmed from here. -/
  | direct
  /-- A routine on the other side of a call runs whole transactions. -/
  | delegated
deriving DecidableEq, Repr, Inhabited

def Transport.text : Transport → String
  | .direct => "direct"
  | .delegated => "delegated"

end DimmBus
