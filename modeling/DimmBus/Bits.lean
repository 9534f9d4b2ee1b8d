/-!
# Flags in a register
-/

namespace DimmBus

/-- Whether a register value has at least one of the mask's bits set. -/
def hasAny (value mask : UInt8) : Bool := value &&& mask != 0

end DimmBus
