/-!
# Tuning of a session
-/

namespace DimmBus

/-- A bounded wait: at most `retries` looks at the status, with a pause before each. -/
structure PollBudget where
  retries : UInt32
  quantumUs : UInt32
deriving DecidableEq, Repr, Inhabited

namespace PollBudget

/-- The longest time the wait can sleep, in microseconds. -/
def worstCaseUs (b : PollBudget) : Nat := b.retries.toNat * b.quantumUs.toNat

/-- Default wait for completion on Intel hosts. -/
def ich : PollBudget := ⟨800, 250⟩

/-- Default wait for completion on PIIX4-compatible hosts. -/
def piix4 : PollBudget := ⟨500, 250⟩

end PollBudget

/-- How much of a module a dump covers. -/
inductive DumpMode where
  /-- The identity, timing and manufacturing ranges. -/
  | compact
  /-- Every address of the module. -/
  | full
deriving DecidableEq, Repr, Inhabited

/-- What the user of a session can set. -/
structure Config where
  /-- How long to wait for the bus lock, in microseconds. -/
  lockTimeoutUs : Nat := 500000
  /-- Wait for completion on Intel hosts. -/
  ichPoll : PollBudget := .ich
  /-- Wait for completion on PIIX4-compatible hosts. -/
  piix4Poll : PollBudget := .piix4
  /-- Further attempts of a module access after a failure that may pass. -/
  retries : UInt8 := 2
  /-- Output of the host's bus multiplexer that leads to the modules. -/
  piix4Port : UInt8 := 0
  dumpMode : DumpMode := .compact
deriving DecidableEq, Repr, Inhabited

end DimmBus
