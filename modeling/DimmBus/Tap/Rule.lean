import DimmBus.Access
/-!
# Rules for a tap

A rule names the requests it is about and what becomes of them.
-/

namespace DimmBus.Tap

/-- The kinds of request that a rule can be about. Pauses cannot be bent. -/
inductive Kind where
  | readIo8
  | writeIo8
  | readPci8
  | readPci16
  | readPci32
  | writePci8
  | writePci16
  | writePci32
  | readMmio32
  | writeMmio8
  | lock
  | unlock
  | delegate
deriving DecidableEq, Repr, Inhabited

/-- What becomes of a request. -/
inductive Effect where
  /-- It fails, and the machine does not see it. -/
  | fail (error : Error)
  /-- A write succeeds, and the machine does not see it. -/
  | drop
  /-- A routine answers these words, and the machine does not see the call. -/
  | answer (words : List UInt64)
  /-- A read is passed on; of its value the bits in `keep` are kept, then those in `set` are set. -/
  | alter (keep set : Nat)
deriving DecidableEq, Repr

/-- A rule. A condition that is left out holds of every request. -/
structure Rule where
  kind : Kind
  /-- I/O address, offset in configuration space, or physical address. -/
  address : Option Nat := none
  location : Option Pci.Address := none
  /-- The value that is written. -/
  value : Option Nat := none
  routine : Option String := none
  /-- How many requests of its kind are passed over first. -/
  skip : Nat := 0
  /-- How often it applies; none for ever. -/
  times : Option Nat := none
  effect : Effect
deriving DecidableEq, Repr

/-- The kind of a request. -/
def kind? : Request → Option Kind
  | .readIo8 _ => some .readIo8
  | .writeIo8 .. => some .writeIo8
  | .readPci8 .. => some .readPci8
  | .readPci16 .. => some .readPci16
  | .readPci32 .. => some .readPci32
  | .writePci8 .. => some .writePci8
  | .writePci16 .. => some .writePci16
  | .writePci32 .. => some .writePci32
  | .readMmio32 _ => some .readMmio32
  | .writeMmio8 .. => some .writeMmio8
  | .sleep _ => none
  | .lock _ => some .lock
  | .unlock => some .unlock
  | .delegate .. => some .delegate

/-- The address that a request names. -/
def address? : Request → Option Nat
  | .readIo8 address | .writeIo8 address _ => some address.toNat
  | .readPci8 _ offset | .readPci16 _ offset | .readPci32 _ offset => some offset.toNat
  | .writePci8 _ offset _ | .writePci16 _ offset _ | .writePci32 _ offset _ => some offset.toNat
  | .readMmio32 physical | .writeMmio8 physical _ => some physical.toNat
  | _ => none

/-- The PCI function that a request names. -/
def location? : Request → Option Pci.Address
  | .readPci8 location _ | .readPci16 location _ | .readPci32 location _ => some location
  | .writePci8 location _ _ | .writePci16 location _ _ | .writePci32 location _ _ => some location
  | _ => none

/-- The value that a request writes. -/
def value? : Request → Option Nat
  | .writeIo8 _ value | .writePci8 _ _ value | .writeMmio8 _ value => some value.toNat
  | .writePci16 _ _ value => some value.toNat
  | .writePci32 _ _ value => some value.toNat
  | _ => none

/-- The routine that a request runs. -/
def routine? : Request → Option String
  | .delegate routine _ _ => some routine
  | _ => none

/-- Whether a condition holds of an attribute; one that is given needs the attribute to be there. -/
def admits [DecidableEq α] (condition actual : Option α) : Bool :=
  condition.isNone || condition == actual

namespace Rule

/-- Whether a rule is about a request. -/
def concerns (r : Rule) (request : Request) : Bool :=
  kind? request == some r.kind && admits r.address (address? request) &&
    admits r.location (location? request) && admits r.value (value? request) &&
    admits r.routine (routine? request)

/-- Asks the rules in order, and counts the request at those that pass it over. The first that is
about it, has nothing left to skip and is not used up decides. -/
def decide? (request : Request) : List Rule → Option Effect × List Rule
  | [] => (none, [])
  | r :: rest =>
    if r.concerns request then
      if 0 < r.skip then
        let (effect, rest) := decide? request rest
        (effect, { r with skip := r.skip - 1 } :: rest)
      else
        match r.times with
        | none => (some r.effect, r :: rest)
        | some 0 =>
          let (effect, rest) := decide? request rest
          (effect, r :: rest)
        | some (n + 1) => (some r.effect, { r with times := some n } :: rest)
    else
      let (effect, rest) := decide? request rest
      (effect, r :: rest)

end Rule

end DimmBus.Tap
