import DimmBus.Text.Blank
/-!
# Numbers on the command line

Decimal numbers, and hexadecimal ones behind `0x`. A plus sign may stand in front of the digits.
-/

namespace DimmBus.CommandLine

/-- Why a text is not a number. -/
inductive NumberFault where
  | empty
  | invalidDigit
  | tooLarge
deriving DecidableEq, Repr, Inhabited

def NumberFault.text : NumberFault → String
  | .empty => "cannot parse integer from empty string"
  | .invalidDigit => "invalid digit found in string"
  | .tooLarge => "number too large to fit in target type"

/-- Why a value is not what was asked for. -/
inductive BadValue where
  | notNumber (value : String) (fault : NumberFault)
  | notByte (value : String)
deriving DecidableEq, Repr

namespace Number

/-- The value of a digit. -/
def digit? (base : Nat) (c : Char) : Option Nat :=
  let value? :=
    if '0' ≤ c ∧ c ≤ '9' then some (c.toNat - '0'.toNat)
    else if 'a' ≤ c ∧ c ≤ 'z' then some (c.toNat - 'a'.toNat + 10)
    else if 'A' ≤ c ∧ c ≤ 'Z' then some (c.toNat - 'A'.toNat + 10)
    else none
  value?.filter (· < base)

/-- Reads digits behind those whose number is known. What is wrong first is reported. -/
def digits (base most known : Nat) : List Char → Except NumberFault Nat
  | [] => .ok known
  | c :: cs =>
    match digit? base c with
    | none => .error .invalidDigit
    | some d =>
      let value := known * base + d
      if most < value then .error .tooLarge else digits base most value cs

/-- The number that a text stands for, at most `most`. -/
def read (base most : Nat) : List Char → Except NumberFault Nat
  | [] => .error .empty
  | ['+'] => .error .invalidDigit
  | '+' :: cs => digits base most 0 cs
  | cs => digits base most 0 cs

/-- A whole number from 0 to `most`. In ranges within 63 bits a minus sign in front of zero is no
fault. -/
def whole? (most : Nat) (text : String) : Option Nat :=
  match text.toList with
  | '-' :: zeros =>
    if most < 0x8000000000000000 ∧ zeros ≠ [] ∧ zeros.all (· = '0') then some 0 else none
  | cs => (read 10 most cs).toOption

/-- The number that a text stands for, at most `most`; hexadecimal behind its mark. -/
def literal (most : Nat) : List Char → Except NumberFault Nat
  | '0' :: 'x' :: hex | '0' :: 'X' :: hex => read 16 most hex
  | cs => read 10 most cs

/-- A number of sixteen bits, with white space around it. -/
def word (text : String) : Except BadValue UInt16 :=
  let cs := Blank.trim text.toList
  match literal 0xFFFF cs with
  | .ok n => .ok (UInt16.ofNat n)
  | .error fault => .error (.notNumber (String.ofList cs) fault)

/-- A number of eight bits. -/
def byte (text : String) : Except BadValue UInt8 := do
  let value ← word text
  if 0xFF < value then throw (.notByte text) else return UInt8.ofNat value.toNat

/-- Numbers of eight bits with commas between them. -/
def bytes (text : String) : Except BadValue (List UInt8) :=
  (text.toList.splitOn ',').mapM fun part => byte (String.ofList part)

end Number

end DimmBus.CommandLine
