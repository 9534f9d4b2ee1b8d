/-!
# Decimal text with a fixed number of places

A quotient is rounded to the nearest value with that many places; a tie goes to the even neighbour.
-/

namespace DimmBus.Decimal

/-- The integer nearest to `num / den`, the even one of two. -/
def nearest (num den : Nat) : Nat :=
  let down := num / den
  let twice := 2 * (num % den)
  if twice < den then down
  else if den < twice then down + 1
  else if down % 2 = 0 then down else down + 1

/-- The text of `num / den` with `places` digits behind the point. -/
def fixed (places : Nat) (num : Int) (den : Nat) : String :=
  let one := Nat.pow 10 places
  let scaled := nearest (num.natAbs * one) den
  let fraction := (toString (scaled % one)).toList
  let sign := if num < 0 then "-" else ""
  sign ++ toString (scaled / one) ++ "." ++
    String.ofList (List.replicate (places - fraction.length) '0' ++ fraction)

end DimmBus.Decimal
