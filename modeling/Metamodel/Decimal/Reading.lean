/-!
# Reading decimals

The double nearest to a decimal. An exponent may be as large as the text likes, so the two ends
are decided by the number of digits before anything is multiplied out.
-/

namespace Metamodel.Decimal

/-- The double nearest to `digits * 10 ^ exponent`, none if it lies beyond all finite doubles. -/
def nearest? (digits : Nat) (exponent : Int) : Option Float :=
  if digits = 0 then some 0
  else
    let magnitude := ((Nat.repr digits).length : Int) + exponent
    if 310 < magnitude then none
    else if magnitude < -330 then some 0
    else
      let x := Float.ofScientific digits (exponent < 0) exponent.natAbs
      if x.isInf then none else some x

end Metamodel.Decimal
