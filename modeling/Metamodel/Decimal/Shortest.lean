/-!
# Shortest decimals

The text of a binary fraction is the shortest decimal that reads back as it, and of those the
nearest. `shortest` finds it on exact natural numbers: it walks through the decimal grids from
coarse to fine and stops at the first grid with a point that rounds to the fraction.
-/

namespace Metamodel.Decimal

/-- The positive number `mantissa * 2 ^ exponent` together with the reals that round to it. -/
structure Binary where
  mantissa : Nat
  exponent : Int
  /-- The next smaller number is only half as far away as the next larger one. -/
  narrowBelow : Bool
  deriving DecidableEq, Repr

/-- The positive number `digits * 10 ^ exponent`. -/
structure Scaled where
  digits : Nat
  exponent : Int
  deriving DecidableEq, Repr

/-- A quotient of natural numbers. -/
structure Ratio where
  num : Nat
  den : Nat
  deriving DecidableEq, Repr

/-- `base ^ exponent` as a quotient. -/
def Ratio.power (base : Nat) (exponent : Int) : Ratio :=
  if exponent < 0 then ⟨1, base.pow (-exponent).toNat⟩ else ⟨base.pow exponent.toNat, 1⟩

/-- A number measured in quarters of its last binary place, over the step of a decimal grid:
`quarters * 2 ^ (exponent - 2) / 10 ^ grid`. -/
def Binary.over (x : Binary) (quarters : Nat) (grid : Int) : Ratio :=
  let two := Ratio.power 2 (x.exponent - 2)
  let ten := Ratio.power 10 grid
  ⟨quarters * two.num * ten.den, two.den * ten.num⟩

/-- Whether the grid point `digits * 10 ^ grid` rounds to the number. The ends of the interval
belong to it when the mantissa is even. -/
def Binary.roundsFrom (x : Binary) (digits : Nat) (grid : Int) : Bool :=
  let low := x.over (4 * x.mantissa - if x.narrowBelow then 1 else 2) grid
  let high := x.over (4 * x.mantissa + 2) grid
  if x.mantissa % 2 = 0 then low.num ≤ digits * low.den && digits * high.den ≤ high.num
  else low.num < digits * low.den && digits * high.den < high.num

/-- The point of a decimal grid that rounds to the number, the nearer of two and the larger at
equal distance. -/
def Binary.onGrid? (x : Binary) (grid : Int) : Option Scaled :=
  let here := x.over (4 * x.mantissa) grid
  let below := here.num / here.den
  let closer :=
    if 2 * (here.num % here.den) < here.den then [below, below + 1] else [below + 1, below]
  (closer.find? (x.roundsFrom · grid)).map (⟨·, grid⟩)

/-- The first of `steps` grids, from `10 ^ grid` downward, that has a point for the number. -/
def Binary.firstOnGrids (x : Binary) : (steps : Nat) → (grid : Int) → Option Scaled
  | 0, _ => none
  | steps + 1, grid => (x.onGrid? grid).orElse fun _ => x.firstOnGrids steps (grid - 1)

/-- The coarsest grid that can have a point for a double. -/
def coarsestGrid : Int := 309

/-- The number of grids down to the one that tells the smallest doubles apart. -/
def gridCount : Nat := 634

/-- The shortest decimal that reads back as the number. -/
def Binary.shortest (x : Binary) : Scaled :=
  (x.firstOnGrids gridCount coarsestGrid).getD ⟨0, 0⟩

/-- The number of mantissas that share an exponent, two to the power of 52. -/
def mantissaCount : Nat := 0x10000000000000

/-- The bits of an infinity without its sign. -/
def infinityBits : Nat := 0x7ff0000000000000

/-- The bit of the sign, two to the power of 63. -/
def signBit : Nat := 0x8000000000000000

/-- Mantissa and exponent of the magnitude of a finite double. -/
def Binary.ofMagnitude (bits : Nat) : Binary :=
  let fraction : Nat := bits % mantissaCount
  let field : Nat := bits / mantissaCount
  if field = 0 then ⟨fraction, -1074, false⟩
  else ⟨mantissaCount + fraction, (field : Int) - 1075, fraction = 0 && 1 < field⟩

/-- A decimal in positional notation, with at least one digit on each side of the point. -/
def Scaled.positional (d : Scaled) : String :=
  let digits := (Nat.repr d.digits).toList
  if 0 ≤ d.exponent then
    String.ofList (digits ++ List.replicate d.exponent.toNat '0' ++ ['.', '0'])
  else
    let places := (-d.exponent).toNat
    let padded := List.replicate (places + 1 - digits.length) '0' ++ digits
    let whole := padded.length - places
    String.ofList (padded.take whole ++ ['.'] ++ padded.drop whole)

/-- The text of a double: the shortest decimal in positional notation, always with a point. -/
def text (x : Float) : String :=
  let bits := x.toBits.toNat
  let magnitude := bits % signBit
  if infinityBits < magnitude then "NaN"
  else
    let sign := if magnitude < bits then "-" else ""
    if magnitude = infinityBits then sign ++ "inf"
    else if magnitude = 0 then sign ++ "0.0"
    else sign ++ (Binary.ofMagnitude magnitude).shortest.positional

end Metamodel.Decimal
