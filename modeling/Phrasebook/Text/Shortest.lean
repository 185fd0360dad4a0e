import Phrasebook.Text.Decimal

/-!
# Text/Shortest — the fewest decimal digits that read back as a double

A double stands for every real that rounds to it, an interval around its value.  `decimal` looks for
a point of that interval on ever finer decimal grids, in exact integer arithmetic: the first grid
with a point in the interval wins, and of two points on it the nearer one.
-/

namespace Phrasebook

namespace Shortest

/-- A positive finite double as `mantissa · 2 ^ exponent`, with the least mantissa of its binade
marked, since the gap below it is half the gap above. -/
structure Binary where
  mantissa : Nat
  exponent : Int
  isLowest : Bool

/-- Mantissa and exponent of the magnitude of a double. -/
def decompose (value : Float) : Binary :=
  let bits := value.toBits.toNat
  let fraction := bits % Nat.pow 2 52
  let biased := bits / Nat.pow 2 52 % Nat.pow 2 11
  if biased = 0 then { mantissa := fraction, exponent := -1074, isLowest := false }
  else
    { mantissa := Nat.pow 2 52 + fraction, exponent := Int.ofNat biased - 1075,
      isLowest := decide (fraction = 0 ∧ 1 < biased) }

/-- The largest `k` with `10 ^ k ≤ num / den`, for a positive quotient. -/
def magnitude (num den : Nat) : Int :=
  if den ≤ num then (Decimal.digits (num / den)).length - 1
  else
    let ratio := den / num
    let guess : Int := -((Decimal.digits ratio).length : Int)
    if Nat.pow 10 (-(guess + 1)).toNat * num ≥ den then guess + 1
    else if Nat.pow 10 (-guess).toNat * num ≥ den then guess
    else guess - 1

/-- The value's interval and the value itself over one denominator: every real between `low` and
`high` rounds to the double, and the ends do so too if `closed`. -/
structure Interval where
  low : Nat
  value : Nat
  high : Nat
  den : Nat
  closed : Bool

/-- The reals that round to a double. -/
def Binary.interval (b : Binary) : Interval :=
  let scale : Nat := Nat.pow 2 b.exponent.toNat
  let below := if b.isLowest then 1 else 2
  ⟨(4 * b.mantissa - below) * scale, 4 * b.mantissa * scale, (4 * b.mantissa + 2) * scale,
    4 * Nat.pow 2 (-b.exponent).toNat, decide (b.mantissa % 2 = 0)⟩

/-- Whether the grid point `point · unitNum / unitDen` lies in the interval. -/
def Interval.contains (i : Interval) (point unitNum unitDen : Nat) : Bool :=
  let p := point * unitNum * i.den
  if i.closed then decide (i.low * unitDen ≤ p ∧ p ≤ i.high * unitDen)
  else decide (i.low * unitDen < p ∧ p < i.high * unitDen)

/-- The grid point with unit `10 ^ power` that lies in the interval and is nearest to the value, a
tie going to the even point. -/
def Interval.onGrid (i : Interval) (power : Int) : Option Nat :=
  let unitNum := Nat.pow 10 power.toNat
  let unitDen := Nat.pow 10 (-power).toNat
  let num := i.value * unitDen
  let den := i.den * unitNum
  let floor := num / den
  let twice := 2 * (num % den)
  let floorIsNearer := decide (twice < den ∨ (twice = den ∧ floor % 2 = 0))
  match i.contains floor unitNum unitDen, i.contains (floor + 1) unitNum unitDen with
  | true, true => some (if floorIsNearer then floor else floor + 1)
  | true, false => some floor
  | false, true => some (floor + 1)
  | false, false => none

/-- The first grid, from the coarsest on, that has a point in the interval. -/
def Interval.search (i : Interval) (power : Int) : Nat → Nat × Int
  | 0 => (i.value / i.den, 0)
  | steps + 1 =>
    match i.onGrid power with
    | some point => (point, power)
    | none => i.search (power - 1) steps

/-- A number without its trailing zeros, which move into the power of ten. -/
def stripZeros (power : Int) : Nat → Nat → Nat × Int
  | 0, n => (n, power)
  | fuel + 1, n => if n ≠ 0 ∧ n % 10 = 0 then stripZeros (power + 1) fuel (n / 10) else (n, power)

/-- The shortest decimal `n · 10 ^ k` that reads back as the magnitude of a positive double. -/
def decimal (value : Float) : Nat × Int :=
  let i := (decompose value).interval
  let (n, k) := i.search (magnitude i.value i.den + 1) 20
  stripZeros k 20 n

end Shortest

end Phrasebook
