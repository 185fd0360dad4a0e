import Phrasebook.Text.Shortest

/-!
# Json/Number — numbers of a JSON text

A number is a whole number of 64 bits, signed or unsigned, or a double.  Doubles are written with
the fewest digits that read back as the same double (`Text/Shortest`); `magnitudeText` places the
point.
-/

namespace Phrasebook.Json

/-- A JSON number: whole numbers that fit in 64 bits stay whole, all others are doubles. -/
inductive Number where
  | whole (value : Int)
  | double (value : Float)
  deriving DecidableEq, Inhabited

namespace Number

/-- The nearest double. -/
def toDouble : Number → Float
  | whole value => Float.ofInt value
  | double value => value

end Number

/-- A double that is not negative: positional from five places after the point to sixteen before it,
with `.0` after a whole number, and with an exponent outside of that. -/
def magnitudeText (value : Float) : String :=
  if value == 0 then "0.0"
  else
    let (n, k) := Shortest.decimal value
    let ds := Decimal.digits n
    let point : Int := ds.length + k
    if 0 ≤ k ∧ point ≤ 16 then
      String.ofList (ds ++ List.replicate k.toNat '0') ++ ".0"
    else if 0 < point ∧ point ≤ 16 then
      String.ofList (ds.take point.toNat) ++ "." ++ String.ofList (ds.drop point.toNat)
    else if -5 < point ∧ point ≤ 0 then
      "0." ++ String.ofList (List.replicate (-point).toNat '0' ++ ds)
    else
      let exponent := point - 1
      let sign := if exponent < 0 then "-" else "+"
      let mantissa :=
        match ds with
        | [] => ""
        | [d] => String.ofList [d]
        | d :: rest => String.ofList (d :: '.' :: rest)
      mantissa ++ "e" ++ sign ++ Decimal.ofNat exponent.natAbs

/-- A double as text, a minus sign first if its sign bit is set. -/
def doubleText (value : Float) : String :=
  if value.toBits.toNat / Nat.pow 2 63 = 1 then "-" ++ magnitudeText value else magnitudeText value

/-- A number as JSON text. -/
def Number.text : Number → String
  | whole value => Decimal.ofInt value
  | double value => doubleText value

end Phrasebook.Json
