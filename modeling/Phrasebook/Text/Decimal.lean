/-!
# Text/Decimal — whole numbers in decimal digits

`ofNat` and `ofInt` write a number with no leading zero, `toNat` reads digits from the left.
-/

namespace Phrasebook.Decimal

/-- The decimal digits of a number, the highest first. -/
def digits (n : Nat) : List Char := Nat.toDigits 10 n

/-- A number in decimal digits. -/
def ofNat (n : Nat) : String := String.ofList (digits n)

/-- An integer in decimal digits, a minus sign first if it is negative. -/
def ofInt : Int → String
  | .ofNat n => ofNat n
  | .negSucc n => "-" ++ ofNat (n + 1)

/-- The value of a decimal digit. -/
def digitValue (c : Char) : Nat := c.toNat - '0'.toNat

/-- The number that a run of decimal digits denotes; leading zeros do not matter. -/
def toNat (ds : List Char) : Nat := ds.foldl (fun n c => 10 * n + digitValue c) 0

end Phrasebook.Decimal
