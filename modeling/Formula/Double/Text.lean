import Formula.Double.Shortest

/-!
# The text of a double

A magnitude that is zero or lies in `[1e-3, 1e7)` is written with a point and at least one digit
after it; every other finite magnitude is written with one digit before the point and a power of
ten after an `E`. Both forms have the fewest digits that read back.

## Main definitions

* `Decimal.positional`, `Decimal.scientific` — the two layouts
* `Double.isPlain` — is a magnitude written without a power of ten?
* `Double.text` — the text of a double
-/

namespace Formula

/-- The decimal digits of a whole number, without a leading zero except for zero itself. -/
def digitText (n : Nat) : String := String.ofList (Nat.toDigits 10 n)

/-- The number `digits / 10 ^ places` with a point, and at least one digit on either side of it. -/
def pointed (digits places : Nat) : String :=
  digitText (digits / 10 ^ places) ++ "." ++
    String.ofList ((Nat.toDigits 10 (digits % 10 ^ places)).leftpad places '0')

/-- A whole number with a minus sign if it is below zero. -/
def signedText (n : Int) : String := (if n < 0 then "-" else "") ++ digitText n.natAbs

namespace Decimal

/-- All digits at their places, without a power of ten. -/
def positional (d : Decimal) : String :=
  pointed (d.digits * 10 ^ d.exponent.toNat) (-d.exponent).toNat

/-- One digit before the point, then a power of ten. -/
def scientific (d : Decimal) : String :=
  let places := (Nat.toDigits 10 d.digits).length - 1
  pointed d.digits places ++ "E" ++ signedText (d.exponent + places)

end Decimal

namespace Double

/-- Is the magnitude of `rank` zero or in `[1e-3, 1e7)`? -/
def isPlain (rank : Nat) : Bool :=
  decide (rank = 0 ∨ 2 ^ 1074 ≤ 1000 * units rank ∧ units rank < 10 ^ 7 * 2 ^ 1074)

/-- The text of the finite magnitude of `rank`. -/
def magnitudeText (rank : Nat) : String :=
  if rank = 0 then pointed 0 0
  else if isPlain rank then (shortest rank).positional
  else (shortest rank).scientific

/-- The text of a double. -/
def text (x : Double) : String :=
  if x.isNaN then "NaN"
  else
    (if x.negative then "-" else "") ++
      if x.rank = infinityRank then "Infinity" else magnitudeText x.rank

end Double

end Formula
