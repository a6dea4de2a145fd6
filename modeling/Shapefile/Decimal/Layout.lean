import Shapefile.Decimal.Shortest

/-! How a number is written: when positionally and when with an exponent, and the texts of the
numbers that have no digits. -/

namespace Shapefile

/-- The decisions of a number format. -/
structure Layout where
  /-- Numbers whose first digit has at least this power of ten are written positionally. -/
  leastPositional : Int
  /-- Numbers whose first digit has at most this power of ten are written positionally. -/
  mostPositional : Int
  /-- The least number of digits of a written exponent. -/
  exponentWidth : Nat
  infinity : String
  nan : String

namespace Layout

/-- The digits of a decimal number without the zeros at their end, and the power of ten of the
first of them. -/
def significant (d : Decimal) : List Char × Int :=
  let digits := Nat.toDigits 10 d.digits
  ((digits.reverse.dropWhile (· == '0')).reverse, d.exponent + digits.length - 1)

/-- Positional text, always with a point and a digit on either side of it. -/
def positional (digits : List Char) (leading : Int) : List Char :=
  if leading < 0 then
    '0' :: '.' :: List.replicate (-leading - 1).toNat '0' ++ digits
  else
    let places := leading.toNat + 1
    let whole := digits.take places ++ List.replicate (places - digits.length) '0'
    let fraction := digits.drop places
    whole ++ '.' :: (if fraction.isEmpty then ['0'] else fraction)

/-- Text with one digit before the point and a signed exponent; the point is left out if no
digit follows it. -/
def scientific (width : Nat) (digits : List Char) (leading : Int) : List Char :=
  let fraction := digits.drop 1
  let exponent := Nat.toDigits 10 leading.natAbs
  digits.take 1 ++ (if fraction.isEmpty then [] else '.' :: fraction) ++
    'e' :: (if leading < 0 then '-' else '+') ::
      (List.replicate (width - exponent.length) '0' ++ exponent)

/-- The text of the size of a number. -/
def textOfSize (l : Layout) (x : Binary64) : List Char :=
  if x.magnitude = 0 then ['0', '.', '0']
  else
    let (digits, leading) := significant (Decimal.shortest x)
    if l.leastPositional ≤ leading ∧ leading ≤ l.mostPositional then positional digits leading
    else scientific l.exponentWidth digits leading

/-- The text of a number. A NaN has no sign. -/
def text (l : Layout) (x : Binary64) : String :=
  if x.isNaN then l.nan
  else
    let sign := if x.isNegative then "-" else ""
    if x.magnitude = Binary64.infiniteMagnitude then sign ++ l.infinity
    else sign ++ String.ofList (l.textOfSize x)

end Layout
end Shapefile
