import Shapefile.Binary64

/-! The decimal number with the fewest digits that reads back as a given double, and of those with
as few digits the one nearest to it.

A double stands for the span of reals that round to it. On the grid of the multiples of `10 ^ p`
only the two neighbours of the double's value have to be tried: if any point of the grid is in
the span, one of them is. The grids are tried from coarse to fine, in exact arithmetic. -/

namespace Shapefile

/-- The decimal number `digits * 10 ^ exponent`. -/
structure Decimal where
  digits : Nat
  exponent : Int
deriving DecidableEq, Repr

namespace Decimal

/-- The reals that round to a double: from `low` to `high` around `middle`, all three counted
in units of `2 ^ unit`. The ends belong to the span if it is closed. -/
structure Span where
  low : Nat
  middle : Nat
  high : Nat
  unit : Int
  isClosed : Bool

/-- The span of a finite double other than zero. -/
def Span.ofBinary64 (x : Binary64) : Span :=
  let (m, q) := x.significand
  { low := 4 * m - (if x.isNarrowBelow then 1 else 2)
    middle := 4 * m
    high := 4 * m + 2
    unit := q - 2
    isClosed := m % 2 == 0 }

namespace Span

/-- Factors that bring multiples of `10 ^ p` and multiples of the unit to a common measure. -/
def factors (s : Span) (p : Int) : Nat × Nat :=
  (Nat.pow 10 p.toNat * Nat.pow 2 (-s.unit).toNat,
    Nat.pow 2 s.unit.toNat * Nat.pow 10 (-p).toNat)

/-- The decimal number `c * 10 ^ p` is in the span. -/
def holds (s : Span) (p : Int) (c : Nat) : Bool :=
  let (ten, two) := s.factors p
  if s.isClosed then decide (s.low * two ≤ c * ten ∧ c * ten ≤ s.high * two)
  else decide (s.low * two < c * ten ∧ c * ten < s.high * two)

/-- Of the multiples `c` and `c + 1` of `10 ^ p` around the middle the nearer one, and of two as
near the even one. -/
def nearer (s : Span) (p : Int) (c : Nat) : Nat :=
  let (ten, two) := s.factors p
  let below := s.middle * two - c * ten
  let above := (c + 1) * ten - s.middle * two
  if below < above then c
  else if above < below then c + 1
  else if c % 2 = 0 then c else c + 1

/-- The multiple of `10 ^ p` next below the middle, or the middle itself. -/
def floor (s : Span) (p : Int) : Nat :=
  let (ten, two) := s.factors p
  s.middle * two / ten

/-- The multiple of `10 ^ p` in the span that is nearest to the middle. -/
def pick (s : Span) (p : Int) : Option Nat :=
  let c := s.floor p
  if s.holds p c then
    if s.holds p (c + 1) then some (s.nearer p c) else some c
  else if s.holds p (c + 1) then some (c + 1)
  else none

/-- Tries the grids from `10 ^ p` on, each ten times as fine as the one before. -/
def search (s : Span) : (tries : Nat) → (p : Int) → Decimal
  | 0, p => ⟨s.nearer p (s.floor p), p⟩
  | tries + 1, p =>
    match s.pick p with
    | some c => ⟨c, p⟩
    | none => s.search tries (p - 1)

/-- The power of ten of the middle's first digit. -/
def leading (s : Span) : Int :=
  let num := s.middle * Nat.pow 2 s.unit.toNat
  let den := Nat.pow 2 (-s.unit).toNat
  if den ≤ num then ((Nat.toDigits 10 (num / den)).length : Int) - 1
  else -((Nat.toDigits 10 ((den - 1) / num)).length : Int)

end Span

/-- The shortest decimal number that reads back as `x`, finite and not zero. Its sign is left
out. Seventeen digits are enough for every double. -/
def shortest (x : Binary64) : Decimal :=
  let s := Span.ofBinary64 x
  s.search 16 s.leading

end Decimal
end Shapefile
