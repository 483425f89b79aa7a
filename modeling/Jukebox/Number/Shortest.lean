import Jukebox.Number.Single

/-!
The shortest decimal that reads back as a single. The decimals that read back are those of an
interval around the number; on the coarsest decimal grid with a point in the interval, the nearest
such point is chosen.
-/
namespace Jukebox.Shortest

/-- Which of two equally near decimals is chosen. -/
inductive Tie
  | up
  | even

/-- The number `digits · 10 ^ exponent`. -/
structure Decimal where
  digits : Nat
  exponent : Int

/-- The decimals that read back as one number, in quarters of the gap above it. -/
structure Interval where
  low : Nat
  middle : Nat
  high : Nat
  /-- Both ends belong to the interval. -/
  closed : Bool
  /-- The exponent of two of a quarter gap. -/
  unit : Int

/-- What rounds to the number. Below a power of two the gap is half of that above, unless the
number is among the smallest. -/
def Interval.around (b : Binary) : Interval where
  low :=
    4 * b.significand -
      if b.significand = Single.fractionCount ∧ -149 < b.exponent then 1 else 2
  middle := 4 * b.significand
  high := 4 * b.significand + 2
  closed := b.significand % 2 = 0
  unit := b.exponent - 2

def inside (interval : Interval) (scale point : Nat) : Bool :=
  if interval.closed then interval.low * scale ≤ point && point ≤ interval.high * scale
  else interval.low * scale < point && point < interval.high * scale

/-- The point of the grid of step `10 ^ exponent` in the interval that is nearest to its middle. -/
def onGrid (tie : Tie) (interval : Interval) (exponent : Int) : Option Decimal :=
  let step := Nat.pow 10 exponent.toNat * Nat.pow 2 (-interval.unit).toNat
  let scale := Nat.pow 10 (-exponent).toNat * Nat.pow 2 interval.unit.toNat
  let middle := interval.middle * scale
  let below := middle / step
  let above := below + 1
  match inside interval scale (below * step), inside interval scale (above * step) with
  | false, false => none
  | true, false => some ⟨below, exponent⟩
  | false, true => some ⟨above, exponent⟩
  | true, true =>
    let down := middle - below * step
    let up := above * step - middle
    if down < up then some ⟨below, exponent⟩
    else if up < down then some ⟨above, exponent⟩
    else
      match tie with
      | .up => some ⟨above, exponent⟩
      | .even => some ⟨below + below % 2, exponent⟩

/-- The exponents of the grids to be tried, coarsest first. -/
def gridExponents : List Int := (List.range 96).map fun (i : Nat) => 40 - (i : Int)

/-- The shortest decimal of a finite magnitude that is not zero. -/
def decimalOf (tie : Tie) (b : Binary) : Decimal :=
  (gridExponents.findSome? (onGrid tie (Interval.around b))).getD ⟨b.significand, 0⟩

end Jukebox.Shortest
