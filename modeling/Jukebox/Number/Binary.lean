/-!
Binary floating formats in exact arithmetic. A format has a number of significant bits and a least
and a greatest exponent; a quotient is rounded to the nearest number of the format, and a tie goes
to the even significand.
-/
namespace Jukebox

/-- The number `significand · 2 ^ exponent`. -/
structure Binary where
  significand : Nat
  exponent : Int
deriving DecidableEq

namespace Binary

def quotient (b : Binary) : Nat × Nat :=
  (b.significand * Nat.pow 2 b.exponent.toNat, Nat.pow 2 (-b.exponent).toNat)

def floor (b : Binary) : Nat := b.quotient.1 / b.quotient.2

end Binary

structure BinaryFormat where
  precision : Nat
  minExponent : Int
  maxExponent : Int

namespace BinaryFormat

def single : BinaryFormat where
  precision := 24
  minExponent := -149
  maxExponent := 104

def double : BinaryFormat where
  precision := 53
  minExponent := -1074
  maxExponent := 971

/-- The exponent of the highest bit of `num / den`, for positive parts. -/
def magnitude (num den : Nat) : Int :=
  let guess : Int := num.log2 - den.log2
  if den * Nat.pow 2 guess.toNat ≤ num * Nat.pow 2 (-guess).toNat then guess else guess - 1

/-- The nearest whole number to `num / den`; a tie goes to the even one. -/
def nearest (num den : Nat) : Nat :=
  let low := num / den
  let twice := 2 * (num % den)
  if twice < den then low
  else if den < twice then low + 1
  else low + low % 2

/-- The nearest number of the format to `num / den`; `none` if it is too large for the format. -/
def round? (format : BinaryFormat) (num den : Nat) : Option Binary :=
  if num = 0 then some ⟨0, format.minExponent⟩
  else
    let exponent := max (magnitude num den - (format.precision - 1 : Int)) format.minExponent
    let significand := nearest (num * Nat.pow 2 (-exponent).toNat) (den * Nat.pow 2 exponent.toNat)
    let rounded : Binary :=
      if significand < Nat.pow 2 format.precision then ⟨significand, exponent⟩
      else ⟨significand / 2, exponent + 1⟩
    if rounded.exponent ≤ format.maxExponent then some rounded else none

end BinaryFormat

end Jukebox
