import Jukebox.Json.Value

/-!
Singles in JSON text. They are written with the fewest digits that read back: in positions from
0.000001 up to thirteen digits before the point, else with an exponent; what is no number or
infinite becomes null. They are read through a double: the digits as far as they fit a 64-bit
word, scaled by a power of ten, and rounded at each step.
-/
namespace Jukebox

namespace Single

/-- Whole digits and fraction digits of `digits · 10 ^ exponent`, or a mantissa and an exponent. -/
def literal (negative : Bool) (digits : List Nat) (exponent : Int) : Json.Literal :=
  let point : Int := digits.length + exponent
  if 0 ≤ exponent ∧ point ≤ 13 then
    { negative, whole := digits ++ Digits.zeros exponent.toNat, fraction := [0] }
  else if 0 < point ∧ point ≤ 13 then
    { negative, whole := digits.take point.toNat, fraction := digits.drop point.toNat }
  else if -6 < point ∧ point ≤ 0 then
    { negative, whole := [0], fraction := Digits.zeros (-point).toNat ++ digits }
  else
    { negative, whole := digits.take 1, fraction := digits.drop 1
      exponent := some (point - 1 < 0, Digits.ofNat (point - 1).natAbs) }

def toJson (x : Single) : Json.Value :=
  if ! x.isFinite then .null
  else if x.size = 0 then
    .number { negative := x.isNegative, whole := [0], fraction := [0] }
  else
    let d := Shortest.decimalOf .even x.magnitude
    .number (literal x.isNegative (Digits.ofNat d.digits) d.exponent)

end Single

namespace Json

/-- The digits of a number as far as they fit a 64-bit word. -/
structure Significand where
  value : Nat
  /-- The power of ten that the value is still to be multiplied by. -/
  exponent : Int

/-- Read whole digits; from the first that does not fit on, they only count. -/
def wholeSignificand (value : Nat) : List Nat → Significand
  | [] => ⟨value, 0⟩
  | digit :: rest =>
    if value * 10 + digit < UInt64.size then wholeSignificand (value * 10 + digit) rest
    else ⟨value, rest.length + 1⟩

def addFraction (significand : Significand) : List Nat → Significand
  | [] => significand
  | digit :: rest =>
    if significand.value * 10 + digit < UInt64.size then
      addFraction ⟨significand.value * 10 + digit, significand.exponent - 1⟩ rest
    else significand

def powerOfTen (n : Nat) : Option Binary := BinaryFormat.double.round? (Nat.pow 10 n) 1

def divideByPower (x : Binary) (n : Nat) : Option Binary := do
  let power ← powerOfTen n
  let (num, den) := x.quotient
  let (powerNum, powerDen) := power.quotient
  BinaryFormat.double.round? (num * powerDen) (den * powerNum)

def multiplyByPower (x : Binary) (n : Nat) : Option Binary := do
  let power ← powerOfTen n
  let (num, den) := x.quotient
  let (powerNum, powerDen) := power.quotient
  BinaryFormat.double.round? (num * powerNum) (den * powerDen)

/-- Divide by a power of ten that may be larger than any double, in steps of `10 ^ 308`. -/
def divideInSteps : Nat → Binary → Nat → Option Binary
  | 0, x, _ => some x
  | fuel + 1, x, n =>
    if x.significand = 0 then some x
    else if n ≤ 308 then divideByPower x n
    else (divideByPower x 308).bind fun x => divideInSteps fuel x (n - 308)

/-- The double of a significand with its exponent; `none` if it is too large. After four steps
down even the largest significand has become zero. -/
def scaled (significand : Significand) : Option Binary := do
  let x ← BinaryFormat.double.round? significand.value 1
  if 0 ≤ significand.exponent then
    if significand.exponent ≤ 308 then multiplyByPower x significand.exponent.toNat
    else if x.significand = 0 then some x
    else none
  else divideInSteps 4 x (-significand.exponent).toNat

def maxExponent : Nat := 2147483647

def Literal.double? (literal : Literal) : Option Binary :=
  let significand := addFraction (wholeSignificand 0 literal.whole) literal.fraction
  match literal.exponent with
  | none => scaled significand
  | some (negative, digits) =>
    let exponent := Digits.toNat digits
    if maxExponent < exponent then
      if significand.value ≠ 0 && ! negative then none else some ⟨0, 0⟩
    else
      let shift : Int := if negative then -exponent else exponent
      scaled { significand with exponent := significand.exponent + shift }

/-- Whole numbers that fit a 64-bit word of their sign are rounded once, all others through a
double. Minus zero is the negative zero. -/
def Literal.single? (literal : Literal) : Option Single :=
  let whole := Digits.toNat literal.whole
  let plain := literal.fraction.isEmpty && literal.exponent.isNone
  let fits :=
    if literal.negative then 0 < whole && whole ≤ UInt64.size / 2 else whole < UInt64.size
  if plain && fits then
    some (Single.ofQuotient literal.negative whole 1)
  else
    literal.double?.map fun x => Single.ofQuotient literal.negative x.quotient.1 x.quotient.2

def Value.single? : Value → Option Single
  | .number literal => literal.single?
  | _ => none

end Json

end Jukebox
