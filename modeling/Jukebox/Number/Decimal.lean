import Jukebox.Number.Shortest
import Jukebox.Text.Digits

/-!
Singles in plain decimal text. Writing uses the fewest digits that read back and never an
exponent; reading takes a sign, digits with at most one point, an exponent, and the names of
infinity and of what is no number.
-/
namespace Jukebox

namespace Single

def signText (negative : Bool) : List Char := if negative then ['-'] else []

/-- Digits with the point at its place and zeros where they are needed. -/
def positional (digits : List Nat) (exponent : Int) : List Char :=
  let point : Int := digits.length + exponent
  if 0 ≤ exponent then Digits.chars (digits ++ Digits.zeros exponent.toNat)
  else if 0 < point then
    Digits.chars (digits.take point.toNat) ++ '.' :: Digits.chars (digits.drop point.toNat)
  else '0' :: '.' :: Digits.chars (Digits.zeros (-point).toNat ++ digits)

def text (x : Single) : String :=
  if x.isNaN then "NaN"
  else String.ofList (signText x.isNegative ++
    if x.isInfinite then ['i', 'n', 'f']
    else if x.size = 0 then ['0']
    else
      let d := Shortest.decimalOf .up x.magnitude
      positional (Digits.ofNat d.digits) d.exponent)

/-- The single nearest to `digits · 10 ^ exponent`. Where the exponent alone decides that the
number is too large or too small, no power is computed. -/
def ofDecimal (negative : Bool) (digits : Nat) (exponent : Int) : Single :=
  let top : Int := (Digits.ofNat digits).length + exponent
  if digits = 0 ∨ top < -60 then ofSize negative 0
  else if 60 < top then infinity negative
  else ofQuotient negative (digits * Nat.pow 10 exponent.toNat) (Nat.pow 10 (-exponent).toNat)

/-- An exponent at the end of a number: a letter, a sign, digits. No text at all is exponent
zero. -/
def readExponent? : List Char → Option Int
  | [] => some 0
  | mark :: rest =>
    if mark = 'e' ∨ mark = 'E' then
      let (negative, rest) :=
        match rest with
        | '-' :: rest => (true, rest)
        | '+' :: rest => (false, rest)
        | rest => (false, rest)
      match Digits.span rest with
      | ([], _) => none
      | (digits, []) => some (if negative then -(Digits.toNat digits) else Digits.toNat digits)
      | _ => none
    else none

def spanFraction : List Char → List Nat × List Char
  | '.' :: rest => Digits.span rest
  | rest => ([], rest)

def readUnsigned? (negative : Bool) (chars : List Char) : Option Single :=
  let name := String.ofList (chars.map Char.toLower)
  if name = "inf" ∨ name = "infinity" then some (infinity negative)
  else if name = "nan" then some nan
  else
    let (whole, rest) := Digits.span chars
    let (fraction, rest) := spanFraction rest
    if whole.isEmpty && fraction.isEmpty then none
    else
      (readExponent? rest).map fun exponent =>
        ofDecimal negative (Digits.toNat (whole ++ fraction)) (exponent - fraction.length)

def read? (text : String) : Option Single :=
  match text.toList with
  | '-' :: rest => readUnsigned? true rest
  | '+' :: rest => readUnsigned? false rest
  | rest => readUnsigned? false rest

end Single

end Jukebox
