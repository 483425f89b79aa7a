/-!
Decimal and hexadecimal digits, and the whole numbers they write. A number is read from the left;
the first thing wrong with it is what is reported.
-/
namespace Jukebox

namespace Digits

def ofNat (n : Nat) : List Nat := if n < 10 then [n] else ofNat (n / 10) ++ [n % 10]

def toNat (digits : List Nat) : Nat := digits.foldl (fun value digit => value * 10 + digit) 0

def char (digit : Nat) : Char := Char.ofNat ('0'.toNat + digit)

def chars (digits : List Nat) : List Char := digits.map char

def ofChar? (c : Char) : Option Nat := if c.isDigit then some (c.toNat - '0'.toNat) else none

def span : List Char → List Nat × List Char
  | [] => ([], [])
  | c :: rest =>
    match ofChar? c with
    | some digit => (digit :: (span rest).1, (span rest).2)
    | none => ([], c :: rest)

def zeros (count : Nat) : List Nat := List.replicate count 0

/-- So many hexadecimal digits, in small letters, of the low end of a number. -/
def hex (width : Nat) (n : Nat) : List Char :=
  match width with
  | 0 => []
  | width + 1 => hex width (n / 16) ++ [Nat.digitChar (n % 16)]

theorem toNat_append_singleton (digits : List Nat) (digit : Nat) :
    toNat (digits ++ [digit]) = toNat digits * 10 + digit := by simp [toNat]

theorem toNat_ofNat (n : Nat) : toNat (ofNat n) = n := by
  fun_induction ofNat n with
  | case1 => simp [toNat]
  | case2 n h ih => rw [toNat_append_singleton, ih]; omega

end Digits

def decimal (n : Nat) : String := String.ofList (Digits.chars (Digits.ofNat n))

/-- What is wrong with the text of a whole number. -/
inductive NumeralError
  | empty
  | invalidDigit
  | tooLarge
deriving DecidableEq

def NumeralError.message : NumeralError → String
  | empty => "cannot parse integer from empty string"
  | invalidDigit => "invalid digit found in string"
  | tooLarge => "number too large to fit in target type"

namespace Numeral

def readOnto (bound value : Nat) : List Char → Except NumeralError Nat
  | [] => .ok value
  | c :: rest =>
    match Digits.ofChar? c with
    | none => .error .invalidDigit
    | some digit =>
      if value * 10 + digit ≤ bound then readOnto bound (value * 10 + digit) rest
      else .error .tooLarge

/-- A whole number up to a bound; a plus sign may stand in front, and leading zeros are allowed. -/
def read (bound : Nat) (text : String) : Except NumeralError Nat :=
  match text.toList with
  | [] => .error .empty
  | ['+'] => .error .invalidDigit
  | '+' :: rest => readOnto bound 0 rest
  | chars => readOnto bound 0 chars

def readWord? (text : String) : Option UInt64 :=
  match read (UInt64.size - 1) text with
  | .ok value => some (UInt64.ofNat value)
  | .error _ => none

end Numeral

end Jukebox
