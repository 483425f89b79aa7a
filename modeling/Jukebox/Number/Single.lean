import Jukebox.Number.Binary

/-!
Single-precision numbers, kept as their 32 bits so that every one of them, the negative zero and
the values that are no number included, is told apart. Comparison is that of the numbers: the two
zeros are equal and nothing compares with a value that is no number.
-/
namespace Jukebox

@[ext]
structure Single where
  bits : UInt32
deriving DecidableEq

namespace Single

def isNegative (x : Single) : Bool := 0x80000000 ≤ x.bits.toNat

def size (x : Single) : Nat := x.bits.toNat % 0x80000000

def isNaN (x : Single) : Bool := 0x7f800000 < x.size

def isInfinite (x : Single) : Bool := x.size = 0x7f800000

def isFinite (x : Single) : Bool := x.size < 0x7f800000

/-- A number that grows with the value, and is zero for both zeros. -/
def rank (x : Single) : Int := if x.isNegative then -x.size else x.size

def lt (a b : Single) : Bool := ! a.isNaN && ! b.isNaN && a.rank < b.rank

def le (a b : Single) : Bool := ! a.isNaN && ! b.isNaN && a.rank ≤ b.rank

/-- Raise to `low` what is less and lower to `high` what is greater; the rest stays, also what is
no number. -/
def clamp (x low high : Single) : Single :=
  let x := if x.lt low then low else x
  if high.lt x then high else x

def fractionCount : Nat := 0x800000

def magnitude (x : Single) : Binary :=
  let field : Nat := x.size / fractionCount
  let fraction : Nat := x.size % fractionCount
  if field = 0 then ⟨fraction, -149⟩ else ⟨fraction + fractionCount, Int.ofNat field - 150⟩

def ofSize (negative : Bool) (size : Nat) : Single :=
  ⟨UInt32.ofNat ((if negative then 0x80000000 else 0) + size)⟩

def infinity (negative : Bool) : Single := ofSize negative 0x7f800000

def nan : Single := ofSize false 0x7fc00000

def zero : Single := ofSize false 0

def one : Single := ofSize false 0x3f800000

def ofBinary (negative : Bool) (b : Binary) : Single :=
  if b.significand < fractionCount then ofSize negative b.significand
  else
    ofSize negative
      ((b.exponent + 150).toNat * fractionCount + (b.significand - fractionCount))

/-- The nearest single to a quotient; what is too large becomes infinite. -/
def ofQuotient (negative : Bool) (num den : Nat) : Single :=
  match BinaryFormat.single.round? num den with
  | some b => ofBinary negative b
  | none => infinity negative

def scale (x : Single) (factor : Nat) : Single :=
  if x.isFinite then
    let (num, den) := x.magnitude.quotient
    ofQuotient x.isNegative (num * factor) den
  else x

/-- The whole part as an unsigned 32-bit number: what is below zero or no number gives zero, what
is too large gives the largest. -/
def toWord (x : Single) : UInt32 :=
  if x.isNaN || x.isNegative then 0
  else if x.isInfinite then UInt32.ofNat (UInt32.size - 1)
  else UInt32.ofNat (min x.magnitude.floor (UInt32.size - 1))

theorem le_of_isNaN {a b : Single} (h : a.isNaN = true) : a.le b = false := by simp [le, h]

end Single

end Jukebox
