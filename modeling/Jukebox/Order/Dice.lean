/-!
Sort keys and where they come from. A priority track has key 0; every other key is drawn from
`1, …, 2147483647`. The dice are an arbitrary stream of throws, of which some are already used, so
that a statement about all dice is a statement about all random draws.
-/
namespace Jukebox

def maxSortKey : Nat := 2147483647

/-- A stream of throws; the first `used` of them are spent. -/
structure Dice where
  throws : Nat → Nat
  used : Nat := 0

namespace Dice

def roll (dice : Dice) : Nat × Dice :=
  (1 + dice.throws dice.used % maxSortKey, { dice with used := dice.used + 1 })

theorem roll_pos (dice : Dice) : 0 < dice.roll.1 := by simp only [roll]; omega

/-- One step of a multiplicative word generator and its output mixing. -/
def scramble (word : UInt64) : UInt64 :=
  let z := word + 0x9e3779b97f4a7c15
  let z := (z ^^^ (z >>> 30)) * 0xbf58476d1ce4e5b9
  let z := (z ^^^ (z >>> 27)) * 0x94d049bb133111eb
  z ^^^ (z >>> 31)

def ofSeed (seed : UInt64) : Dice where
  throws n := (scramble (seed + 0x9e3779b97f4a7c15 * UInt64.ofNat n)).toNat

end Dice

end Jukebox
