import Jukebox.Number.Binary
import Mathlib.Algebra.Order.Field.Power
import Mathlib.Algebra.Order.Field.Rat
import Mathlib.Data.Nat.Log
import Mathlib.Tactic.Linarith
import Mathlib.Tactic.NormNum
import Mathlib.Tactic.Positivity
import Mathlib.Tactic.Ring

/-!
Rounding never crosses a power of two. So a quotient is rounded to a number of the format if it
is not above the largest power of two that the format has, and the significand of what it is
rounded to has no more digits than the format allows.
-/
namespace Jukebox

/-- Of two opposite exponents one is a natural number. -/
theorem pow_toNat {base : ℚ} (hbase : base ≠ 0) (e : ℤ) :
    base ^ e.toNat = base ^ e * base ^ (-e).toNat := by
  rw [← zpow_natCast, ← zpow_natCast, ← zpow_add₀ hbase]
  congr 1
  omega

theorem scaled_le_iff {a b : ℕ} {e : ℤ} :
    a * 2 ^ e.toNat ≤ b * 2 ^ (-e).toNat ↔ (a : ℚ) * 2 ^ e ≤ b := by
  have hpos : (0 : ℚ) < 2 ^ (-e).toNat := by positivity
  rw [← Nat.cast_le (α := ℚ)]
  simp only [Nat.cast_mul, Nat.cast_pow, Nat.cast_ofNat, pow_toNat two_ne_zero e]
  rw [← mul_assoc, mul_le_mul_iff_left₀ hpos]

theorem le_scaled_iff {a b : ℕ} {e : ℤ} :
    b * 2 ^ (-e).toNat ≤ a * 2 ^ e.toNat ↔ (b : ℚ) ≤ a * 2 ^ e := by
  have hpos : (0 : ℚ) < 2 ^ (-e).toNat := by positivity
  rw [← Nat.cast_le (α := ℚ)]
  simp only [Nat.cast_mul, Nat.cast_pow, Nat.cast_ofNat, pow_toNat two_ne_zero e]
  rw [← mul_assoc, mul_le_mul_iff_left₀ hpos]

namespace Binary

def toRat (b : Binary) : ℚ := b.significand * 2 ^ b.exponent

theorem toRat_nonneg (b : Binary) : 0 ≤ b.toRat := by
  unfold toRat
  positivity

theorem quotient_den_pos (b : Binary) : 0 < b.quotient.2 := Nat.pow_pos (by decide)

theorem quotient_num_eq (b : Binary) : (b.quotient.1 : ℚ) = b.toRat * b.quotient.2 := by
  simp only [quotient, toRat, Nat.pow_eq, Nat.cast_mul, Nat.cast_pow, Nat.cast_ofNat,
    pow_toNat two_ne_zero b.exponent]
  ring

end Binary

namespace BinaryFormat

/-! ### The highest bit -/

section Magnitude

variable {num den : ℕ}

theorem magnitude_le (hnum : num ≠ 0) : (den : ℚ) * 2 ^ magnitude num den ≤ num := by
  unfold magnitude
  dsimp only
  split
  · next hguess => exact scaled_le_iff.mp hguess
  · have hhigh : (2 : ℚ) ^ num.log2 ≤ num := by exact_mod_cast Nat.log2_self_le hnum
    have hlow : (den : ℚ) < 2 ^ (den.log2 + 1) := by exact_mod_cast Nat.lt_log2_self
    have hpos : (0 : ℚ) < 2 ^ ((num.log2 : ℤ) - den.log2 - 1) := by positivity
    calc (den : ℚ) * 2 ^ ((num.log2 : ℤ) - den.log2 - 1)
        ≤ 2 ^ (den.log2 + 1) * 2 ^ ((num.log2 : ℤ) - den.log2 - 1) :=
          mul_le_mul_of_nonneg_right hlow.le hpos.le
      _ = 2 ^ num.log2 := by
          rw [← zpow_natCast, ← zpow_natCast, ← zpow_add₀ two_ne_zero]
          congr 1
          push_cast
          ring
      _ ≤ num := hhigh

theorem lt_magnitude (hden : den ≠ 0) : (num : ℚ) < den * 2 ^ (magnitude num den + 1) := by
  unfold magnitude
  dsimp only
  split
  · have hhigh : (num : ℚ) < 2 ^ (num.log2 + 1) := by exact_mod_cast Nat.lt_log2_self
    have hlow : (2 : ℚ) ^ den.log2 ≤ den := by exact_mod_cast Nat.log2_self_le hden
    have hpos : (0 : ℚ) < 2 ^ ((num.log2 : ℤ) - den.log2 + 1) := by positivity
    calc (num : ℚ) < 2 ^ (num.log2 + 1) := hhigh
      _ = 2 ^ den.log2 * 2 ^ ((num.log2 : ℤ) - den.log2 + 1) := by
          rw [← zpow_natCast, ← zpow_natCast, ← zpow_add₀ two_ne_zero]
          congr 1
          push_cast
          ring
      _ ≤ den * 2 ^ ((num.log2 : ℤ) - den.log2 + 1) :=
          mul_le_mul_of_nonneg_right hlow hpos.le
  · next hguess =>
    rw [sub_add_cancel]
    exact lt_of_not_ge fun hle => hguess (scaled_le_iff.mpr hle)

theorem magnitude_le_of_le (hnum : num ≠ 0) (hden : den ≠ 0) {k : ℤ}
    (h : (num : ℚ) ≤ den * 2 ^ k) : magnitude num den ≤ k := by
  have hpos : (0 : ℚ) < den := by exact_mod_cast Nat.pos_of_ne_zero hden
  have hmagnitude : (den : ℚ) * 2 ^ magnitude num den ≤ num := magnitude_le hnum
  have hle := hmagnitude.trans h
  rw [mul_le_mul_iff_right₀ hpos] at hle
  exact (zpow_le_zpow_iff_right₀ one_lt_two).mp hle

theorem le_magnitude_of_le (hden : den ≠ 0) {k : ℤ} (h : (den : ℚ) * 2 ^ k ≤ num) :
    k ≤ magnitude num den := by
  have hpos : (0 : ℚ) < den := by exact_mod_cast Nat.pos_of_ne_zero hden
  have hlt := h.trans_lt (lt_magnitude hden)
  rw [mul_lt_mul_iff_right₀ hpos] at hlt
  exact Int.lt_add_one_iff.mp ((zpow_lt_zpow_iff_right₀ one_lt_two).mp hlt)

end Magnitude

/-! ### The nearest whole number -/

theorem nearest_le {num den bound : ℕ} (hden : 0 < den) (h : num ≤ bound * den) :
    nearest num den ≤ bound := by
  have hsplit := Nat.div_add_mod num den
  have hfloor : num / den ≤ bound := Nat.div_le_of_le_mul (by rwa [Nat.mul_comm])
  unfold nearest
  dsimp only
  by_cases hwhole : num % den = 0
  · rw [if_pos (by omega)]
    exact hfloor
  · have hbelow : num / den < bound := by
      apply (Nat.div_lt_iff_lt_mul hden).mpr
      refine lt_of_le_of_ne h fun heq => hwhole ?_
      rw [heq]
      exact Nat.mul_mod_left bound den
    split
    · omega
    · split <;> omega

theorem le_nearest {num den bound : ℕ} (hden : 0 < den) (h : bound * den ≤ num) :
    bound ≤ nearest num den := by
  have hfloor : bound ≤ num / den := (Nat.le_div_iff_mul_le hden).mpr h
  unfold nearest
  dsimp only
  split
  · exact hfloor
  · split <;> omega

/-! ### Rounding -/

section Round

variable (format : BinaryFormat) (num den : ℕ)

/-- The exponent of the last place that is kept. -/
def place : ℤ := max (magnitude num den - (format.precision - 1 : ℤ)) format.minExponent

def units : ℕ :=
  nearest (num * 2 ^ (-format.place num den).toNat) (den * 2 ^ (format.place num den).toNat)

/-- The units as a number of the format; one more digit is a higher place. -/
def packed : Binary :=
  if format.units num den < 2 ^ format.precision then
    ⟨format.units num den, format.place num den⟩
  else ⟨format.units num den / 2, format.place num den + 1⟩

end Round

structure Sound (format : BinaryFormat) : Prop where
  precision_pos : 0 < format.precision
  exponents : format.minExponent ≤ format.maxExponent

theorem sound_single : single.Sound := ⟨by decide, by decide⟩

theorem sound_double : double.Sound := ⟨by decide, by decide⟩

variable {format : BinaryFormat} {num den : ℕ}

theorem round?_eq (hnum : num ≠ 0) :
    format.round? num den =
      if (format.packed num den).exponent ≤ format.maxExponent then some (format.packed num den)
      else none := by
  unfold round?
  rw [if_neg hnum]
  rfl

theorem units_le_of_le (hden : den ≠ 0) {bound : ℕ}
    (h : (num : ℚ) ≤ bound * (den * 2 ^ format.place num den)) :
    format.units num den ≤ bound := by
  apply nearest_le (Nat.mul_pos (Nat.pos_of_ne_zero hden) (Nat.pow_pos (by decide)))
  rw [← Nat.mul_assoc, le_scaled_iff, Nat.cast_mul, mul_assoc]
  exact h

theorem le_units_of_le (hden : den ≠ 0) {bound : ℕ}
    (h : (bound : ℚ) * (den * 2 ^ format.place num den) ≤ num) :
    bound ≤ format.units num den := by
  apply le_nearest (Nat.mul_pos (Nat.pos_of_ne_zero hden) (Nat.pow_pos (by decide)))
  rw [← Nat.mul_assoc, scaled_le_iff, Nat.cast_mul, mul_assoc]
  exact h

/-- There are no more digits than the format has, but for a power of two that is rounded up to. -/
theorem units_le (hden : den ≠ 0) : format.units num den ≤ 2 ^ format.precision := by
  apply units_le_of_le hden
  have hplace : magnitude num den + 1 ≤ format.precision + format.place num den := by
    unfold place
    omega
  have hpower : (2 : ℚ) ^ (magnitude num den + 1) ≤
      2 ^ format.precision * 2 ^ format.place num den := by
    rw [← zpow_natCast, ← zpow_add₀ two_ne_zero]
    exact zpow_le_zpow_right₀ one_le_two hplace
  calc (num : ℚ) ≤ den * 2 ^ (magnitude num den + 1) := (lt_magnitude hden).le
    _ ≤ den * (2 ^ format.precision * 2 ^ format.place num den) :=
        mul_le_mul_of_nonneg_left hpower (Nat.cast_nonneg den)
    _ = ((2 ^ format.precision : ℕ) : ℚ) * (den * 2 ^ format.place num den) := by
        push_cast
        ring

theorem packed_significand_lt (hden : den ≠ 0) :
    (format.packed num den).significand < 2 ^ format.precision := by
  have hunits : format.units num den ≤ 2 ^ format.precision := units_le hden
  have hpos : 0 < 2 ^ format.precision := Nat.pow_pos (by decide)
  unfold packed
  split
  · next hlt => exact hlt
  · dsimp only
    omega

section Bounds

variable (hsound : format.Sound)

include hsound

/-- Packing loses nothing. -/
theorem toRat_packed (hden : den ≠ 0) :
    (format.packed num den).toRat = format.units num den * 2 ^ format.place num den := by
  unfold packed
  split
  · rfl
  · next hlt =>
    have hfull : format.units num den = 2 ^ format.precision :=
      le_antisymm (units_le hden) (not_lt.mp hlt)
    have heven : 2 ∣ format.units num den := hfull ▸ dvd_pow_self 2 hsound.precision_pos.ne'
    have hhalf : ((format.units num den / 2 : ℕ) : ℚ) * 2 = format.units num den := by
      exact_mod_cast Nat.div_mul_cancel heven
    unfold Binary.toRat
    dsimp only
    rw [zpow_add_one₀ two_ne_zero, ← hhalf]
    ring

theorem place_le_of_le (hnum : num ≠ 0) (hden : den ≠ 0) {k : ℤ} (hk : format.minExponent ≤ k)
    (h : (num : ℚ) ≤ den * 2 ^ k) : format.place num den ≤ k := by
  have hmagnitude := magnitude_le_of_le hnum hden h
  have hprecision := hsound.precision_pos
  unfold place
  omega

/-- What is at most a power of two is rounded to at most that power. -/
theorem toRat_packed_le (hnum : num ≠ 0) (hden : den ≠ 0) {k : ℤ} (hk : format.minExponent ≤ k)
    (h : (num : ℚ) ≤ den * 2 ^ k) : (format.packed num den).toRat ≤ 2 ^ k := by
  obtain ⟨gap, hgap⟩ := Int.le.dest (place_le_of_le hsound hnum hden hk h)
  have hpower : (2 : ℚ) ^ k = 2 ^ gap * 2 ^ format.place num den := by
    rw [← hgap, zpow_add₀ two_ne_zero, zpow_natCast, mul_comm]
  have hunits : format.units num den ≤ 2 ^ gap := by
    apply units_le_of_le hden
    rw [hpower] at h
    calc (num : ℚ) ≤ den * (2 ^ gap * 2 ^ format.place num den) := h
      _ = ((2 ^ gap : ℕ) : ℚ) * (den * 2 ^ format.place num den) := by
          push_cast
          ring
  have hcast : (format.units num den : ℚ) ≤ 2 ^ gap := by exact_mod_cast hunits
  rw [toRat_packed hsound hden, hpower]
  exact mul_le_mul_of_nonneg_right hcast (by positivity)

/-- What is at least a power of two is rounded to at least that power. -/
theorem le_toRat_packed (hnum : num ≠ 0) (hden : den ≠ 0) {k : ℤ} (hk : format.minExponent ≤ k)
    (h : (den : ℚ) * 2 ^ k ≤ num) : 2 ^ k ≤ (format.packed num den).toRat := by
  have hmagnitude := le_magnitude_of_le hden h
  have hplace : format.place num den ≤ magnitude num den := by
    have hprecision := hsound.precision_pos
    unfold place
    omega
  obtain ⟨gap, hgap⟩ := Int.le.dest hplace
  have hpower : (2 : ℚ) ^ magnitude num den = 2 ^ gap * 2 ^ format.place num den := by
    rw [← hgap, zpow_add₀ two_ne_zero, zpow_natCast, mul_comm]
  have hunits : 2 ^ gap ≤ format.units num den := by
    apply le_units_of_le hden
    calc ((2 ^ gap : ℕ) : ℚ) * (den * 2 ^ format.place num den)
        = den * 2 ^ magnitude num den := by
          rw [hpower]
          push_cast
          ring
      _ ≤ num := magnitude_le hnum
  have hcast : (2 : ℚ) ^ gap ≤ format.units num den := by exact_mod_cast hunits
  rw [toRat_packed hsound hden]
  calc (2 : ℚ) ^ k ≤ 2 ^ magnitude num den := zpow_le_zpow_right₀ one_le_two hmagnitude
    _ = 2 ^ gap * 2 ^ format.place num den := hpower
    _ ≤ format.units num den * 2 ^ format.place num den :=
        mul_le_mul_of_nonneg_right hcast (by positivity)

theorem packed_exponent_le (hnum : num ≠ 0) (hden : den ≠ 0) {k : ℤ}
    (hmin : format.minExponent ≤ k) (hmax : k < format.maxExponent + format.precision)
    (h : (num : ℚ) ≤ den * 2 ^ k) : (format.packed num den).exponent ≤ format.maxExponent := by
  have hmagnitude := magnitude_le_of_le hnum hden h
  have hexponents := hsound.exponents
  by_cases hfull : format.units num den < 2 ^ format.precision
  · rw [packed, if_pos hfull]
    dsimp only [place]
    omega
  · have hbound := toRat_packed_le hsound hnum hden hmin h
    have hunits : format.units num den = 2 ^ format.precision :=
      le_antisymm (units_le hden) (not_lt.mp hfull)
    rw [toRat_packed hsound hden, hunits, Nat.cast_pow, Nat.cast_ofNat, ← zpow_natCast,
      ← zpow_add₀ two_ne_zero, zpow_le_zpow_iff_right₀ one_lt_two] at hbound
    rw [packed, if_neg hfull]
    dsimp only
    omega

/-- A quotient that is not above a power of two of the format is rounded to a number that is not
above it either. -/
theorem exists_round? (hden : den ≠ 0) {k : ℤ} (hmin : format.minExponent ≤ k)
    (hmax : k < format.maxExponent + format.precision) (h : (num : ℚ) ≤ den * 2 ^ k) :
    ∃ b, format.round? num den = some b ∧ b.toRat ≤ 2 ^ k := by
  by_cases hnum : num = 0
  · refine ⟨⟨0, format.minExponent⟩, by rw [round?, if_pos hnum], ?_⟩
    rw [Binary.toRat, Nat.cast_zero, zero_mul]
    positivity
  · refine ⟨format.packed num den, ?_, toRat_packed_le hsound hnum hden hmin h⟩
    rw [round?_eq hnum, if_pos (packed_exponent_le hsound hnum hden hmin hmax h)]

theorem le_toRat_of_round? {b : Binary} (hround : format.round? num den = some b) (hden : den ≠ 0)
    {k : ℤ} (hk : format.minExponent ≤ k) (h : (den : ℚ) * 2 ^ k ≤ num) : 2 ^ k ≤ b.toRat := by
  have hnum : num ≠ 0 := by
    rintro rfl
    have hpos : (0 : ℚ) < den := by exact_mod_cast Nat.pos_of_ne_zero hden
    have hproduct : (0 : ℚ) < den * 2 ^ k := by positivity
    exact absurd h (not_le.mpr (by rwa [Nat.cast_zero]))
  rw [round?_eq hnum] at hround
  split at hround
  · cases hround
    exact le_toRat_packed hsound hnum hden hk h
  · cases hround

theorem bounds_of_round? {b : Binary} (hround : format.round? num den = some b) (hden : den ≠ 0) :
    b.significand < 2 ^ format.precision ∧ b.exponent ≤ format.maxExponent := by
  by_cases hnum : num = 0
  · rw [round?, if_pos hnum] at hround
    cases hround
    exact ⟨Nat.pow_pos (by decide), hsound.exponents⟩
  · rw [round?_eq hnum] at hround
    split at hround
    · next hexponent =>
      cases hround
      exact ⟨packed_significand_lt hden, hexponent⟩
    · cases hround

end Bounds

end BinaryFormat

end Jukebox
