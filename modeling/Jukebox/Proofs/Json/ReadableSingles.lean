import Jukebox.Proofs.Json.Singles
import Jukebox.Proofs.Number.Rounding
import Jukebox.Proofs.Text.Numerals
import Mathlib.Tactic.FieldSimp

/-!
Every finite single is written as a number that can be read, and what is read is a number again.
Infinity and what is no number are written as null, which no number can be read from.
-/
namespace Jukebox

/-! ### Bits -/

namespace Single

theorem size_ofSize {size : ℕ} (h : size < 0x80000000) (negative : Bool) :
    (ofSize negative size).size = size := by
  have hword : (if negative = true then 0x80000000 else 0) + size < UInt32.size := by
    unfold UInt32.size
    split <;> omega
  unfold ofSize Single.size
  dsimp only
  rw [UInt32.toNat_ofNat_of_lt' hword]
  split <;> omega

theorem isNaN_ofSize {size : ℕ} (h : size ≤ 0x7f800000) (negative : Bool) :
    (ofSize negative size).isNaN = false := by
  have hsize := size_ofSize (Nat.lt_of_le_of_lt h (by decide)) negative
  rw [isNaN, hsize]
  exact decide_eq_false (Nat.not_lt.mpr h)

theorem isNaN_ofBinary {b : Binary} (hsignificand : b.significand < 2 ^ 24)
    (hexponent : b.exponent ≤ 104) (negative : Bool) : (ofBinary negative b).isNaN = false := by
  unfold ofBinary fractionCount
  split
  · exact isNaN_ofSize (by omega) negative
  · exact isNaN_ofSize (by omega) negative

/-- Rounding gives a number, or infinity. -/
theorem isNaN_ofQuotient {den : ℕ} (hden : den ≠ 0) (negative : Bool) (num : ℕ) :
    (ofQuotient negative num den).isNaN = false := by
  unfold ofQuotient
  cases hround : BinaryFormat.single.round? num den with
  | none => exact isNaN_ofSize (Nat.le_refl _) negative
  | some b =>
    obtain ⟨hsignificand, hexponent⟩ :=
      BinaryFormat.bounds_of_round? BinaryFormat.sound_single hround hden
    exact isNaN_ofBinary hsignificand hexponent negative

theorem magnitude_bounds {x : Single} (h : x.isFinite = true) :
    x.magnitude.significand < 2 ^ 24 ∧ x.magnitude.exponent ≤ 104 := by
  have hsize : x.size < 0x7f800000 := of_decide_eq_true h
  unfold magnitude fractionCount
  dsimp only
  split
  · constructor <;> dsimp only <;> omega
  · have hfield : x.size / 0x800000 ≤ 254 := by omega
    simp only [Int.ofNat_eq_natCast]
    omega

end Single

/-! ### The shortest decimal -/

namespace Shortest

def Decimal.toRat (d : Decimal) : ℚ := d.digits * 10 ^ d.exponent

theorem le_high_of_inside {interval : Interval} {scale point : ℕ}
    (h : inside interval scale point = true) : point ≤ interval.high * scale := by
  unfold inside at h
  split at h
  · simp only [Bool.and_eq_true, decide_eq_true_eq] at h
    exact h.2
  · simp only [Bool.and_eq_true, decide_eq_true_eq] at h
    exact h.2.le

theorem toRat_le_of_onGrid {tie : Tie} {interval : Interval} {exponent : ℤ} {d : Decimal}
    (h : onGrid tie interval exponent = some d) : d.toRat ≤ interval.high * 2 ^ interval.unit := by
  obtain ⟨hexponent, hinside⟩ := inside_of_onGrid h
  have hle : (d.digits * (10 ^ exponent.toNat * 2 ^ (-interval.unit).toNat) : ℚ) ≤
      interval.high * (10 ^ (-exponent).toNat * 2 ^ interval.unit.toNat) := by
    exact_mod_cast le_high_of_inside hinside
  have hpos : (0 : ℚ) < 10 ^ (-exponent).toNat * 2 ^ (-interval.unit).toNat := by positivity
  rw [pow_toNat (by norm_num) exponent, pow_toNat two_ne_zero interval.unit] at hle
  rw [Decimal.toRat, hexponent, ← mul_le_mul_iff_left₀ hpos]
  calc (d.digits : ℚ) * 10 ^ exponent * (10 ^ (-exponent).toNat * 2 ^ (-interval.unit).toNat)
      = d.digits * (10 ^ exponent * 10 ^ (-exponent).toNat * 2 ^ (-interval.unit).toNat) := by ring
    _ ≤ _ := hle
    _ = _ := by ring

/-- The shortest decimal of a single has its exponent among those of the grids, and is below
`10 ^ 41`. -/
theorem decimalOf_bounds (tie : Tie) {b : Binary} (hsignificand : b.significand < 2 ^ 24)
    (hexponent : b.exponent ≤ 104) :
    -55 ≤ (decimalOf tie b).exponent ∧ (decimalOf tie b).exponent ≤ 40 ∧
      (decimalOf tie b).toRat < 10 ^ 41 := by
  have hcast : (b.significand : ℚ) + 1 ≤ 2 ^ 24 := by exact_mod_cast hsignificand
  unfold decimalOf
  cases hfound : gridExponents.findSome? (onGrid tie (Interval.around b)) with
  | none =>
    -- the significand stands in where no grid would have a point
    refine ⟨by norm_num, by norm_num, ?_⟩
    rw [Option.getD_none, Decimal.toRat, zpow_zero, mul_one]
    exact lt_of_lt_of_le (lt_add_one _) (hcast.trans (by norm_num))
  | some d =>
    obtain ⟨exponent, hmem, hgrid⟩ := List.exists_of_findSome?_eq_some hfound
    obtain ⟨place, hplace, rfl⟩ := List.mem_map.mp hmem
    rw [List.mem_range] at hplace
    obtain ⟨hsame, -⟩ := inside_of_onGrid hgrid
    rw [Option.getD_some]
    refine ⟨by omega, by omega, ?_⟩
    have hpower : (2 : ℚ) ^ (b.exponent - 2) ≤ 2 ^ (102 : ℤ) :=
      zpow_le_zpow_right₀ one_le_two (by omega)
    have hhigh : ((Interval.around b).high : ℚ) ≤ 4 * 2 ^ 24 := by
      simp only [Interval.around]
      push_cast
      linarith
    calc d.toRat ≤ (Interval.around b).high * 2 ^ (b.exponent - 2) := toRat_le_of_onGrid hgrid
      _ ≤ 4 * 2 ^ 24 * 2 ^ (102 : ℤ) := mul_le_mul hhigh hpower (by positivity) (by positivity)
      _ < 10 ^ 41 := by norm_num

/-- So it has no more digits than reach up to there. -/
theorem length_decimalOf (tie : Tie) {b : Binary} (hsignificand : b.significand < 2 ^ 24)
    (hexponent : b.exponent ≤ 104) :
    ((Digits.ofNat (decimalOf tie b).digits).length : ℤ) ≤ 41 - (decimalOf tie b).exponent := by
  obtain ⟨-, hupper, hvalue⟩ := decimalOf_bounds tie hsignificand hexponent
  obtain ⟨width, hwidth⟩ := Int.eq_ofNat_of_zero_le
    (show 0 ≤ 41 - (decimalOf tie b).exponent by omega)
  have hdigits : (decimalOf tie b).digits < 10 ^ width := by
    have hpos : (0 : ℚ) < 10 ^ (decimalOf tie b).exponent := by positivity
    have hpower : (10 : ℚ) ^ 41 = 10 ^ width * 10 ^ (decimalOf tie b).exponent := by
      rw [← zpow_natCast, ← zpow_natCast, ← zpow_add₀ (by norm_num)]
      congr 1
      push_cast
      omega
    rw [Decimal.toRat, hpower, mul_lt_mul_iff_left₀ hpos] at hvalue
    exact_mod_cast hvalue
  have hlength := Digits.length_ofNat_le (by omega) hdigits
  omega

end Shortest

/-! ### The written number -/

namespace Json.Literal

structure Modest (literal : Literal) : Prop where
  whole : literal.whole.length ≤ 40
  fraction : literal.fraction.length ≤ 100
  exponent : ∀ negative digits, literal.exponent = some (negative, digits) →
    Digits.toNat digits ≤ 60

end Json.Literal

namespace Single

theorem modest_literal (negative : Bool) {digits : List ℕ} {exponent : ℤ} (hne : digits ≠ [])
    (hlower : -55 ≤ exponent) (hupper : exponent ≤ 40)
    (hlength : (digits.length : ℤ) ≤ 41 - exponent) :
    (literal negative digits exponent).Modest := by
  have hpos := List.length_pos_iff.mpr hne
  unfold literal
  dsimp only
  split
  · -- All digits stand before the point.
    refine ⟨?_, by simp, nofun⟩
    simp only [Digits.zeros, List.length_append, List.length_replicate]
    omega
  · split
    · -- The point stands between them.
      refine ⟨?_, ?_, nofun⟩
      · simp only [List.length_take]
        omega
      · simp only [List.length_drop]
        omega
    · split
      · -- All stand behind the point.
        refine ⟨by simp, ?_, nofun⟩
        simp only [Digits.zeros, List.length_append, List.length_replicate]
        omega
      · -- Only the first stands before it.
        refine ⟨?_, ?_, ?_⟩
        · simp only [List.length_take]
          omega
        · simp only [List.length_drop]
          omega
        · intro _ written heq
          cases heq
          rw [Digits.toNat_ofNat]
          omega

end Single

namespace Json

/-! ### Reading -/

theorem wholeSignificand_bounds (digits : List ℕ) {value : ℕ} (h : value < UInt64.size) :
    (wholeSignificand value digits).value < UInt64.size ∧
      0 ≤ (wholeSignificand value digits).exponent ∧
      (wholeSignificand value digits).exponent ≤ digits.length := by
  induction digits generalizing value with
  | nil => exact ⟨h, le_refl _, le_refl _⟩
  | cons digit rest ih =>
    unfold wholeSignificand
    split
    · next hfits =>
      obtain ⟨hvalue, hlower, hupper⟩ := ih hfits
      refine ⟨hvalue, hlower, ?_⟩
      rw [List.length_cons]
      push_cast
      omega
    · refine ⟨h, by dsimp only; omega, ?_⟩
      rw [List.length_cons]
      push_cast
      exact le_refl _

theorem addFraction_bounds (digits : List ℕ) {significand : Significand}
    (h : significand.value < UInt64.size) :
    (addFraction significand digits).value < UInt64.size ∧
      significand.exponent - digits.length ≤ (addFraction significand digits).exponent ∧
      (addFraction significand digits).exponent ≤ significand.exponent := by
  induction digits generalizing significand with
  | nil => exact ⟨h, by simp [addFraction], le_refl _⟩
  | cons digit rest ih =>
    unfold addFraction
    rw [List.length_cons]
    push_cast
    split
    · next hfits =>
      obtain ⟨hvalue, hlower, hupper⟩ :=
        @ih ⟨significand.value * 10 + digit, significand.exponent - 1⟩ hfits
      dsimp only at hlower hupper
      exact ⟨hvalue, by omega, by omega⟩
    · exact ⟨h, by omega, le_refl _⟩

/-- The powers of ten that are needed are doubles between one and `2 ^ 640`. -/
theorem exists_powerOfTen {n : ℕ} (h : n ≤ 160) :
    ∃ power, powerOfTen n = some power ∧ 1 ≤ power.toRat ∧ power.toRat ≤ 2 ^ (640 : ℤ) := by
  have hpower : ((10 ^ n : ℕ) : ℚ) ≤ (1 : ℕ) * 2 ^ (640 : ℤ) := by
    rw [Nat.cast_one, one_mul, Nat.cast_pow]
    calc ((10 : ℕ) : ℚ) ^ n ≤ (2 ^ 4) ^ n := pow_le_pow_left₀ (by norm_num) (by norm_num) n
      _ = 2 ^ (4 * n) := (pow_mul 2 4 n).symm
      _ ≤ 2 ^ 640 := pow_le_pow_right₀ one_le_two (by omega)
      _ = 2 ^ (640 : ℤ) := (zpow_natCast 2 640).symm
  have hone : ((1 : ℕ) : ℚ) * 2 ^ (0 : ℤ) ≤ (10 ^ n : ℕ) := by
    rw [Nat.cast_one, one_mul, zpow_zero]
    exact_mod_cast Nat.one_le_pow n 10 (by decide)
  obtain ⟨power, hround, hupper⟩ := BinaryFormat.exists_round? BinaryFormat.sound_double
    one_ne_zero (by decide) (by decide) hpower
  have hlower := BinaryFormat.le_toRat_of_round? BinaryFormat.sound_double hround one_ne_zero
    (by decide) hone
  exact ⟨power, hround, by rwa [zpow_zero] at hlower, hupper⟩

/-- A quotient of doubles is a double, if its parts are not too far apart. -/
theorem exists_round?_quotient {num den : ℕ} {value : ℚ} (hden : 0 < den)
    (hnum : (num : ℚ) = value * den) (hvalue : value ≤ 2 ^ (704 : ℤ)) :
    ∃ x, BinaryFormat.double.round? num den = some x := by
  have hquotient : (num : ℚ) ≤ den * 2 ^ (704 : ℤ) := by
    rw [hnum, mul_comm]
    exact mul_le_mul_of_nonneg_left hvalue (Nat.cast_nonneg den)
  obtain ⟨x, hround, -⟩ := BinaryFormat.exists_round? BinaryFormat.sound_double hden.ne'
    (by decide) (by decide) hquotient
  exact ⟨x, hround⟩

theorem exists_multiplyByPower {x : Binary} (hx : x.toRat ≤ 2 ^ (64 : ℤ)) {n : ℕ} (h : n ≤ 160) :
    ∃ y, multiplyByPower x n = some y := by
  obtain ⟨power, hpower, hlower, hupper⟩ := exists_powerOfTen h
  have hden := Nat.mul_pos x.quotient_den_pos power.quotient_den_pos
  have hnum : ((x.quotient.1 * power.quotient.1 : ℕ) : ℚ) =
      x.toRat * power.toRat * (x.quotient.2 * power.quotient.2 : ℕ) := by
    rw [Nat.cast_mul, Nat.cast_mul, x.quotient_num_eq, power.quotient_num_eq]
    ring
  have hvalue : x.toRat * power.toRat ≤ 2 ^ (704 : ℤ) := by
    calc x.toRat * power.toRat ≤ 2 ^ (64 : ℤ) * 2 ^ (640 : ℤ) :=
          mul_le_mul hx hupper (by linarith) (by positivity)
      _ = 2 ^ (704 : ℤ) := (zpow_add₀ two_ne_zero 64 640).symm
  obtain ⟨y, hround⟩ := exists_round?_quotient hden hnum hvalue
  refine ⟨y, ?_⟩
  rw [multiplyByPower, hpower]
  exact hround

theorem exists_divideByPower {x : Binary} (hx : x.toRat ≤ 2 ^ (64 : ℤ)) {n : ℕ} (h : n ≤ 160) :
    ∃ y, divideByPower x n = some y := by
  obtain ⟨power, hpower, hlower, -⟩ := exists_powerOfTen h
  have hpos : 0 < power.toRat := zero_lt_one.trans_le hlower
  have hpositive : 0 < power.quotient.1 := by
    have hden : (0 : ℚ) < power.quotient.2 := by exact_mod_cast power.quotient_den_pos
    have hcast : (0 : ℚ) < power.quotient.1 := by
      rw [power.quotient_num_eq]
      positivity
    exact_mod_cast hcast
  have hnum : ((x.quotient.1 * power.quotient.2 : ℕ) : ℚ) =
      x.toRat / power.toRat * (x.quotient.2 * power.quotient.1 : ℕ) := by
    rw [Nat.cast_mul, Nat.cast_mul, x.quotient_num_eq, power.quotient_num_eq]
    field_simp
  have hvalue : x.toRat / power.toRat ≤ 2 ^ (704 : ℤ) := by
    calc x.toRat / power.toRat ≤ x.toRat := div_le_self x.toRat_nonneg hlower
      _ ≤ 2 ^ (64 : ℤ) := hx
      _ ≤ 2 ^ (704 : ℤ) := zpow_le_zpow_right₀ one_le_two (by decide)
  obtain ⟨y, hround⟩ :=
    exists_round?_quotient (Nat.mul_pos x.quotient_den_pos hpositive) hnum hvalue
  refine ⟨y, ?_⟩
  rw [divideByPower, hpower]
  exact hround

theorem exists_scaled {significand : Significand} (hvalue : significand.value < UInt64.size)
    (hexponent : significand.exponent.natAbs ≤ 160) : ∃ x, scaled significand = some x := by
  have hword : (significand.value : ℚ) ≤ (1 : ℕ) * 2 ^ (64 : ℤ) := by
    have hcast : (significand.value : ℚ) ≤ (UInt64.size : ℕ) := by exact_mod_cast hvalue.le
    refine hcast.trans ?_
    norm_num [UInt64.size]
  obtain ⟨x, hround, hx⟩ := BinaryFormat.exists_round? BinaryFormat.sound_double one_ne_zero
    (by decide) (by decide) hword
  simp only [scaled, hround, Option.bind_eq_bind, Option.bind_some]
  split
  · rw [if_pos (by omega)]
    exact exists_multiplyByPower hx (by omega)
  · unfold divideInSteps
    split
    · exact ⟨x, rfl⟩
    · rw [if_pos (by omega)]
      exact exists_divideByPower hx (by omega)

theorem Literal.Modest.exists_double? {literal : Literal} (h : literal.Modest) :
    ∃ x, literal.double? = some x := by
  obtain ⟨hwhole, hlower, hupper⟩ := wholeSignificand_bounds literal.whole
    (show 0 < UInt64.size by decide)
  obtain ⟨hvalue, hfront, hback⟩ := addFraction_bounds literal.fraction hwhole
  have hshort := h.whole
  have hfraction := h.fraction
  unfold Literal.double?
  dsimp only
  cases hexponent : literal.exponent with
  | none => exact exists_scaled hvalue (by omega)
  | some exponent =>
    obtain ⟨negative, digits⟩ := exponent
    have hsmall := h.exponent negative digits hexponent
    dsimp only
    rw [if_neg (by unfold maxExponent; omega)]
    refine exists_scaled hvalue ?_
    dsimp only
    split <;> omega

/-- A number is rounded at once, or by way of a double. -/
theorem Literal.single?_eq (literal : Literal) :
    literal.single? =
        some (Single.ofQuotient literal.negative (Digits.toNat literal.whole) 1) ∨
      literal.single? = literal.double?.map fun x =>
        Single.ofQuotient literal.negative x.quotient.1 x.quotient.2 :=
  ite_eq_or_eq _ _ _

theorem Literal.Modest.exists_single? {literal : Literal} (h : literal.Modest) :
    ∃ x, literal.single? = some x := by
  rcases literal.single?_eq with heq | heq
  · exact ⟨_, heq⟩
  · obtain ⟨x, hx⟩ := h.exists_double?
    exact ⟨_, by rw [heq, hx, Option.map_some]⟩

theorem Literal.isNaN_of_single? {literal : Literal} {x : Single} (h : literal.single? = some x) :
    x.isNaN = false := by
  rcases literal.single?_eq with heq | heq
  · rw [h] at heq
    cases heq
    exact Single.isNaN_ofQuotient one_ne_zero _ _
  · rw [h] at heq
    obtain ⟨value, -, rfl⟩ := Option.map_eq_some_iff.mp heq.symm
    exact Single.isNaN_ofQuotient value.quotient_den_pos.ne' _ _

/-- Whatever a text says, what is read from it is not what is no number. -/
theorem Value.isNaN_of_single? {value : Value} {x : Single} (h : value.single? = some x) :
    x.isNaN = false := by
  unfold Value.single? at h
  split at h
  · exact Literal.isNaN_of_single? h
  · cases h

end Json

namespace Single

theorem exists_single?_toJson {x : Single} (h : x.isFinite = true) :
    ∃ y, x.toJson.single? = some y := by
  unfold toJson
  rw [h, if_neg (by decide)]
  split
  · have hzero : Json.Literal.Modest
        { negative := x.isNegative, whole := [0], fraction := [0] } :=
      ⟨by simp, by simp, nofun⟩
    exact hzero.exists_single?
  · obtain ⟨hsignificand, hexponent⟩ := magnitude_bounds h
    obtain ⟨hlower, hupper, -⟩ := Shortest.decimalOf_bounds .even hsignificand hexponent
    have hlength := Shortest.length_decimalOf .even hsignificand hexponent
    exact (modest_literal _ (Digits.ofNat_ne_nil _) hlower hupper hlength).exists_single?

theorem single?_toJson_of_not_finite {x : Single} (h : x.isFinite = false) :
    x.toJson.single? = none := by
  unfold toJson
  rw [h, if_pos (by decide)]
  rfl

/-- Just the finite singles can be read back. -/
theorem isSome_single?_toJson (x : Single) : x.toJson.single?.isSome = x.isFinite := by
  cases h : x.isFinite with
  | false => rw [single?_toJson_of_not_finite h, Option.isSome_none]
  | true =>
    obtain ⟨y, hy⟩ := exists_single?_toJson h
    rw [hy, Option.isSome_some]

end Single

end Jukebox
