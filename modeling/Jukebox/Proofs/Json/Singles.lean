import Jukebox.Json.Number
import Jukebox.Proofs.Json.Records

/-!
The text of a single is a number as JSON has it, or null. The shortest decimal of a magnitude is
not zero, so no digits stand behind a zero in front.
-/
namespace Jukebox

namespace Shortest

theorem Interval.around_low_pos {b : Binary} (h : b.significand ≠ 0) :
    0 < (Interval.around b).low := by
  simp only [Interval.around]
  split <;> omega

/-- Zero lies in no interval of positive numbers. -/
theorem ne_zero_of_inside {interval : Interval} {scale point : Nat} (hlow : 0 < interval.low)
    (hscale : 0 < scale) (h : inside interval scale point = true) : point ≠ 0 := by
  rintro rfl
  have hpos : 0 < interval.low * scale := Nat.mul_pos hlow hscale
  unfold inside at h
  split at h
  · simp [Nat.ne_of_gt hpos] at h
  · simp at h

/-- What is chosen on a grid lies on it, and in the interval. -/
theorem inside_of_onGrid {tie : Tie} {interval : Interval} {exponent : Int} {d : Decimal}
    (h : onGrid tie interval exponent = some d) :
    d.exponent = exponent ∧ inside interval
      (Nat.pow 10 (-exponent).toNat * Nat.pow 2 interval.unit.toNat)
      (d.digits * (Nat.pow 10 exponent.toNat * Nat.pow 2 (-interval.unit).toNat)) = true := by
  simp only [onGrid] at h
  split at h
  · cases h
  · next hbelow _ =>
    cases h
    exact ⟨rfl, hbelow⟩
  · next _ habove =>
    cases h
    exact ⟨rfl, habove⟩
  · next hbelow habove =>
    split at h
    · cases h
      exact ⟨rfl, hbelow⟩
    · split at h
      · cases h
        exact ⟨rfl, habove⟩
      · cases tie with
        | up =>
          cases h
          exact ⟨rfl, habove⟩
        | even =>
          cases h
          refine ⟨rfl, ?_⟩
          dsimp only
          rcases Nat.mod_two_eq_zero_or_one (interval.middle *
              (Nat.pow 10 (-exponent).toNat * Nat.pow 2 interval.unit.toNat) /
              (Nat.pow 10 exponent.toNat * Nat.pow 2 (-interval.unit).toNat)) with heven | hodd
          · rw [heven]
            exact hbelow
          · rw [hodd]
            exact habove

theorem onGrid_digits_ne_zero {tie : Tie} {interval : Interval} {exponent : Int} {d : Decimal}
    (hlow : 0 < interval.low) (h : onGrid tie interval exponent = some d) : d.digits ≠ 0 := by
  have hscale : 0 < Nat.pow 10 (-exponent).toNat * Nat.pow 2 interval.unit.toNat :=
    Nat.mul_pos (Nat.pow_pos (by decide)) (Nat.pow_pos (by decide))
  obtain ⟨-, hinside⟩ := inside_of_onGrid h
  intro hzero
  rw [hzero] at hinside
  exact ne_zero_of_inside hlow hscale hinside (Nat.zero_mul _)

theorem decimalOf_digits_ne_zero (tie : Tie) {b : Binary} (h : b.significand ≠ 0) :
    (decimalOf tie b).digits ≠ 0 := by
  unfold decimalOf
  cases hfound : gridExponents.findSome? (onGrid tie (Interval.around b)) with
  | none => exact h
  | some d =>
    obtain ⟨exponent, -, hd⟩ := List.exists_of_findSome?_eq_some hfound
    exact onGrid_digits_ne_zero (Interval.around_low_pos h) hd

end Shortest

namespace Single

theorem magnitude_significand_ne_zero {x : Single} (h : x.size ≠ 0) :
    x.magnitude.significand ≠ 0 := by
  simp only [magnitude]
  split
  · next hfield =>
    intro hzero
    exact h (Nat.eq_zero_of_dvd_of_lt (Nat.dvd_of_mod_eq_zero hzero)
      ((Nat.div_eq_zero_iff_lt (by decide)).mp hfield))
  · exact Nat.ne_of_gt (Nat.lt_of_lt_of_le (by decide) (Nat.le_add_left _ _))

theorem zero_lt : ∀ digit ∈ [0], digit < 10 := by decide

theorem zeros_lt {count digit : Nat} (h : digit ∈ Digits.zeros count) : digit < 10 := by
  rw [List.eq_of_mem_replicate h]
  decide

/-- Wherever the point is put between the digits, they make a number if they do not begin with a
zero. -/
theorem literal_valid (negative : Bool) {digits : List Nat} (hne : digits ≠ [])
    (hlt : ∀ digit ∈ digits, digit < 10) (hfirst : ∀ rest, digits ≠ 0 :: rest)
    (exponent : Int) : (literal negative digits exponent).Valid := by
  obtain ⟨first, rest, rfl⟩ := List.exists_cons_of_ne_nil hne
  have hhead : first ≠ 0 := fun hzero => hfirst rest (by rw [hzero])
  have hfront {later : List Nat} : ∀ tail, first :: later = 0 :: tail → tail = [] :=
    fun tail heq => absurd (List.cons.inj heq).1 hhead
  have hdrop {count : Nat} : ∀ digit ∈ (first :: rest).drop count, digit < 10 :=
    fun digit hdigit => hlt digit (List.mem_of_mem_drop hdigit)
  simp only [literal]
  split
  · -- All digits stand before the point.
    refine ⟨List.cons_ne_nil _ _, fun digit hdigit => ?_, hfront, zero_lt, nofun, nofun⟩
    exact (List.mem_append.mp hdigit).elim (hlt digit) zeros_lt
  · split
    · -- The point stands between them.
      next hpoint =>
      obtain ⟨count, hcount⟩ := Nat.exists_eq_succ_of_ne_zero
        (Nat.ne_of_gt (Int.lt_toNat.mpr hpoint.1))
      rw [hcount, List.take_succ_cons]
      refine ⟨List.cons_ne_nil _ _, fun digit hdigit => ?_, hfront, hdrop, nofun, nofun⟩
      exact hlt digit (List.mem_of_mem_take (List.take_succ_cons.symm ▸ hdigit))
    · split
      · -- All stand behind the point.
        refine ⟨List.cons_ne_nil _ _, zero_lt, fun tail heq => (List.cons.inj heq).2.symm,
          fun digit hdigit => ?_, nofun, nofun⟩
        exact (List.mem_append.mp hdigit).elim zeros_lt (hlt digit)
      · -- Only the first stands before it.
        refine ⟨List.cons_ne_nil _ _, fun digit hdigit => ?_, hfront, hdrop, ?_, ?_⟩
        · exact hlt digit (List.mem_of_mem_take hdigit)
        · intro _ digits heq
          cases heq
          exact Digits.ofNat_ne_nil _
        · intro _ digits heq digit hdigit
          cases heq
          exact Digits.lt_ten_of_mem_ofNat hdigit

theorem toJson_valid (x : Single) : x.toJson.Valid := by
  unfold toJson
  split
  · trivial
  · split
    · exact ⟨List.cons_ne_nil _ _, zero_lt, fun tail heq => (List.cons.inj heq).2.symm, zero_lt,
        nofun, nofun⟩
    · next hsize =>
      have hdigits := Shortest.decimalOf_digits_ne_zero .even (magnitude_significand_ne_zero hsize)
      refine literal_valid _ (Digits.ofNat_ne_nil _) (fun _ => Digits.lt_ten_of_mem_ofNat) ?_ _
      intro rest heq
      have hvalue := Digits.toNat_ofNat (Shortest.decimalOf .even x.magnitude).digits
      rw [heq, Digits.ofNat_eq_zero_cons heq] at hvalue
      exact hdigits hvalue.symm

/-- The text of a single gives the single again. -/
def ReadsBack (x : Single) : Prop := (Json.parse? x.toJson.pretty).bind Json.Value.single? = some x

theorem readsBack_iff (x : Single) : x.ReadsBack ↔ x.toJson.single? = some x := by
  rw [ReadsBack, Json.parse?_pretty x.toJson_valid, Option.bind_some]

instance (x : Single) : Decidable x.ReadsBack := decidable_of_iff _ x.readsBack_iff.symm

end Single

end Jukebox
