/-!
Times and lengths in milliseconds, held in 64-bit words. A difference of two times never goes
below zero, and a multiplication that leaves the word breaks off whatever needs its result.
-/
namespace Jukebox

abbrev Millis := UInt64

namespace Millis

/-- The time from `earlier` to `later`; zero if `later` is not later. -/
def between (earlier later : Millis) : Millis :=
  if earlier ≤ later then later - earlier else 0

theorem toNat_between (earlier later : Millis) :
    (between earlier later).toNat = later.toNat - earlier.toNat := by
  unfold between
  split
  · next h => rw [UInt64.toNat_sub_of_le _ _ h]
  · next h =>
    rw [UInt64.le_iff_toNat_le] at h
    simp; omega

def ofSeconds? (seconds : UInt64) : Option Millis :=
  if seconds.toNat * 1000 < UInt64.size then some (seconds * 1000) else none

theorem ofSeconds?_eq_some_iff {seconds : UInt64} {millis : Millis} :
    ofSeconds? seconds = some millis ↔ millis.toNat = 1000 * seconds.toNat := by
  have hproduct : (seconds * 1000).toNat = seconds.toNat * 1000 % UInt64.size :=
    UInt64.toNat_mul ..
  rw [ofSeconds?, Option.ite_none_right_eq_some, Option.some.injEq]
  constructor
  · rintro ⟨hfit, rfl⟩
    rw [hproduct, Nat.mod_eq_of_lt hfit, Nat.mul_comm]
  · intro hexact
    have hfit : seconds.toNat * 1000 < UInt64.size := by
      rw [Nat.mul_comm, ← hexact]
      exact millis.toNat_lt_size
    refine ⟨hfit, UInt64.toNat.inj ?_⟩
    rw [hproduct, Nat.mod_eq_of_lt hfit, hexact, Nat.mul_comm]

theorem mapM_ofSeconds?_eq_some_iff {seconds : Option UInt64} {millis : Option Millis} :
    seconds.mapM ofSeconds? = some millis ↔
      millis.map UInt64.toNat = seconds.map (1000 * ·.toNat) := by
  cases seconds with
  | none => simp [eq_comm]
  | some given =>
    simp only [Option.mapM_some, Option.map_eq_map, Option.map_eq_some_iff, Option.map_some]
    constructor
    · rintro ⟨product, hproduct, rfl⟩
      exact ⟨product, rfl, ofSeconds?_eq_some_iff.mp hproduct⟩
    · rintro ⟨product, rfl, hproduct⟩
      exact ⟨product, ofSeconds?_eq_some_iff.mpr hproduct, rfl⟩

end Millis

end Jukebox
