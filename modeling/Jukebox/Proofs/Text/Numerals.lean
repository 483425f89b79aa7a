import Mathlib.Algebra.Group.Nat.Defs
import Jukebox.Proofs.Json.Numbers

/-!
A decimal number reads back, and it is no longer than its size allows.
-/
namespace Jukebox

namespace Digits

theorem ofChar?_char : ∀ digit < 10, ofChar? (char digit) = some digit := by decide

theorem char_ascii : ∀ digit < 10, (char digit).toNat < 128 ∧ char digit ≠ '+' ∧
    char digit ≠ '\x00' := by decide

theorem length_ofNat_le {n width : Nat} (hwidth : 0 < width) (h : n < 10 ^ width) :
    (ofNat n).length ≤ width := by
  induction width generalizing n with
  | zero => omega
  | succ width ih =>
    unfold ofNat
    split
    · exact Nat.le_add_left _ _
    · next hn =>
      have hlower : n / 10 < 10 ^ width := Nat.div_lt_of_lt_mul (by rw [← Nat.pow_succ']; exact h)
      have hpos : 0 < width := by
        rcases Nat.eq_zero_or_pos width with rfl | hpos
        · omega
        · exact hpos
      have hfront := ih hpos hlower
      rw [List.length_append, List.length_singleton]
      omega

/-- Reading on never makes the value smaller. -/
theorem le_foldl (digits : List Nat) (value : Nat) :
    value ≤ digits.foldl (fun value digit => value * 10 + digit) value := by
  induction digits generalizing value with
  | nil => exact Nat.le_refl _
  | cons digit rest ih =>
    have hrest := ih (value * 10 + digit)
    rw [List.foldl_cons]
    omega

end Digits

namespace Numeral

theorem readOnto_chars {digits : List Nat} (h : ∀ digit ∈ digits, digit < 10) {bound value : Nat}
    (hbound : digits.foldl (fun value digit => value * 10 + digit) value ≤ bound) :
    readOnto bound value (Digits.chars digits) =
      .ok (digits.foldl (fun value digit => value * 10 + digit) value) := by
  induction digits generalizing value with
  | nil => rfl
  | cons digit rest ih =>
    have hdigit := Digits.ofChar?_char digit (h digit List.mem_cons_self)
    have hrest := fun other hother => h other (List.mem_cons_of_mem digit hother)
    have hfits : value * 10 + digit ≤ bound := Nat.le_trans (Digits.le_foldl rest _) hbound
    have hlater : readOnto bound (value * 10 + digit) (Digits.chars rest) = .ok _ := ih hrest hbound
    rw [Digits.chars, List.map_cons, readOnto, hdigit]
    simp only [hfits, if_true]
    exact hlater

theorem read_decimal {n bound : Nat} (h : n ≤ bound) : read bound (decimal n) = .ok n := by
  have hdigits : ∀ digit ∈ Digits.ofNat n, digit < 10 := fun _ => Digits.lt_ten_of_mem_ofNat
  have hvalue : (Digits.ofNat n).foldl (fun value digit => value * 10 + digit) 0 = n :=
    Digits.toNat_ofNat n
  have hbound : (Digits.ofNat n).foldl (fun value digit => value * 10 + digit) 0 ≤ bound := by
    rwa [hvalue]
  have hread := readOnto_chars hdigits hbound
  rw [hvalue] at hread
  obtain ⟨digit, rest, hfirst⟩ := List.exists_cons_of_ne_nil (Digits.ofNat_ne_nil n)
  have hplus := (Digits.char_ascii digit (hdigits digit (hfirst ▸ List.mem_cons_self))).2.1
  have hchars : (decimal n).toList = Digits.char digit :: Digits.chars rest := by
    rw [decimal, String.toList_ofList, hfirst]
    rfl
  have hsame : Digits.chars (Digits.ofNat n) = Digits.char digit :: Digits.chars rest := by
    rw [hfirst]
    rfl
  rw [hsame] at hread
  unfold read
  rw [hchars]
  split
  · next heq => cases heq
  · next heq => exact absurd (List.cons.inj heq).1 hplus
  · next heq => exact absurd (List.cons.inj heq).1 hplus
  · exact hread

theorem size_decimal (n : Nat) : (decimal n).utf8ByteSize = (Digits.ofNat n).length := by
  have hbytes (digits : List Nat) (h : ∀ digit ∈ digits, digit < 10) :
      (utf8Bytes (Digits.chars digits)).length = digits.length := by
    induction digits with
    | nil => rfl
    | cons digit rest ih =>
      have hrest := ih fun other hother => h other (List.mem_cons_of_mem digit hother)
      have hascii := (Digits.char_ascii digit (h digit List.mem_cons_self)).1
      rw [Digits.chars, List.map_cons, utf8Bytes_cons_ascii hascii, List.length_cons,
        List.length_cons]
      exact congrArg (· + 1) hrest
  rw [← hbytes _ fun digit hdigit => Digits.lt_ten_of_mem_ofNat hdigit, ← toUTF8_ofList]
  rfl

/-- Twenty digits are enough for a word. -/
theorem size_decimal_word_le (word : UInt64) : (decimal word.toNat).utf8ByteSize ≤ 20 := by
  have hsmall : word.toNat < 10 ^ 20 := Nat.lt_of_lt_of_le word.toNat_lt (by decide)
  rw [size_decimal]
  exact Digits.length_ofNat_le (by decide) hsmall

theorem readWord?_decimal (word : UInt64) : readWord? (decimal word.toNat) = some word := by
  have hbound : word.toNat ≤ UInt64.size - 1 := Nat.le_of_lt_succ word.toNat_lt
  simp only [readWord?, read_decimal hbound, UInt64.ofNat_toNat]

end Numeral

end Jukebox
