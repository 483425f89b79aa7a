import Jukebox.Text.Base64
import Jukebox.Text.Blank

/-!
What is written in base64 reads back. No character of it is blank, so that trimming leaves it as
it is.
-/
namespace Jukebox.Base64

theorem value?_char_of_lt : ∀ value < 64, value? (char value) = some value := by decide +kernel

theorem char_ne_pad : ∀ value < 64, char value ≠ '=' := by decide +kernel

theorem not_isBlank_char_of_lt : ∀ value < 64, isBlank (char value) = false := by decide +kernel

theorem char_mod (value : Nat) : char (value % 64) = char value := by
  simp only [char, Nat.mod_mod]

theorem not_isBlank_char (value : Nat) : isBlank (char value) = false := by
  rw [← char_mod]
  exact not_isBlank_char_of_lt (value % 64) (Nat.mod_lt value (by decide))

/-- A group without padding is read by itself. -/
theorem decode?_group {p q r s : Char} {a b c d : Nat} (hp : value? p = some a)
    (hq : value? q = some b) (hr : value? r = some c) (hs : value? s = some d) (hpad : s ≠ '=')
    {rest : List Char} {bytes : List UInt8} (hrest : decode? rest = some bytes) :
    decode? (p :: q :: r :: s :: rest) = some (UInt8.ofNat (a * 4 + b / 16) ::
      UInt8.ofNat (b % 16 * 16 + c / 4) :: UInt8.ofNat (c % 4 * 64 + d) :: bytes) := by
  simp [decode?, hpad, hp, hq, hr, hs, hrest]

/-- The bytes of a group come back from its six-bit values. -/
theorem group_first (a b : UInt8) :
    UInt8.ofNat (a.toNat / 4 * 4 + (a.toNat % 4 * 16 + b.toNat / 16) / 16) = a := by
  have hb := b.toNat_lt
  have hvalue : a.toNat / 4 * 4 + (a.toNat % 4 * 16 + b.toNat / 16) / 16 = a.toNat := by omega
  rw [hvalue, UInt8.ofNat_toNat]

theorem group_second (a b c : UInt8) :
    UInt8.ofNat ((a.toNat % 4 * 16 + b.toNat / 16) % 16 * 16 +
      (b.toNat % 16 * 4 + c.toNat / 64) / 4) = b := by
  have hb := b.toNat_lt
  have hc := c.toNat_lt
  have hvalue : (a.toNat % 4 * 16 + b.toNat / 16) % 16 * 16 +
      (b.toNat % 16 * 4 + c.toNat / 64) / 4 = b.toNat := by omega
  rw [hvalue, UInt8.ofNat_toNat]

theorem group_third (b c : UInt8) :
    UInt8.ofNat ((b.toNat % 16 * 4 + c.toNat / 64) % 4 * 64 + c.toNat % 64) = c := by
  have hc := c.toNat_lt
  have hvalue : (b.toNat % 16 * 4 + c.toNat / 64) % 4 * 64 + c.toNat % 64 = c.toNat := by omega
  rw [hvalue, UInt8.ofNat_toNat]

theorem decode?_encode (bytes : List UInt8) : decode? (encode bytes) = some bytes := by
  fun_induction encode bytes with
  | case1 => rfl
  | case2 a =>
    have ha := a.toNat_lt
    have hbits : a.toNat % 4 * 16 % 16 = 0 := by omega
    simpa [decode?, value?_char_of_lt, ha, hbits, show a.toNat / 4 < 64 by omega,
      show a.toNat % 4 * 16 < 64 by omega] using group_first a 0
  | case3 a b =>
    have ha := a.toNat_lt
    have hb := b.toNat_lt
    have hbits : b.toNat % 16 * 4 % 4 = 0 := by omega
    have hmiddle : a.toNat % 4 * 16 + b.toNat / 16 < 64 := by omega
    have hpad : char (b.toNat % 16 * 4) ≠ '=' := char_ne_pad _ (by omega)
    simpa [decode?, value?_char_of_lt, hbits, hmiddle, hpad, show a.toNat / 4 < 64 by omega,
      show b.toNat % 16 * 4 < 64 by omega] using And.intro (group_first a b) (group_second a b 0)
  | case4 a b c rest ih =>
    have ha := a.toNat_lt
    have hb := b.toNat_lt
    have hc := c.toNat_lt
    rw [decode?_group (value?_char_of_lt _ (by omega)) (value?_char_of_lt _ (by omega))
      (value?_char_of_lt _ (by omega)) (value?_char_of_lt _ (by omega))
      (char_ne_pad _ (by omega)) ih, group_first, group_second, group_third]

theorem not_isBlank_of_mem_encode {bytes : List UInt8} {c : Char} (h : c ∈ encode bytes) :
    isBlank c = false := by
  have hpad : isBlank '=' = false := by decide
  fun_induction encode bytes with
  | case1 => cases h
  | case2 a =>
    simp only [List.mem_cons, List.not_mem_nil, or_false] at h
    rcases h with rfl | rfl | rfl | rfl
    · exact not_isBlank_char _
    · exact not_isBlank_char _
    · exact hpad
    · exact hpad
  | case3 a b =>
    simp only [List.mem_cons, List.not_mem_nil, or_false] at h
    rcases h with rfl | rfl | rfl | rfl
    · exact not_isBlank_char _
    · exact not_isBlank_char _
    · exact not_isBlank_char _
    · exact hpad
  | case4 a b c rest ih =>
    simp only [List.mem_cons] at h
    rcases h with rfl | rfl | rfl | rfl | hrest
    · exact not_isBlank_char _
    · exact not_isBlank_char _
    · exact not_isBlank_char _
    · exact not_isBlank_char _
    · exact ih hrest

end Jukebox.Base64
