import Jukebox.Json.Printer
import Jukebox.Proofs.Text.Utf8

/-!
A written number reads back, digit by digit, if what follows it does not go on with it.
-/
namespace Jukebox

namespace Digits

theorem lt_ten_of_mem_ofNat {n digit : Nat} (h : digit ∈ ofNat n) : digit < 10 := by
  fun_induction ofNat n with
  | case1 n hn =>
    rw [List.mem_singleton.mp h]
    exact hn
  | case2 n hn ih =>
    rcases List.mem_append.mp h with hfront | hlast
    · exact ih hfront
    · rw [List.mem_singleton.mp hlast]
      exact Nat.mod_lt n (by decide)

theorem ofNat_ne_nil (n : Nat) : ofNat n ≠ [] := by
  unfold ofNat
  split <;> simp

/-- Only zero begins with a zero. -/
theorem ofNat_eq_zero_cons {n : Nat} {rest : List Nat} (h : ofNat n = 0 :: rest) : rest = [] := by
  fun_induction ofNat n generalizing rest with
  | case1 n hn => exact (List.cons.inj h).2.symm
  | case2 n hn ih =>
    cases hfront : ofNat (n / 10) with
    | nil => exact absurd hfront (ofNat_ne_nil _)
    | cons digit digits =>
      rw [hfront, List.cons_append] at h
      obtain ⟨rfl, -⟩ := List.cons.inj h
      have hnil := ih hfront
      have hvalue := toNat_ofNat (n / 10)
      rw [hfront, hnil] at hvalue
      have hzero : n / 10 = 0 := hvalue.symm
      omega

end Digits

namespace Json

def EndsDigits (rest : Bytes) : Prop := ∀ b ∈ rest.head?, digit? b = none ∧ b ≠ byte '.'

def EndsNumber (rest : Bytes) : Prop :=
  ∀ b ∈ rest.head?, digit? b = none ∧ b ≠ byte '.' ∧ b ≠ byte 'e' ∧ b ≠ byte 'E'

theorem EndsNumber.endsDigits {rest : Bytes} (h : EndsNumber rest) : EndsDigits rest :=
  fun b hb => ⟨(h b hb).1, (h b hb).2.1⟩

theorem utf8Bytes_digit : ∀ digit < 10,
    String.utf8EncodeChar (Digits.char digit) = [byte (Digits.char digit)] ∧
      digit? (byte (Digits.char digit)) = some digit := by decide

theorem utf8Bytes_chars_cons {digit : Nat} (h : digit < 10) (digits : List Nat) :
    utf8Bytes (Digits.chars (digit :: digits)) =
      byte (Digits.char digit) :: utf8Bytes (Digits.chars digits) := by
  rw [Digits.chars, List.map_cons, utf8Bytes, List.flatMap_cons, (utf8Bytes_digit digit h).1]
  rfl

theorem spanDigits_chars {digits : List Nat} (h : ∀ digit ∈ digits, digit < 10) {rest : Bytes}
    (hrest : ∀ b ∈ rest.head?, digit? b = none) :
    spanDigits (utf8Bytes (Digits.chars digits) ++ rest) = (digits, rest) := by
  induction digits with
  | nil =>
    cases rest with
    | nil => rfl
    | cons b rest =>
      have hb := hrest b rfl
      simp [Digits.chars, utf8Bytes, spanDigits, hb]
  | cons digit digits ih =>
    have hdigit := h digit List.mem_cons_self
    have hdigits := ih fun other hother => h other (List.mem_cons_of_mem digit hother)
    rw [utf8Bytes_chars_cons hdigit, List.cons_append]
    simp only [spanDigits, (utf8Bytes_digit digit hdigit).2, hdigits]

theorem someDigits?_chars {digits : List Nat} (hne : digits ≠ [])
    (h : ∀ digit ∈ digits, digit < 10) {rest : Bytes}
    (hrest : ∀ b ∈ rest.head?, digit? b = none) :
    someDigits? (utf8Bytes (Digits.chars digits) ++ rest) = some (digits, rest) := by
  unfold someDigits?
  rw [spanDigits_chars h hrest]
  cases digits with
  | nil => exact absurd rfl hne
  | cons => rfl

/-- A number as JSON has it: at least one digit before the point, zero in front only by itself, and
an exponent that has digits. -/
structure Literal.Valid (literal : Literal) : Prop where
  whole_ne_nil : literal.whole ≠ []
  whole_lt : ∀ digit ∈ literal.whole, digit < 10
  zero_alone : ∀ rest, literal.whole = 0 :: rest → rest = []
  fraction_lt : ∀ digit ∈ literal.fraction, digit < 10
  exponent_ne_nil : ∀ negative digits, literal.exponent = some (negative, digits) → digits ≠ []
  exponent_lt : ∀ negative digits, literal.exponent = some (negative, digits) →
    ∀ digit ∈ digits, digit < 10

theorem Literal.valid_ofNat (n : Nat) : (Literal.ofNat n).Valid where
  whole_ne_nil := Digits.ofNat_ne_nil n
  whole_lt := fun _ => Digits.lt_ten_of_mem_ofNat
  zero_alone := fun _ => Digits.ofNat_eq_zero_cons
  fraction_lt := nofun
  exponent_ne_nil := nofun
  exponent_lt := nofun

namespace Literal

def fractionChars (literal : Literal) : List Char :=
  if literal.fraction.isEmpty then [] else '.' :: Digits.chars literal.fraction

def exponentChars (literal : Literal) : List Char :=
  match literal.exponent with
  | none => []
  | some (negative, digits) => 'e' :: (if negative then '-' else '+') :: Digits.chars digits

theorem chars_eq (literal : Literal) : literal.chars =
    (if literal.negative then ['-'] else []) ++ Digits.chars literal.whole ++
      literal.fractionChars ++ literal.exponentChars := rfl

variable {literal : Literal} {rest : Bytes}

theorem whole?_chars (h : literal.Valid) (hrest : ∀ b ∈ rest.head?, digit? b = none) :
    whole? (utf8Bytes (Digits.chars literal.whole) ++ rest) = some (literal.whole, rest) := by
  unfold whole?
  rw [someDigits?_chars h.whole_ne_nil h.whole_lt hrest]
  split
  · next digit digits _ heq =>
    have hnil := h.zero_alone _ (Prod.ext_iff.mp (Option.some.inj heq)).1
    cases hnil
  · rfl

theorem fraction?_chars (h : literal.Valid) (hrest : EndsDigits rest) :
    fraction? (utf8Bytes literal.fractionChars ++ rest) = some (literal.fraction, rest) := by
  unfold fractionChars
  cases hfraction : literal.fraction with
  | nil =>
    cases rest with
    | nil => rfl
    | cons b rest =>
      have hpoint := (hrest b rfl).2
      simp [utf8Bytes, fraction?, hpoint]
  | cons digit digits =>
    have hlt : ∀ other ∈ digit :: digits, other < 10 := hfraction ▸ h.fraction_lt
    have hdigits := someDigits?_chars (List.cons_ne_nil digit digits) hlt fun b hb => (hrest b hb).1
    simpa [utf8Bytes_cons_ascii, fraction?] using hdigits

theorem exponent?_chars (h : literal.Valid) (hrest : EndsNumber rest) :
    exponent? (utf8Bytes literal.exponentChars ++ rest) = some (literal.exponent, rest) := by
  unfold exponentChars
  cases hexponent : literal.exponent with
  | none =>
    cases rest with
    | nil => rfl
    | cons b rest =>
      obtain ⟨-, -, hsmall, hlarge⟩ := hrest b rfl
      simp [utf8Bytes, exponent?, hsmall, hlarge]
  | some exponent =>
    obtain ⟨negative, digits⟩ := exponent
    have hdigits := someDigits?_chars (h.exponent_ne_nil negative digits hexponent)
      (h.exponent_lt negative digits hexponent) fun b hb => (hrest b hb).1
    cases negative with
    | true => simp [utf8Bytes_cons_ascii, exponent?, exponentSign, hdigits]
    | false =>
      have hplus : byte '+' ≠ byte '-' := by decide
      simp [utf8Bytes_cons_ascii, exponent?, exponentSign, hplus, hdigits]

theorem endsDigits_exponent (hrest : EndsNumber rest) :
    EndsDigits (utf8Bytes literal.exponentChars ++ rest) := by
  unfold exponentChars
  cases literal.exponent with
  | none => exact hrest.endsDigits
  | some exponent =>
    intro b hb
    obtain rfl : byte 'e' = b := by simpa [utf8Bytes_cons_ascii] using hb
    decide

theorem not_digit_fraction (hrest : EndsNumber rest) :
    ∀ b ∈ (utf8Bytes literal.fractionChars ++ (utf8Bytes literal.exponentChars ++ rest)).head?,
      digit? b = none := by
  unfold fractionChars
  cases literal.fraction with
  | nil => exact fun b hb => (endsDigits_exponent hrest b hb).1
  | cons digit digits =>
    intro b hb
    obtain rfl : byte '.' = b := by simpa [utf8Bytes_cons_ascii] using hb
    decide

/-- A written number reads back from behind its sign. -/
theorem unsigned?_chars (h : literal.Valid) (hrest : EndsNumber rest) :
    unsigned? literal.negative (utf8Bytes (Digits.chars literal.whole ++ literal.fractionChars ++
      literal.exponentChars) ++ rest) = some (.number literal, rest) := by
  rw [utf8Bytes_append, utf8Bytes_append, List.append_assoc, List.append_assoc]
  simp only [unsigned?, whole?_chars h (not_digit_fraction hrest),
    fraction?_chars h (endsDigits_exponent hrest), exponent?_chars h hrest, Option.bind_eq_bind,
    Option.bind_some]
  rfl

end Literal

end Json

end Jukebox
