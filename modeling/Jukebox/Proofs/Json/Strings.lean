import Jukebox.Json.Printer
import Jukebox.Proofs.Text.Utf8

/-!
A written string reads back, whatever characters it has.
-/
namespace Jukebox.Json

/-- The bytes that stand for themselves in a string. -/
def isPlain (b : UInt8) : Prop := b ≠ byte '"' ∧ b ≠ byte '\\' ∧ ¬ b < 0x20

theorem pieces?_plain {b : UInt8} (h : isPlain b) (rest : Bytes) :
    pieces? (b :: rest) = (pieces? rest).map fun found => (.raw b :: found.1, found.2) := by
  obtain ⟨hquote, hescape, hcontrol⟩ := h
  rw [pieces?.eq_def]
  simp only [hquote, hescape, hcontrol, if_false]
  cases pieces? rest <;> rfl

theorem pieces?_plains {bytes : Bytes} (h : ∀ b ∈ bytes, isPlain b) (rest : Bytes) :
    pieces? (bytes ++ rest) =
      (pieces? rest).map fun found => (bytes.map .raw ++ found.1, found.2) := by
  induction bytes with
  | nil => simp
  | cons b bytes ih =>
    have hbytes := ih fun other hother => h other (List.mem_cons_of_mem b hother)
    rw [List.cons_append, pieces?_plain (h b List.mem_cons_self), hbytes, Option.map_map]
    rfl

/-- The character after a backslash. -/
theorem pieces?_letter {letter value : UInt8} (hletter : letter ≠ byte 'u')
    (hvalue : escaped? letter = some value) (rest : Bytes) :
    pieces? (byte '\\' :: letter :: rest) =
      (pieces? rest).map fun found => (.raw value :: found.1, found.2) := by
  have hquote : byte '\\' ≠ byte '"' := by decide
  rw [pieces?.eq_def]
  simp only [hquote, if_false, if_true, hletter, hvalue]
  cases pieces? rest <;> rfl

theorem hexDigit?_digitChar : ∀ n < 16, hexDigit? (byte (Nat.digitChar n)) = some n := by decide

theorem pieces?_unit {code : Nat} (hcode : code < 65536) (rest : Bytes) :
    pieces? (byte '\\' :: byte 'u' :: byte (Nat.digitChar (code / 4096 % 16)) ::
        byte (Nat.digitChar (code / 256 % 16)) :: byte (Nat.digitChar (code / 16 % 16)) ::
        byte (Nat.digitChar (code % 16)) :: rest) =
      (pieces? rest).map fun found => (.unit code :: found.1, found.2) := by
  have hquote : byte '\\' ≠ byte '"' := by decide
  have hvalue : code / 4096 % 16 * 4096 + code / 256 % 16 * 256 + code / 16 % 16 * 16 +
      code % 16 = code := by omega
  have hdigit (n : Nat) : hexDigit? (byte (Nat.digitChar (n % 16))) = some (n % 16) :=
    hexDigit?_digitChar _ (Nat.mod_lt n (by decide))
  rw [pieces?.eq_def]
  simp only [hquote, if_false, if_true, hdigit, Option.bind_eq_bind, Option.bind_some, hvalue]
  cases pieces? rest <;> rfl

/-! ### The pieces of a text -/

def isNumbered (c : Char) : Bool :=
  c.toNat < 0x20 && c ∉ ['\x08', '\x0c', '\n', '\r', '\t']

def piecesOf (c : Char) : List Piece :=
  if isNumbered c then [.unit c.toNat] else (String.utf8EncodeChar c).map .raw

theorem toNat_byte {c : Char} (h : c.toNat < 128) : (byte c).toNat = c.toNat :=
  UInt8.toNat_ofNat_of_lt' (Nat.lt_trans h (by decide))

theorem isPlain_of_mem_utf8EncodeChar {c : Char} (hquote : c ≠ '"') (hescape : c ≠ '\\')
    (hcontrol : ¬ c.toNat < 0x20) {b : UInt8} (hb : b ∈ String.utf8EncodeChar c) : isPlain b := by
  by_cases hascii : c.toNat < 128
  · rw [utf8EncodeChar_ascii hascii, List.mem_singleton] at hb
    subst hb
    have hnat := toNat_byte hascii
    refine ⟨fun heq => hquote ?_, fun heq => hescape ?_, fun hlt => hcontrol ?_⟩
    · rw [heq] at hnat
      exact Char.toNat_inj.mp hnat.symm
    · rw [heq] at hnat
      exact Char.toNat_inj.mp hnat.symm
    · rw [UInt8.lt_iff_toNat_lt, hnat] at hlt
      exact hlt
  · have hhigh := le_of_mem_utf8EncodeChar (Nat.not_lt.mp hascii) hb
    refine ⟨fun heq => ?_, fun heq => ?_, fun hlt => ?_⟩
    · rw [heq] at hhigh
      exact absurd hhigh (by decide)
    · rw [heq] at hhigh
      exact absurd hhigh (by decide)
    · rw [UInt8.lt_iff_toNat_lt] at hlt
      exact absurd (Nat.lt_of_le_of_lt hhigh hlt) (by decide)

theorem hex_four (n : Nat) : Digits.hex 4 n = [Nat.digitChar (n / 4096 % 16),
    Nat.digitChar (n / 256 % 16), Nat.digitChar (n / 16 % 16), Nat.digitChar (n % 16)] := by
  simp [Digits.hex, Nat.div_div_eq_div_mul]

theorem digitChar_ascii : ∀ n < 16, (Nat.digitChar n).toNat < 128 := by decide

def letters : List (Char × Char) :=
  [('"', '"'), ('\\', '\\'), ('\x08', 'b'), ('\x0c', 'f'), ('\n', 'n'), ('\r', 'r'), ('\t', 't')]

theorem escape_of_letters : ∀ pair ∈ letters, escape pair.1 = ['\\', pair.2] := by decide

/-- A character is written with a letter, by its number, or as it is. -/
theorem escape_cases (c : Char) :
    (∃ letter, (c, letter) ∈ letters) ∨
    (isNumbered c = true ∧ escape c = '\\' :: 'u' :: Digits.hex 4 c.toNat) ∨
    (isNumbered c = false ∧ c ≠ '"' ∧ c ≠ '\\' ∧ ¬ c.toNat < 0x20 ∧ escape c = [c]) := by
  by_cases hletter : ∃ letter, (c, letter) ∈ letters
  · exact .inl hletter
  · right
    simp only [letters, List.mem_cons, Prod.mk.injEq, List.not_mem_nil, or_false,
      not_exists, not_or, not_and] at hletter
    have hquote : c ≠ '"' := fun h => (hletter '"').1 h rfl
    have hescape : c ≠ '\\' := fun h => (hletter '\\').2.1 h rfl
    have hbackspace : c ≠ '\x08' := fun h => (hletter 'b').2.2.1 h rfl
    have hfeed : c ≠ '\x0c' := fun h => (hletter 'f').2.2.2.1 h rfl
    have hline : c ≠ '\n' := fun h => (hletter 'n').2.2.2.2.1 h rfl
    have hreturn : c ≠ '\r' := fun h => (hletter 'r').2.2.2.2.2.1 h rfl
    have htab : c ≠ '\t' := fun h => (hletter 't').2.2.2.2.2.2 h rfl
    by_cases hcontrol : c.toNat < 0x20
    · exact .inl (by simp [isNumbered, escape, *])
    · exact .inr (by simp [isNumbered, escape, *])

theorem pieces?_escape (c : Char) (rest : Bytes) :
    pieces? (utf8Bytes (escape c) ++ rest) =
      (pieces? rest).map fun found => (piecesOf c ++ found.1, found.2) := by
  rcases escape_cases c with
    ⟨letter, hletter⟩ | ⟨hnumbered, heq⟩ | ⟨hplain, hquote, hescape, hcontrol, heq⟩
  · have hvalues : ∀ pair ∈ letters, utf8Bytes ['\\', pair.2] = [byte '\\', byte pair.2] ∧
        byte pair.2 ≠ byte 'u' ∧ escaped? (byte pair.2) = some (byte pair.1) ∧
        isNumbered pair.1 = false ∧ pair.1.toNat < 128 := by decide
    obtain ⟨hbytes, hnumber, hvalue, hplain, hascii⟩ := hvalues (c, letter) hletter
    rw [escape_of_letters (c, letter) hletter, hbytes]
    refine (pieces?_letter hnumber hvalue rest).trans ?_
    simp [piecesOf, hplain, utf8EncodeChar_ascii hascii]
  · have hcontrol : c.toNat < 65536 := by
      simp only [isNumbered, Bool.and_eq_true, decide_eq_true_eq] at hnumbered
      omega
    have hdigit (n : Nat) : (Nat.digitChar (n % 16)).toNat < 128 :=
      digitChar_ascii _ (Nat.mod_lt n (by decide))
    rw [heq, hex_four, utf8Bytes_cons_ascii (by decide), utf8Bytes_cons_ascii (by decide),
      utf8Bytes_cons_ascii (hdigit _), utf8Bytes_cons_ascii (hdigit _),
      utf8Bytes_cons_ascii (hdigit _), utf8Bytes_cons_ascii (hdigit _)]
    refine (pieces?_unit hcontrol rest).trans ?_
    simp [piecesOf, hnumbered]
  · rw [heq, utf8Bytes_singleton]
    rw [pieces?_plains fun b hb => isPlain_of_mem_utf8EncodeChar hquote hescape hcontrol hb]
    simp [piecesOf, hplain]

/-- The pieces of a written text, up to its closing quote. -/
theorem pieces?_escapes (chars : List Char) (rest : Bytes) :
    pieces? (utf8Bytes (chars.flatMap escape) ++ byte '"' :: rest) =
      some (chars.flatMap piecesOf, rest) := by
  induction chars with
  | nil =>
    rw [pieces?.eq_def]
    rfl
  | cons c chars ih =>
    rw [List.flatMap_cons, utf8Bytes_append, List.append_assoc, pieces?_escape, ih]
    rfl

/-! ### The text of some pieces -/

theorem bytes?_raws (bytes : Bytes) (pieces : List Piece) :
    Piece.bytes? (bytes.map .raw ++ pieces) = (Piece.bytes? pieces).map (bytes ++ ·) := by
  induction bytes with
  | nil => simp
  | cons b bytes ih =>
    rw [List.map_cons, List.cons_append, Piece.bytes?, ih, Option.map_map]
    rfl

/-- A unit that is no surrogate is a character by itself. -/
theorem bytes?_unit {code : Nat} (hcode : code < 0xd800) (pieces : List Piece) :
    Piece.bytes? (.unit code :: pieces) =
      (Piece.bytes? pieces).map (String.utf8EncodeChar (Char.ofNat code) ++ ·) := by
  have hhigh : isHighSurrogate code = false := by simp [isHighSurrogate]; omega
  have hlow : isLowSurrogate code = false := by simp [isLowSurrogate]; omega
  cases pieces with
  | nil => simp [Piece.bytes?, hhigh, hlow]
  | cons piece rest =>
    cases piece with
    | raw b => simp [Piece.bytes?, hhigh, hlow]; rfl
    | unit low => simp [Piece.bytes?, hhigh, hlow]

theorem bytes?_piecesOf (c : Char) (pieces : List Piece) :
    Piece.bytes? (piecesOf c ++ pieces) =
      (Piece.bytes? pieces).map (String.utf8EncodeChar c ++ ·) := by
  unfold piecesOf
  cases hnumbered : isNumbered c with
  | false => exact bytes?_raws _ pieces
  | true =>
    have hcode : c.toNat < 0xd800 := by
      simp only [isNumbered, Bool.and_eq_true, decide_eq_true_eq] at hnumbered
      omega
    have hunit := bytes?_unit hcode pieces
    rwa [Char.ofNat_toNat] at hunit

theorem bytes?_flatMap_piecesOf (chars : List Char) :
    Piece.bytes? (chars.flatMap piecesOf) = some (utf8Bytes chars) := by
  induction chars with
  | nil => rfl
  | cons c chars ih =>
    rw [List.flatMap_cons, bytes?_piecesOf, ih]
    rfl

theorem string?_flatMap_piecesOf (text : String) :
    Piece.string? (text.toList.flatMap piecesOf) = some text := by
  rw [Piece.string?, bytes?_flatMap_piecesOf, Option.bind_some, fromUTF8?_utf8Bytes]

/-- A written string reads back, with what follows it left over. -/
theorem quoted?_quote (text : String) (rest : Bytes) :
    quoted? (utf8Bytes (quote text) ++ rest) = some (some text, rest) := by
  have hclosed : utf8Bytes (quote text) ++ rest =
      byte '"' :: (utf8Bytes (text.toList.flatMap escape) ++ byte '"' :: rest) := by
    rw [quote, List.cons_append, utf8Bytes_cons_ascii (by decide), utf8Bytes_append,
      utf8Bytes_cons_ascii (by decide), utf8Bytes_nil]
    simp
  rw [hclosed]
  simp only [quoted?, if_true, pieces?_escapes, Option.map_some, string?_flatMap_piecesOf]

end Jukebox.Json
