import Jukebox.Json.Reader

/-!
Texts as bytes. An ASCII character is one byte, and the bytes of any other character lie above all
ASCII ones, so that no part of it is taken for a quote or a bracket.
-/
namespace Jukebox

def utf8Bytes (chars : List Char) : List UInt8 := chars.flatMap String.utf8EncodeChar

theorem toUTF8_ofList (chars : List Char) :
    (String.ofList chars).toUTF8.data.toList = utf8Bytes chars := by
  have hbytes : (String.ofList chars).toUTF8 = (utf8Bytes chars).toByteArray :=
    String.toByteArray_ofList
  rw [hbytes, List.toList_data_toByteArray]

/-- A text comes back from its bytes. -/
theorem fromUTF8?_utf8Bytes (text : String) :
    String.fromUTF8? (utf8Bytes text.toList).toByteArray = some text := by
  have hbytes : (utf8Bytes text.toList).toByteArray = text.toByteArray := String.utf8Encode_toList
  rw [hbytes, String.fromUTF8?, dif_pos text.isValidUTF8]
  rfl

theorem utf8Bytes_nil : utf8Bytes [] = [] := rfl

theorem utf8Bytes_append (chars others : List Char) :
    utf8Bytes (chars ++ others) = utf8Bytes chars ++ utf8Bytes others := List.flatMap_append

theorem utf8Bytes_singleton (c : Char) : utf8Bytes [c] = String.utf8EncodeChar c := by
  simp [utf8Bytes]

theorem utf8EncodeChar_ascii {c : Char} (h : c.toNat < 128) :
    String.utf8EncodeChar c = [Json.byte c] := by
  have hle : c.val.toNat ≤ 0x7f := Nat.le_of_lt_succ h
  simp only [String.utf8EncodeChar, hle, if_true]
  rfl

theorem utf8Bytes_cons_ascii {c : Char} (h : c.toNat < 128) (chars : List Char) :
    utf8Bytes (c :: chars) = Json.byte c :: utf8Bytes chars := by
  rw [utf8Bytes, List.flatMap_cons, utf8EncodeChar_ascii h]
  rfl

/-- The bytes of a character beyond ASCII. -/
theorem le_of_mem_utf8EncodeChar {c : Char} (h : 128 ≤ c.toNat) {b : UInt8}
    (hb : b ∈ String.utf8EncodeChar c) : 128 ≤ b.toNat := by
  have hv : ¬ c.val.toNat ≤ 0x7f := Nat.not_le.mpr h
  have hhigh (lows : List Nat) (hlows : ∀ low ∈ lows, 128 ≤ low ∧ low < 256) :
      ∀ b ∈ lows.map UInt8.ofNat, 128 ≤ b.toNat := by
    intro b hb
    obtain ⟨low, hlow, rfl⟩ := List.mem_map.mp hb
    rw [UInt8.toNat_ofNat_of_lt' (hlows low hlow).2]
    exact (hlows low hlow).1
  unfold String.utf8EncodeChar at hb
  simp only [hv, if_false] at hb
  split at hb
  · exact hhigh [_, _] (by simp; omega) b hb
  · split at hb
    · exact hhigh [_, _, _] (by simp; omega) b hb
    · exact hhigh [_, _, _, _] (by simp; omega) b hb

end Jukebox
