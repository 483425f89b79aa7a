import Jukebox.Proofs.Json.RoundTrip

/-!
Records and their fields. What is written under a name is found under it again, and a field that
may be missing reads back whether it is there or not.
-/
namespace Jukebox.Json

theorem word?_ofWord (n : UInt64) : (Value.ofWord n).word? = some n := by
  have hbound : n.toNat ≤ 18446744073709551615 := Nat.le_of_lt_succ n.toNat_lt
  simp [Value.ofWord, Value.word?, Literal.toNat?, Literal.ofNat, Digits.toNat_ofNat, hbound]

/-- An optional field reads back if its contents do and are not null themselves. -/
theorem optional_ofOption {α : Type} {write : α → Value} {read : Value → Option α}
    (hread : ∀ value, read (write value) = some value) (hnull : ∀ value, write value ≠ .null)
    (value : Option α) : optional (some (Value.ofOption write value)) read = some value := by
  cases value with
  | none => rfl
  | some value =>
    have hnullable : (write value).nullable? read = (read (write value)).map some := by
      unfold Value.nullable?
      split
      · next heq => exact absurd heq (hnull value)
      · rfl
    rw [optional, Value.ofOption, hnullable, hread, Option.map_some]

theorem named_record {fields : List (String × Value)} (h : (fields.map (·.1)).Nodup)
    {field : String × Value} (hfield : field ∈ fields) :
    named (fields.map fun (name, value) => (some name, value)) field.1 = [field.2] := by
  induction fields with
  | nil => cases hfield
  | cons head rest ih =>
    obtain ⟨hhead, hrest⟩ := List.nodup_cons.mp h
    have hnone {name : String} (hname : name ∉ rest.map (·.1)) :
        named (rest.map fun (name, value) => (some name, value)) name = [] := by
      rw [named, List.filterMap_map, List.filterMap_eq_nil_iff]
      intro other hother
      have hne : other.1 ≠ name := fun heq => hname (List.mem_map.mpr ⟨other, hother, heq⟩)
      simp [hne]
    rcases List.mem_cons.mp hfield with rfl | hlater
    · simpa [named] using hnone hhead
    · have hne : head.1 ≠ field.1 := fun heq =>
        hhead (List.mem_map.mpr ⟨field, hlater, heq.symm⟩)
      simpa [named, hne] using ih hrest hlater

/-- The fields of a record are found by their names. -/
theorem fields?_record {fields : List (String × Value)} (h : (fields.map (·.1)).Nodup) :
    (Value.record fields).fields? (fields.map (·.1)) =
      some (fields.map fun field => some field.2) := by
  have hkeys : (fields.map fun (name, value) => (some name, value)).all (·.1.isSome) = true := by
    simp
  have hnames : (fields.map (·.1)).all (fun name => decide
      ((named (fields.map fun (name, value) => (some name, value)) name).length ≤ 1)) = true := by
    rw [List.all_eq_true]
    intro name hname
    obtain ⟨field, hfield, rfl⟩ := List.mem_map.mp hname
    simp [named_record h hfield]
  simp only [Value.record, Value.fields?, hkeys, hnames, Bool.and_self, if_true, List.map_map,
    Option.some.injEq]
  refine List.map_congr_left fun field hfield => ?_
  simp only [Function.comp_apply, named_record h hfield, List.head?_cons]

theorem valid_ofOption {α : Type} {write : α → Value} (h : ∀ value, (write value).Valid)
    (value : Option α) : (Value.ofOption write value).Valid := by
  cases value with
  | none => trivial
  | some value => exact h value

theorem valid_array {α : Type} {write : α → Value} (h : ∀ value, (write value).Valid)
    (values : List α) : (Value.array (values.map write)).Valid := by
  change ItemsValid (values.map write)
  induction values with
  | nil => trivial
  | cons value rest ih => exact ⟨h value, ih⟩

/-- A list reads back if its items do. -/
theorem list?_array {α : Type} {write : α → Value} {read : Value → Option α}
    (hread : ∀ value, read (write value) = some value) (values : List α) :
    (Value.array (values.map write)).list? read = some values := by
  change (values.map write).mapM read = some values
  induction values with
  | nil => rfl
  | cons value rest ih => rw [List.map_cons, List.mapM_cons, hread, ih]; rfl

theorem valid_string (text : String) : (Value.string text).Valid := rfl

theorem valid_ofWord (n : UInt64) : (Value.ofWord n).Valid := Literal.valid_ofNat n.toNat

end Jukebox.Json
