/-!
Lists of entries, each under its key. What is looked up under one key does not depend on the
entries under others.
-/
namespace Jukebox.Entries

variable {α β : Type} [BEq α] [LawfulBEq α]

theorem lookup_map (f : α → β → β) (entries : List (α × β)) (key : α) :
    (entries.map fun (other, value) => (other, f other value)).lookup key =
      (entries.lookup key).map (f key) := by
  induction entries with
  | nil => rfl
  | cons head rest ih =>
    obtain ⟨other, value⟩ := head
    rw [List.map_cons, List.lookup_cons, List.lookup_cons]
    cases h : key == other with
    | true =>
      obtain rfl := eq_of_beq h
      rfl
    | false => exact ih

theorem mem_keys_iff {entries : List (α × β)} {key : α} :
    key ∈ entries.map (·.1) ↔ (entries.lookup key).isSome = true := by
  induction entries with
  | nil => simp
  | cons head rest ih =>
    obtain ⟨other, value⟩ := head
    rw [List.map_cons, List.mem_cons, ih, List.lookup_cons]
    cases h : key == other with
    | true => simp [eq_of_beq h]
    | false => simp [ne_of_beq_false h]

/-- What is found under a key is among the entries. -/
theorem mem_of_lookup {entries : List (α × β)} {key : α} {value : β}
    (h : entries.lookup key = some value) : (key, value) ∈ entries := by
  obtain ⟨before, after, heq, -⟩ := List.lookup_eq_some_iff.mp h
  rw [heq]
  exact List.mem_append_right before List.mem_cons_self

/-- Where no key is there twice, each entry is found under its key. -/
theorem lookup_of_mem {entries : List (α × β)} (hkeys : (entries.map (·.1)).Nodup)
    {key : α} {value : β} (h : (key, value) ∈ entries) : entries.lookup key = some value := by
  induction entries with
  | nil => cases h
  | cons head rest ih =>
    rw [List.map_cons, List.nodup_cons] at hkeys
    rcases List.mem_cons.mp h with rfl | hrest
    · exact List.lookup_cons_self
    · have hne : key ≠ head.1 := fun heq =>
        hkeys.1 (heq ▸ List.mem_map_of_mem (f := (·.1)) hrest)
      rw [List.lookup_cons, beq_eq_false_iff_ne.mpr hne]
      exact ih hkeys.2 hrest

variable [DecidableEq α]

theorem lookup_filter_ne (entries : List (α × β)) {key other : α} (h : other ≠ key) :
    (entries.filter (·.1 ≠ key)).lookup other = entries.lookup other := by
  induction entries with
  | nil => rfl
  | cons head rest ih =>
    obtain ⟨first, value⟩ := head
    by_cases hfirst : first = key
    · have hother : (other == first) = false := beq_eq_false_iff_ne.mpr (hfirst ▸ h)
      rw [List.filter_cons_of_neg (by simpa using hfirst), ih, List.lookup_cons, hother]
    · rw [List.filter_cons_of_pos (by simpa using hfirst), List.lookup_cons, ih, List.lookup_cons]

/-- There is nothing to take away under a key that nothing is under. -/
theorem filter_ne_of_missing {entries : List (α × β)} {key : α}
    (h : entries.lookup key = none) : entries.filter (·.1 ≠ key) = entries := by
  rw [List.filter_eq_self]
  intro found hfound
  have hne := bne_iff_ne.mp (List.lookup_eq_none_iff.mp h found hfound)
  exact decide_eq_true hne.symm

theorem lookup_filter_self (entries : List (α × β)) (key : α) :
    (entries.filter (·.1 ≠ key)).lookup key = none := by
  rw [List.lookup_eq_none_iff]
  intro found hfound
  have hne : found.1 ≠ key := by simpa using (List.mem_filter.mp hfound).2
  exact bne_iff_ne.mpr hne.symm

theorem key_not_mem_filter (entries : List (α × β)) (key : α) :
    key ∉ (entries.filter (·.1 ≠ key)).map (·.1) := by
  rw [mem_keys_iff, lookup_filter_self]
  exact Bool.false_ne_true

omit [BEq α] [LawfulBEq α] in
theorem nodup_filter {entries : List (α × β)} (h : (entries.map (·.1)).Nodup) (key : α) :
    ((entries.filter (·.1 ≠ key)).map (·.1)).Nodup :=
  h.sublist (List.filter_sublist.map _)

end Jukebox.Entries
