import Jukebox.Proofs.Json.Strings
import Jukebox.Proofs.Json.Numbers

/-!
A written JSON value reads back, whether it is written compactly or indented. A text of a value in
any layout is described once, with spaces wherever the reader skips them; the reader gives the
value of each such text, and what the printers write is such a text. Each token takes a byte, and
the length of the text is fuel enough.
-/
namespace Jukebox.Json

mutual

/-- A value that can be written: its numbers are numbers and its texts are strings. -/
def Value.Valid : Value → Prop
  | .null => True
  | .bool _ => True
  | .number literal => literal.Valid
  | .text content => content.isSome = true
  | .array items => ItemsValid items
  | .object fields => FieldsValid fields

def ItemsValid : List Value → Prop
  | [] => True
  | item :: rest => item.Valid ∧ ItemsValid rest

def FieldsValid : List (Option String × Value) → Prop
  | [] => True
  | (key, value) :: rest => key.isSome = true ∧ value.Valid ∧ FieldsValid rest

end

/-! ### Layouts -/

def Spaces (bytes : Bytes) : Prop := ∀ b ∈ bytes, isSpace b = true

theorem spaces_nil : Spaces [] := nofun

mutual

/-- A text of the value, with any spaces between its tokens. -/
inductive Laid : Value → Bytes → Prop
  | null : Laid .null (utf8Bytes (Value.compactChars .null))
  | bool (value : Bool) : Laid (.bool value) (utf8Bytes (Value.bool value).compactChars)
  | number {literal : Literal} (h : literal.Valid) :
      Laid (.number literal) (utf8Bytes literal.chars)
  | text (text : String) : Laid (.text (some text)) (utf8Bytes (quote text))
  | noItems {gap : Bytes} (hgap : Spaces gap) :
      Laid (.array []) (byte '[' :: (gap ++ [byte ']']))
  | items {items : List Value} {body : Bytes} (hbody : LaidItems items body) :
      Laid (.array items) (byte '[' :: (body ++ [byte ']']))
  | noFields {gap : Bytes} (hgap : Spaces gap) :
      Laid (.object []) (byte '\x7b' :: (gap ++ [byte '\x7d']))
  | fields {fields : List (Option String × Value)} {body : Bytes} (hbody : LaidFields fields body) :
      Laid (.object fields) (byte '\x7b' :: (body ++ [byte '\x7d']))

inductive LaidItems : List Value → Bytes → Prop
  | last {item : Value} {before text after : Bytes} (hbefore : Spaces before)
      (hitem : Laid item text) (hafter : Spaces after) :
      LaidItems [item] (before ++ (text ++ after))
  | more {item : Value} {before text after : Bytes} (hbefore : Spaces before)
      (hitem : Laid item text) (hafter : Spaces after) {items : List Value} {body : Bytes}
      (hbody : LaidItems items body) :
      LaidItems (item :: items) (before ++ (text ++ (after ++ byte ',' :: body)))

inductive LaidFields : List (Option String × Value) → Bytes → Prop
  | last (name : String) {value : Value} {before gap lead text after : Bytes}
      (hbefore : Spaces before) (hgap : Spaces gap) (hlead : Spaces lead)
      (hvalue : Laid value text) (hafter : Spaces after) :
      LaidFields [(some name, value)]
        (before ++ (utf8Bytes (quote name) ++ (gap ++ byte ':' :: (lead ++ (text ++ after)))))
  | more (name : String) {value : Value} {before gap lead text after : Bytes}
      (hbefore : Spaces before) (hgap : Spaces gap) (hlead : Spaces lead)
      (hvalue : Laid value text) (hafter : Spaces after)
      {fields : List (Option String × Value)} {body : Bytes} (hbody : LaidFields fields body) :
      LaidFields ((some name, value) :: fields)
        (before ++ (utf8Bytes (quote name) ++
          (gap ++ byte ':' :: (lead ++ (text ++ (after ++ byte ',' :: body))))))

end

/-! ### Skipping spaces -/

theorem skipSpace_cons {b : UInt8} (h : isSpace b = false) (rest : Bytes) :
    skipSpace (b :: rest) = b :: rest := by
  simp [skipSpace, h]

theorem skipSpace_append {gap : Bytes} (h : Spaces gap) (rest : Bytes) :
    skipSpace (gap ++ rest) = skipSpace rest :=
  List.dropWhile_append_of_pos h

theorem skipSpace_gap {gap : Bytes} (h : Spaces gap) {b : UInt8} (hb : isSpace b = false)
    (rest : Bytes) : skipSpace (gap ++ b :: rest) = b :: rest := by
  rw [skipSpace_append h, skipSpace_cons hb]

variable {fuel : Nat} {bytes after more rest : Bytes}

theorem skipSpace_skipSpace (bytes : Bytes) : skipSpace (skipSpace bytes) = skipSpace bytes := by
  induction bytes with
  | nil => rfl
  | cons b rest ih =>
    cases h : isSpace b with
    | true => simpa [skipSpace, h] using ih
    | false => rw [skipSpace_cons h, skipSpace_cons h]

theorem value?_skipSpace (fuel : Nat) (bytes : Bytes) :
    value? fuel (skipSpace bytes) = value? fuel bytes := by
  cases fuel with
  | zero => rfl
  | succ fuel => simp only [value?, skipSpace_skipSpace]

theorem items?_skipSpace (fuel : Nat) (bytes : Bytes) :
    items? fuel (skipSpace bytes) = items? fuel bytes := by
  cases fuel with
  | zero => rfl
  | succ fuel => simp only [items?, value?_skipSpace]

theorem fields?_skipSpace (fuel : Nat) (bytes : Bytes) :
    fields? fuel (skipSpace bytes) = fields? fuel bytes := by
  cases fuel with
  | zero => rfl
  | succ fuel => simp only [fields?, skipSpace_skipSpace]

theorem value?_append {gap : Bytes} (h : Spaces gap) (fuel : Nat) (rest : Bytes) :
    value? fuel (gap ++ rest) = value? fuel rest := by
  rw [← value?_skipSpace, skipSpace_append h, value?_skipSpace]

/-! ### Steps of the reader -/

/-- No value begins with the end of an array. -/
theorem begins_of_items? {items : List Value} (h : items? fuel bytes = some (items, rest)) :
    ∃ b later, skipSpace bytes = b :: later ∧ b ≠ byte ']' := by
  cases fuel with
  | zero => cases h
  | succ fuel =>
    have hnone (hvalue : value? fuel bytes = none) : False := by
      simp only [items?, hvalue] at h
      cases h
    cases fuel with
    | zero => exact (hnone rfl).elim
    | succ fuel =>
      cases hskip : skipSpace bytes with
      | nil => exact (hnone (by simp only [value?, hskip])).elim
      | cons b later =>
        refine ⟨b, later, rfl, ?_⟩
        rintro rfl
        exact hnone (by simp only [value?, hskip]; rfl)

/-- Every key begins with a quote. -/
theorem begins_of_fields? {fields : List (Option String × Value)}
    (h : fields? fuel bytes = some (fields, rest)) :
    ∃ later, skipSpace bytes = byte '"' :: later := by
  cases fuel with
  | zero => cases h
  | succ fuel =>
    have hnone (hkey : quoted? (skipSpace bytes) = none) : False := by
      simp only [fields?, hkey] at h
      cases h
    cases hskip : skipSpace bytes with
    | nil => exact (hnone (by rw [hskip]; rfl)).elim
    | cons b later =>
      by_cases hb : b = byte '"'
      · exact ⟨later, by rw [hb]⟩
      · exact (hnone (by rw [hskip, quoted?, if_neg hb])).elim

theorem items?_one {item : Value} (hitem : value? fuel bytes = some (item, after))
    (hclose : skipSpace after = byte ']' :: rest) :
    items? (fuel + 1) bytes = some ([item], rest) := by
  simp only [items?, hitem, hclose, if_true]

theorem items?_more {item : Value} {items : List Value}
    (hitem : value? fuel bytes = some (item, after)) (hcomma : skipSpace after = byte ',' :: more)
    (hitems : items? fuel more = some (items, rest)) :
    items? (fuel + 1) bytes = some (item :: items, rest) := by
  have hopen : byte ',' ≠ byte ']' := by decide
  simp only [items?, hitem, hcomma, hopen, if_true, if_false, hitems, Option.map_some]

theorem fields?_one {key : Option String} {value : Value}
    (hkey : quoted? (skipSpace bytes) = some (key, after))
    (hcolon : skipSpace after = byte ':' :: more)
    {last : Bytes} (hvalue : value? fuel more = some (value, last))
    (hclose : skipSpace last = byte '\x7d' :: rest) :
    fields? (fuel + 1) bytes = some ([(key, value)], rest) := by
  simp only [fields?, hkey, hcolon, hvalue, hclose, if_true]

theorem fields?_more {key : Option String} {value : Value} {fields : List (Option String × Value)}
    (hkey : quoted? (skipSpace bytes) = some (key, after))
    (hcolon : skipSpace after = byte ':' :: more)
    {last next : Bytes} (hvalue : value? fuel more = some (value, last))
    (hcomma : skipSpace last = byte ',' :: next)
    (hfields : fields? fuel next = some (fields, rest)) :
    fields? (fuel + 1) bytes = some ((key, value) :: fields, rest) := by
  have hopen : byte ',' ≠ byte '\x7d' := by decide
  simp only [fields?, hkey, hcolon, hvalue, hcomma, hopen, if_true, if_false, hfields,
    Option.map_some]

theorem value?_emptyArray (hclose : skipSpace bytes = byte ']' :: rest) :
    value? (fuel + 1) (byte '[' :: bytes) = some (.array [], rest) := by
  have hspace : isSpace (byte '[') = false := by decide
  have hother : byte '[' ≠ byte '\x7b' := by decide
  simp only [value?, skipSpace_cons hspace, hother, if_false, if_true, hclose]

theorem value?_array {items : List Value} (hitems : items? fuel bytes = some (items, rest)) :
    value? (fuel + 1) (byte '[' :: bytes) = some (.array items, rest) := by
  have hspace : isSpace (byte '[') = false := by decide
  have hother : byte '[' ≠ byte '\x7b' := by decide
  obtain ⟨b, later, hskip, hb⟩ := begins_of_items? hitems
  rw [← items?_skipSpace, hskip] at hitems
  simp only [value?, skipSpace_cons hspace, hother, hb, if_false, if_true, hskip, hitems,
    Option.map_some]

theorem value?_emptyObject (hclose : skipSpace bytes = byte '\x7d' :: rest) :
    value? (fuel + 1) (byte '\x7b' :: bytes) = some (.object [], rest) := by
  have hspace : isSpace (byte '\x7b') = false := by decide
  simp only [value?, skipSpace_cons hspace, if_true, hclose]

theorem value?_object {fields : List (Option String × Value)}
    (hfields : fields? fuel bytes = some (fields, rest)) :
    value? (fuel + 1) (byte '\x7b' :: bytes) = some (.object fields, rest) := by
  have hspace : isSpace (byte '\x7b') = false := by decide
  have hquote : byte '"' ≠ byte '\x7d' := by decide
  obtain ⟨later, hskip⟩ := begins_of_fields? hfields
  rw [← fields?_skipSpace, hskip] at hfields
  simp only [value?, skipSpace_cons hspace, hquote, if_false, if_true, hskip, hfields,
    Option.map_some]

theorem value?_text (text : String) :
    value? (fuel + 1) (utf8Bytes (quote text) ++ rest) = some (.text (some text), rest) := by
  have hquoted := quoted?_quote text rest
  have hspace : isSpace (byte '"') = false := by decide
  have hobject : byte '"' ≠ byte '\x7b' := by decide
  have harray : byte '"' ≠ byte '[' := by decide
  rw [quote, List.cons_append, utf8Bytes_cons_ascii (by decide), List.cons_append] at hquoted ⊢
  simp only [value?, skipSpace_cons hspace, hobject, harray, if_false, if_true, hquoted,
    Option.map_some]

/-- No other value begins with a digit. -/
theorem begins_digit : ∀ digit < 10, (Digits.char digit).toNat < 128 ∧
    isSpace (byte (Digits.char digit)) = false ∧
    byte (Digits.char digit) ≠ byte '\x7b' ∧ byte (Digits.char digit) ≠ byte '[' ∧
    byte (Digits.char digit) ≠ byte '"' ∧ byte (Digits.char digit) ≠ byte '-' ∧
    byte (Digits.char digit) ≠ byte ']' ∧ (digit? (byte (Digits.char digit))).isSome = true := by
  decide

theorem value?_number {literal : Literal} (h : literal.Valid) (hrest : EndsNumber rest) :
    value? (fuel + 1) (utf8Bytes literal.chars ++ rest) = some (.number literal, rest) := by
  have hunsigned := Literal.unsigned?_chars h hrest
  rw [Literal.chars_eq]
  cases hnegative : literal.negative with
  | true =>
    have hspace : isSpace (byte '-') = false := by decide
    have hobject : byte '-' ≠ byte '\x7b' := by decide
    have harray : byte '-' ≠ byte '[' := by decide
    have htext : byte '-' ≠ byte '"' := by decide
    rw [hnegative] at hunsigned
    rw [if_pos rfl, List.append_assoc, List.append_assoc, List.cons_append, List.nil_append,
      utf8Bytes_cons_ascii (by decide), List.cons_append, ← List.append_assoc (Digits.chars _)]
    simp only [value?, skipSpace_cons hspace, hobject, harray, htext, if_false, if_true, hunsigned]
  | false =>
    obtain ⟨digit, digits, hwhole⟩ := List.exists_cons_of_ne_nil h.whole_ne_nil
    have hdigit : digit < 10 := h.whole_lt digit (hwhole ▸ List.mem_cons_self)
    obtain ⟨-, hspace, hobject, harray, htext, hsign, -, hsome⟩ := begins_digit digit hdigit
    rw [hnegative, hwhole, utf8Bytes_append, utf8Bytes_append,
      utf8Bytes_chars_cons hdigit] at hunsigned
    rw [if_neg Bool.false_ne_true, List.nil_append, hwhole, utf8Bytes_append, utf8Bytes_append,
      utf8Bytes_chars_cons hdigit]
    simp only [List.cons_append] at hunsigned ⊢
    simp only [value?, skipSpace_cons hspace, hobject, harray, htext, hsign, hsome, if_false,
      if_true, hunsigned]

theorem value?_null :
    value? (fuel + 1) (utf8Bytes (Value.compactChars .null) ++ rest) = some (.null, rest) := rfl

theorem value?_bool (value : Bool) :
    value? (fuel + 1) (utf8Bytes (Value.bool value).compactChars ++ rest) =
      some (.bool value, rest) := by
  cases value <;> rfl

/-- What follows a value in an object or an array. -/
theorem endsNumber_gap {gap : Bytes} (hgap : Spaces gap) {b : UInt8}
    (hb : b ∈ [byte ',', byte ']', byte '\x7d']) (rest : Bytes) :
    EndsNumber (gap ++ b :: rest) := by
  have hends (c : UInt8) (hc : isSpace c = true ∨ c ∈ [byte ',', byte ']', byte '\x7d'])
      (later : Bytes) : EndsNumber (c :: later) := by
    intro d hd
    obtain rfl : c = d := Option.some.inj hd
    simp only [isSpace, Bool.or_eq_true, decide_eq_true_eq, List.mem_cons, List.not_mem_nil,
      or_false] at hc
    rcases hc with (((rfl | rfl) | rfl) | rfl) | rfl | rfl | rfl <;> decide
  cases gap with
  | nil => exact hends b (Or.inr hb) rest
  | cons c later => exact hends c (Or.inl (hgap c List.mem_cons_self)) _

theorem quoted?_gap {gap : Bytes} (hgap : Spaces gap) (name : String) (rest : Bytes) :
    quoted? (skipSpace (gap ++ (utf8Bytes (quote name) ++ rest))) = some (some name, rest) := by
  have hquoted := quoted?_quote name rest
  rw [quote, List.cons_append, utf8Bytes_cons_ascii (by decide), List.cons_append] at hquoted ⊢
  rw [skipSpace_gap hgap (by decide), hquoted]

/-- With this much fuel the reader gives the value of every text that is short enough. -/
def ReadsValues (fuel : Nat) : Prop :=
  ∀ value text rest, Laid value text → text.length < fuel → EndsNumber rest →
    value? fuel (text ++ rest) = some (value, rest)

def ReadsItems (fuel : Nat) : Prop :=
  ∀ items body rest, LaidItems items body → body.length + 1 < fuel →
    items? fuel (body ++ byte ']' :: rest) = some (items, rest)

def ReadsFields (fuel : Nat) : Prop :=
  ∀ fields body rest, LaidFields fields body → body.length + 1 < fuel →
    fields? fuel (body ++ byte '\x7d' :: rest) = some (fields, rest)

theorem readsValues_succ (hitems : ReadsItems fuel) (hfields : ReadsFields fuel) :
    ReadsValues (fuel + 1) := by
  intro value text rest h hfuel hrest
  cases h with
  | null => exact value?_null
  | bool value => exact value?_bool value
  | number h => exact value?_number h hrest
  | text text => exact value?_text text
  | noItems hgap =>
    rw [List.cons_append, List.append_assoc]
    exact value?_emptyArray (skipSpace_gap hgap (by decide) rest)
  | items hbody =>
    simp only [List.length_cons, List.length_append, List.length_nil] at hfuel
    rw [List.cons_append, List.append_assoc]
    exact value?_array (hitems _ _ rest hbody (by omega))
  | noFields hgap =>
    rw [List.cons_append, List.append_assoc]
    exact value?_emptyObject (skipSpace_gap hgap (by decide) rest)
  | fields hbody =>
    simp only [List.length_cons, List.length_append, List.length_nil] at hfuel
    rw [List.cons_append, List.append_assoc]
    exact value?_object (hfields _ _ rest hbody (by omega))

theorem readsItems_succ (hvalues : ReadsValues fuel) (hitems : ReadsItems fuel) :
    ReadsItems (fuel + 1) := by
  intro items body rest h hfuel
  cases h with
  | last hbefore hitem hafter =>
    simp only [List.length_append] at hfuel
    have hvalue := hvalues _ _ _ hitem (by omega)
      (endsNumber_gap hafter (b := byte ']') (by simp) rest)
    rw [← value?_append hbefore] at hvalue
    simp only [List.append_assoc]
    exact items?_one hvalue (skipSpace_gap hafter (by decide) rest)
  | @more item before text after hbefore hitem hafter items body hbody =>
    simp only [List.length_append, List.length_cons] at hfuel
    have hvalue := hvalues _ _ _ hitem (by omega)
      (endsNumber_gap hafter (b := byte ',') (by simp) (body ++ byte ']' :: rest))
    rw [← value?_append hbefore] at hvalue
    simp only [List.append_assoc, List.cons_append]
    exact items?_more hvalue (skipSpace_gap hafter (by decide) _)
      (hitems _ _ rest hbody (by omega))

theorem readsFields_succ (hvalues : ReadsValues fuel) (hfields : ReadsFields fuel) :
    ReadsFields (fuel + 1) := by
  intro fields body rest h hfuel
  cases h with
  | @last name value before gap lead text after hbefore hgap hlead hvalue hafter =>
    simp only [List.length_append, List.length_cons] at hfuel
    have hread := hvalues _ _ _ hvalue (by omega)
      (endsNumber_gap hafter (b := byte '\x7d') (by simp) rest)
    rw [← value?_append hlead] at hread
    simp only [List.append_assoc, List.cons_append]
    exact fields?_one (quoted?_gap hbefore name _) (skipSpace_gap hgap (by decide) _) hread
      (skipSpace_gap hafter (by decide) rest)
  | @more name value before gap lead text after hbefore hgap hlead hvalue hafter fields body
      hbody =>
    simp only [List.length_append, List.length_cons] at hfuel
    have hread := hvalues _ _ _ hvalue (by omega)
      (endsNumber_gap hafter (b := byte ',') (by simp) (body ++ byte '\x7d' :: rest))
    rw [← value?_append hlead] at hread
    simp only [List.append_assoc, List.cons_append]
    exact fields?_more (quoted?_gap hbefore name _) (skipSpace_gap hgap (by decide) _) hread
      (skipSpace_gap hafter (by decide) _) (hfields _ _ rest hbody (by omega))

/-- Each of the three readers needs the others with less fuel. -/
theorem reads_laid (fuel : Nat) : ReadsValues fuel ∧ ReadsItems fuel ∧ ReadsFields fuel := by
  induction fuel with
  | zero =>
    exact ⟨fun _ _ _ _ h => absurd h (Nat.not_lt_zero _),
      fun _ _ _ _ h => absurd h (Nat.not_lt_zero _), fun _ _ _ _ h => absurd h (Nat.not_lt_zero _)⟩
  | succ fuel ih =>
    obtain ⟨hvalues, hitems, hfields⟩ := ih
    exact ⟨readsValues_succ hitems hfields, readsItems_succ hvalues hitems,
      readsFields_succ hvalues hfields⟩

theorem parseBytes?_laid {value : Value} {text : Bytes} (h : Laid value text) :
    parseBytes? text = some value := by
  have hvalue := (reads_laid _).1 value text [] h (Nat.lt_succ_self _) nofun
  rw [List.append_nil] at hvalue
  simp only [parseBytes?, hvalue]
  rfl

/-! ### What the printers write -/

theorem quoteContent_some (name : String) : quoteContent (some name) = quote name := rfl

theorem utf8Bytes_enclosed {left right : Char} (hleft : left.toNat < 128)
    (hright : right.toNat < 128) (chars : List Char) :
    utf8Bytes (left :: chars ++ [right]) = byte left :: (utf8Bytes chars ++ [byte right]) := by
  rw [List.cons_append, utf8Bytes_cons_ascii hleft, utf8Bytes_append,
    utf8Bytes_cons_ascii hright, utf8Bytes_nil]

theorem utf8Bytes_separated {mark : Char} (hmark : mark.toNat < 128) (chars others : List Char) :
    utf8Bytes (chars ++ mark :: others) = utf8Bytes chars ++ byte mark :: utf8Bytes others := by
  rw [utf8Bytes_append, utf8Bytes_cons_ascii hmark]

mutual

theorem laid_compact (value : Value) (h : value.Valid) :
    Laid value (utf8Bytes value.compactChars) := by
  match value, h with
  | .null, _ => exact .null
  | .bool value, _ => exact .bool value
  | .number literal, h => exact .number h
  | .text content, h =>
    obtain ⟨text, rfl⟩ := Option.isSome_iff_exists.mp h
    exact .text text
  | .array [], _ => exact .noItems spaces_nil
  | .array (item :: items), h =>
    rw [Value.compactChars, utf8Bytes_enclosed (by decide) (by decide)]
    exact .items (laidItems_compact (item :: items) h (by simp))
  | .object [], _ => exact .noFields spaces_nil
  | .object (field :: fields), h =>
    rw [Value.compactChars, utf8Bytes_enclosed (by decide) (by decide)]
    exact .fields (laidFields_compact (field :: fields) h (by simp))

theorem laidItems_compact (items : List Value) (h : ItemsValid items) (hne : items ≠ []) :
    LaidItems items (utf8Bytes (compactItems items)) := by
  match items, h with
  | [], _ => exact absurd rfl hne
  | [item], h =>
    have hlast := LaidItems.last spaces_nil (laid_compact item h.1) spaces_nil
    rwa [List.nil_append, List.append_nil] at hlast
  | item :: next :: items, h =>
    have hmore := LaidItems.more spaces_nil (laid_compact item h.1) spaces_nil
      (laidItems_compact (next :: items) h.2 (by simp))
    rw [compactItems, utf8Bytes_separated (by decide)]
    · exact hmore
    · simp

theorem laidFields_compact (fields : List (Option String × Value)) (h : FieldsValid fields)
    (hne : fields ≠ []) : LaidFields fields (utf8Bytes (compactFields fields)) := by
  match fields, h with
  | [], _ => exact absurd rfl hne
  | [(key, value)], h =>
    obtain ⟨name, rfl⟩ := Option.isSome_iff_exists.mp h.1
    have hlast := LaidFields.last name spaces_nil spaces_nil spaces_nil
      (laid_compact value h.2.1) spaces_nil
    rw [compactFields, quoteContent_some, utf8Bytes_separated (by decide)]
    simpa only [List.nil_append, List.append_nil] using hlast
  | (key, value) :: next :: fields, h =>
    obtain ⟨name, rfl⟩ := Option.isSome_iff_exists.mp h.1
    have hmore := LaidFields.more name spaces_nil spaces_nil spaces_nil
      (laid_compact value h.2.1) spaces_nil (laidFields_compact (next :: fields) h.2.2 (by simp))
    rw [compactFields, List.append_assoc, List.cons_append, utf8Bytes_separated (by decide),
      utf8Bytes_separated (by decide)]
    · exact hmore
    · simp

end

theorem spaces_newLine (level : Nat) : Spaces (utf8Bytes (newLine level)) := by
  have hspaces (chars : List Char) (hchars : ∀ c ∈ chars, c = '\n' ∨ c = ' ') :
      Spaces (utf8Bytes chars) := by
    intro b hb
    obtain ⟨c, hc, hb⟩ := List.mem_flatMap.mp hb
    rcases hchars c hc with rfl | rfl
    · obtain rfl := List.mem_singleton.mp hb
      decide
    · obtain rfl := List.mem_singleton.mp hb
      decide
  refine hspaces _ fun c hc => ?_
  rcases List.mem_cons.mp hc with rfl | hc
  · exact Or.inl rfl
  · exact Or.inr (List.eq_of_mem_replicate hc)

mutual

theorem laid_pretty (value : Value) (h : value.Valid) (level : Nat) :
    Laid value (utf8Bytes (value.prettyChars level)) := by
  match value, h with
  | .null, _ => exact .null
  | .bool true, _ => exact .bool true
  | .bool false, _ => exact .bool false
  | .number literal, h => exact .number h
  | .text content, h =>
    obtain ⟨text, rfl⟩ := Option.isSome_iff_exists.mp h
    exact .text text
  | .array [], _ => exact .noItems spaces_nil
  | .array (item :: items), h =>
    have hbody := laidItems_pretty (item :: items) h (by simp) (level + 1) (spaces_newLine level)
    rw [Value.prettyChars, List.cons_append, utf8Bytes_enclosed (by decide) (by decide),
      utf8Bytes_append]
    · exact .items hbody
    · simp
  | .object [], _ => exact .noFields spaces_nil
  | .object (field :: fields), h =>
    have hbody := laidFields_pretty (field :: fields) h (by simp) (level + 1)
      (spaces_newLine level)
    rw [Value.prettyChars, List.cons_append, utf8Bytes_enclosed (by decide) (by decide),
      utf8Bytes_append]
    · exact .fields hbody
    · simp

theorem laidItems_pretty (items : List Value) (h : ItemsValid items) (hne : items ≠ [])
    (level : Nat) {gap : Bytes} (hgap : Spaces gap) :
    LaidItems items (utf8Bytes (prettyItems level items) ++ gap) := by
  have hline := spaces_newLine level
  match items, h with
  | [], _ => exact absurd rfl hne
  | [item], h =>
    rw [prettyItems, utf8Bytes_append, List.append_assoc]
    exact .last hline (laid_pretty item h.1 level) hgap
  | item :: next :: items, h =>
    have hmore := LaidItems.more hline (laid_pretty item h.1 level) spaces_nil
      (laidItems_pretty (next :: items) h.2 (by simp) level hgap)
    rw [prettyItems, utf8Bytes_separated (by decide), utf8Bytes_append]
    · simpa only [List.append_assoc, List.cons_append, List.nil_append] using hmore
    · simp

theorem laidFields_pretty (fields : List (Option String × Value)) (h : FieldsValid fields)
    (hne : fields ≠ []) (level : Nat) {gap : Bytes} (hgap : Spaces gap) :
    LaidFields fields (utf8Bytes (prettyFields level fields) ++ gap) := by
  have hline := spaces_newLine level
  have hspace : Spaces [byte ' '] := by
    intro b hb
    obtain rfl := List.mem_singleton.mp hb
    decide
  match fields, h with
  | [], _ => exact absurd rfl hne
  | [(key, value)], h =>
    obtain ⟨name, rfl⟩ := Option.isSome_iff_exists.mp h.1
    have hlast := LaidFields.last name hline spaces_nil hspace
      (laid_pretty value h.2.1 level) hgap
    rw [prettyFields, quoteContent_some, utf8Bytes_separated (by decide), utf8Bytes_append,
      utf8Bytes_cons_ascii (by decide)]
    simpa only [List.append_assoc, List.cons_append, List.nil_append] using hlast
  | (key, value) :: next :: fields, h =>
    obtain ⟨name, rfl⟩ := Option.isSome_iff_exists.mp h.1
    have hmore := LaidFields.more name hline spaces_nil hspace
      (laid_pretty value h.2.1 level) spaces_nil
      (laidFields_pretty (next :: fields) h.2.2 (by simp) level hgap)
    rw [prettyFields, quoteContent_some, List.append_assoc, List.cons_append, List.cons_append,
      utf8Bytes_separated (by decide), utf8Bytes_append, utf8Bytes_cons_ascii (by decide),
      utf8Bytes_separated (by decide)]
    · simpa only [List.append_assoc, List.cons_append, List.nil_append] using hmore
    · simp

end

/-- The compact text of a value reads back. -/
theorem parseBytes?_compact {value : Value} (h : value.Valid) :
    parseBytes? value.compact.toUTF8.data.toList = some value := by
  rw [Value.compact, toUTF8_ofList]
  exact parseBytes?_laid (laid_compact value h)

/-- The indented text of a value reads back. -/
theorem parse?_pretty {value : Value} (h : value.Valid) : parse? value.pretty = some value := by
  rw [parse?, Value.pretty, toUTF8_ofList]
  exact parseBytes?_laid (laid_pretty value h 0)

end Jukebox.Json
