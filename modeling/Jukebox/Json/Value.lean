import Jukebox.Text.Digits
import Jukebox.Number.Decimal

/-!
JSON values as they stand in a text. Numbers keep their digits and objects their fields in order,
doubles included, because what a reader makes of them depends on what it wants. A text that no
string can hold, one with half a surrogate pair or bytes that are not UTF-8, is kept as `none`.
-/
namespace Jukebox.Json

/-- A number as it is written. No fraction digits means no point. -/
structure Literal where
  negative : Bool := false
  whole : List Nat
  fraction : List Nat := []
  exponent : Option (Bool × List Nat) := none
deriving DecidableEq

inductive Value
  | null
  | bool (value : Bool)
  | number (literal : Literal)
  | text (content : Option String)
  | array (items : List Value)
  | object (fields : List (Option String × Value))

namespace Literal

def ofNat (n : Nat) : Literal := { whole := Digits.ofNat n }

/-- The number, if it is written as a plain whole number up to the bound. -/
def toNat? (bound : Nat) (literal : Literal) : Option Nat :=
  if literal.negative || ! literal.fraction.isEmpty || literal.exponent.isSome then none
  else if Digits.toNat literal.whole ≤ bound then some (Digits.toNat literal.whole)
  else none

end Literal

namespace Value

def string (s : String) : Value := .text (some s)

def ofWord (n : UInt64) : Value := .number (Literal.ofNat n.toNat)

def ofOption {α : Type} (write : α → Value) : Option α → Value
  | some value => write value
  | none => .null

def record (fields : List (String × Value)) : Value :=
  .object (fields.map fun (name, value) => (some name, value))

def bool? : Value → Option Bool
  | .bool value => some value
  | _ => none

def text? : Value → Option String
  | .text content => content
  | _ => none

def word? : Value → Option UInt64
  | .number literal => (literal.toNat? (UInt64.size - 1)).map UInt64.ofNat
  | _ => none

def shortWord? : Value → Option UInt16
  | .number literal => (literal.toNat? (UInt16.size - 1)).map UInt16.ofNat
  | _ => none

def nullable? {α : Type} (read : Value → Option α) : Value → Option (Option α)
  | .null => some none
  | value => (read value).map some

def list? {α : Type} (read : Value → Option α) : Value → Option (List α)
  | .array items => items.mapM read
  | _ => none

/-- The name of a choice without contents: the name alone, or an object that gives it null. -/
def choice? : Value → Option String
  | .text content => content
  | .object [(name, .null)] => name
  | _ => none

end Value

/-! ### Records -/

def named (fields : List (Option String × Value)) (name : String) : List Value :=
  fields.filterMap fun (key, value) => if key = some name then some value else none

/-- The values of the given names. An object may have other fields besides, but no name twice and
no key that is no string; an array must have exactly one item for each name. -/
def Value.fields? (names : List String) : Value → Option (List (Option Value))
  | .object fields =>
    if fields.all (·.1.isSome) && names.all (fun name => (named fields name).length ≤ 1) then
      some (names.map fun name => (named fields name).head?)
    else none
  | .array items =>
    if items.length = names.length then some (items.map some) else none
  | _ => none

def required {α : Type} (field : Option Value) (read : Value → Option α) : Option α :=
  field.bind read

def optional {α : Type} (field : Option Value) (read : Value → Option α) : Option (Option α) :=
  match field with
  | none => some none
  | some value => value.nullable? read

end Jukebox.Json
