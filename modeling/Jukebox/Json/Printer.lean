import Jukebox.Json.Value

/-!
Writing JSON text, compact or indented by two spaces a level. In strings only quotes, backslashes
and characters below 0x20 are escaped.
-/
namespace Jukebox.Json

def escape (c : Char) : List Char :=
  if c = '"' then ['\\', '"']
  else if c = '\\' then ['\\', '\\']
  else if c = '\x08' then ['\\', 'b']
  else if c = '\x0c' then ['\\', 'f']
  else if c = '\n' then ['\\', 'n']
  else if c = '\r' then ['\\', 'r']
  else if c = '\t' then ['\\', 't']
  else if c.toNat < 0x20 then '\\' :: 'u' :: Digits.hex 4 c.toNat
  else [c]

def quote (s : String) : List Char := '"' :: s.toList.flatMap escape ++ ['"']

/-- A text that no string holds has no form of its own and is written empty. -/
def quoteContent (content : Option String) : List Char := quote (content.getD "")

def Literal.chars (literal : Literal) : List Char :=
  (if literal.negative then ['-'] else []) ++ Digits.chars literal.whole ++
    (if literal.fraction.isEmpty then [] else '.' :: Digits.chars literal.fraction) ++
    match literal.exponent with
    | none => []
    | some (negative, digits) => 'e' :: (if negative then '-' else '+') :: Digits.chars digits

mutual

def Value.compactChars : Value → List Char
  | .null => ['n', 'u', 'l', 'l']
  | .bool true => ['t', 'r', 'u', 'e']
  | .bool false => ['f', 'a', 'l', 's', 'e']
  | .number literal => literal.chars
  | .text content => quoteContent content
  | .array items => '[' :: compactItems items ++ [']']
  | .object fields => '\x7b' :: compactFields fields ++ ['\x7d']

def compactItems : List Value → List Char
  | [] => []
  | [item] => item.compactChars
  | item :: rest => item.compactChars ++ ',' :: compactItems rest

def compactFields : List (Option String × Value) → List Char
  | [] => []
  | [(key, value)] => quoteContent key ++ ':' :: value.compactChars
  | (key, value) :: rest =>
    quoteContent key ++ ':' :: value.compactChars ++ ',' :: compactFields rest

end

def newLine (level : Nat) : List Char := '\n' :: List.replicate (2 * level) ' '

mutual

def Value.prettyChars (level : Nat) : Value → List Char
  | .null => ['n', 'u', 'l', 'l']
  | .bool true => ['t', 'r', 'u', 'e']
  | .bool false => ['f', 'a', 'l', 's', 'e']
  | .number literal => literal.chars
  | .text content => quoteContent content
  | .array [] => ['[', ']']
  | .array items => '[' :: prettyItems (level + 1) items ++ newLine level ++ [']']
  | .object [] => ['\x7b', '\x7d']
  | .object fields => '\x7b' :: prettyFields (level + 1) fields ++ newLine level ++ ['\x7d']

def prettyItems (level : Nat) : List Value → List Char
  | [] => []
  | [item] => newLine level ++ item.prettyChars level
  | item :: rest => newLine level ++ item.prettyChars level ++ ',' :: prettyItems level rest

def prettyFields (level : Nat) : List (Option String × Value) → List Char
  | [] => []
  | [(key, value)] => newLine level ++ quoteContent key ++ ':' :: ' ' :: value.prettyChars level
  | (key, value) :: rest =>
    newLine level ++ quoteContent key ++ ':' :: ' ' :: value.prettyChars level ++
      ',' :: prettyFields level rest

end

def Value.compact (value : Value) : String := String.ofList value.compactChars

def Value.pretty (value : Value) : String := String.ofList (value.prettyChars 0)

end Jukebox.Json
