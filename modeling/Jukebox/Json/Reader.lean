import Jukebox.Json.Value

/-!
Reading JSON text, byte by byte. Between tokens stand spaces, tabs and line ends; nothing may
follow the value. Inside a string no byte below 0x20 may stand as it is.
-/
namespace Jukebox.Json

abbrev Bytes := List UInt8

def byte (c : Char) : UInt8 := UInt8.ofNat c.toNat

def isSpace (b : UInt8) : Bool := b = 0x20 || b = 0x09 || b = 0x0a || b = 0x0d

def skipSpace (bytes : Bytes) : Bytes := bytes.dropWhile isSpace

/-! ### Numbers -/

def digit? (b : UInt8) : Option Nat :=
  if 0x30 ≤ b && b ≤ 0x39 then some (b.toNat - 0x30) else none

def spanDigits : Bytes → List Nat × Bytes
  | [] => ([], [])
  | b :: rest =>
    match digit? b with
    | some digit => (digit :: (spanDigits rest).1, (spanDigits rest).2)
    | none => ([], b :: rest)

def someDigits? (bytes : Bytes) : Option (List Nat × Bytes) :=
  match spanDigits bytes with
  | ([], _) => none
  | found => some found

/-- The whole part: a zero stands alone. -/
def whole? (bytes : Bytes) : Option (List Nat × Bytes) :=
  match someDigits? bytes with
  | some (0 :: _ :: _, _) => none
  | found => found

def fraction? : Bytes → Option (List Nat × Bytes)
  | b :: rest => if b = byte '.' then someDigits? rest else some ([], b :: rest)
  | [] => some ([], [])

def exponentSign : Bytes → Bool × Bytes
  | b :: rest =>
    if b = byte '-' then (true, rest)
    else if b = byte '+' then (false, rest)
    else (false, b :: rest)
  | [] => (false, [])

def exponent? : Bytes → Option (Option (Bool × List Nat) × Bytes)
  | b :: rest =>
    if b = byte 'e' || b = byte 'E' then
      let (negative, rest) := exponentSign rest
      (someDigits? rest).map fun (digits, rest) => (some (negative, digits), rest)
    else some (none, b :: rest)
  | [] => some (none, [])

def unsigned? (negative : Bool) (bytes : Bytes) : Option (Value × Bytes) := do
  let (whole, rest) ← whole? bytes
  let (fraction, rest) ← fraction? rest
  let (exponent, rest) ← exponent? rest
  return (.number { negative, whole, fraction, exponent }, rest)

/-! ### Strings -/

/-- A piece of a string: a byte that stands for itself, or an escaped UTF-16 unit. -/
inductive Piece
  | raw (byte : UInt8)
  | unit (value : Nat)

def hexDigit? (b : UInt8) : Option Nat :=
  if 0x30 ≤ b && b ≤ 0x39 then some (b.toNat - 0x30)
  else if 0x41 ≤ b && b ≤ 0x46 then some (b.toNat - 0x41 + 10)
  else if 0x61 ≤ b && b ≤ 0x66 then some (b.toNat - 0x61 + 10)
  else none

def escaped? (letter : UInt8) : Option UInt8 :=
  if letter = byte '"' || letter = byte '\\' || letter = byte '/' then some letter
  else if letter = byte 'b' then some 0x08
  else if letter = byte 'f' then some 0x0c
  else if letter = byte 'n' then some 0x0a
  else if letter = byte 'r' then some 0x0d
  else if letter = byte 't' then some 0x09
  else none

def pieces? : Bytes → Option (List Piece × Bytes)
  | [] => none
  | b :: rest =>
    if b = byte '"' then some ([], rest)
    else if b = byte '\\' then
      match rest with
      | [] => none
      | letter :: rest =>
        if letter = byte 'u' then
          match rest with
          | p :: q :: r :: s :: rest => do
            let p ← hexDigit? p
            let q ← hexDigit? q
            let r ← hexDigit? r
            let s ← hexDigit? s
            let (pieces, rest) ← pieces? rest
            return (.unit (p * 4096 + q * 256 + r * 16 + s) :: pieces, rest)
          | _ => none
        else do
          let value ← escaped? letter
          let (pieces, rest) ← pieces? rest
          return (.raw value :: pieces, rest)
    else if b < 0x20 then none
    else do
      let (pieces, rest) ← pieces? rest
      return (.raw b :: pieces, rest)

def isHighSurrogate (unit : Nat) : Bool := 0xd800 ≤ unit && unit < 0xdc00

def isLowSurrogate (unit : Nat) : Bool := 0xdc00 ≤ unit && unit < 0xe000

/-- The bytes of pieces; `none` if a surrogate has no partner. -/
def Piece.bytes? : List Piece → Option Bytes
  | [] => some []
  | .raw b :: rest => (bytes? rest).map (b :: ·)
  | [.unit code] =>
    if isHighSurrogate code || isLowSurrogate code then none
    else some (String.utf8EncodeChar (Char.ofNat code))
  | .unit code :: .raw b :: rest =>
    if isHighSurrogate code || isLowSurrogate code then none
    else (bytes? rest).map (String.utf8EncodeChar (Char.ofNat code) ++ b :: ·)
  | .unit high :: .unit low :: rest =>
    if isHighSurrogate high then
      if isLowSurrogate low then
        let c := Char.ofNat (0x10000 + (high - 0xd800) * 0x400 + (low - 0xdc00))
        (bytes? rest).map (String.utf8EncodeChar c ++ ·)
      else none
    else if isLowSurrogate high then none
    else (bytes? (.unit low :: rest)).map (String.utf8EncodeChar (Char.ofNat high) ++ ·)

def Piece.string? (pieces : List Piece) : Option String :=
  (Piece.bytes? pieces).bind fun bytes => String.fromUTF8? bytes.toByteArray

def quoted? : Bytes → Option (Option String × Bytes)
  | b :: rest =>
    if b = byte '"' then (pieces? rest).map fun (pieces, rest) => (Piece.string? pieces, rest)
    else none
  | [] => none

/-! ### Values -/

def after? (word : List Char) (bytes : Bytes) : Option Bytes :=
  match word, bytes with
  | [], bytes => some bytes
  | c :: word, b :: bytes => if b = byte c then after? word bytes else none
  | _ :: _, [] => none

mutual

/-- A value, spaces before it included. The fuel bounds the number of tokens. -/
def value? : Nat → Bytes → Option (Value × Bytes)
  | 0, _ => none
  | fuel + 1, bytes =>
    match skipSpace bytes with
    | [] => none
    | b :: rest =>
      if b = byte '\x7b' then
        match skipSpace rest with
        | [] => none
        | c :: after =>
          if c = byte '\x7d' then some (.object [], after)
          else (fields? fuel (c :: after)).map fun (fields, rest) => (.object fields, rest)
      else if b = byte '[' then
        match skipSpace rest with
        | [] => none
        | c :: after =>
          if c = byte ']' then some (.array [], after)
          else (items? fuel (c :: after)).map fun (items, rest) => (.array items, rest)
      else if b = byte '"' then
        (quoted? (b :: rest)).map fun (content, rest) => (.text content, rest)
      else if b = byte '-' then unsigned? true rest
      else if (digit? b).isSome then unsigned? false (b :: rest)
      else if b = byte 't' then (after? ['r', 'u', 'e'] rest).map fun rest => (.bool true, rest)
      else if b = byte 'f' then
        (after? ['a', 'l', 's', 'e'] rest).map fun rest => (.bool false, rest)
      else if b = byte 'n' then (after? ['u', 'l', 'l'] rest).map fun rest => (.null, rest)
      else none

/-- The items of an array from the first one on, its closing bracket included. -/
def items? : Nat → Bytes → Option (List Value × Bytes)
  | 0, _ => none
  | fuel + 1, bytes =>
    match value? fuel bytes with
    | none => none
    | some (item, rest) =>
      match skipSpace rest with
      | [] => none
      | b :: rest =>
        if b = byte ']' then some ([item], rest)
        else if b = byte ',' then
          (items? fuel rest).map fun (items, rest) => (item :: items, rest)
        else none

def fields? : Nat → Bytes → Option (List (Option String × Value) × Bytes)
  | 0, _ => none
  | fuel + 1, bytes =>
    match quoted? (skipSpace bytes) with
    | none => none
    | some (key, rest) =>
      match skipSpace rest with
      | [] => none
      | b :: rest =>
        if b = byte ':' then
          match value? fuel rest with
          | none => none
          | some (value, rest) =>
            match skipSpace rest with
            | [] => none
            | b :: rest =>
              if b = byte '\x7d' then some ([(key, value)], rest)
              else if b = byte ',' then
                (fields? fuel rest).map fun (fields, rest) => ((key, value) :: fields, rest)
              else none
        else none

end

/-- The value of a text given as bytes; each token takes at least one of them. -/
def parseBytes? (bytes : Bytes) : Option Value :=
  match value? (bytes.length + 1) bytes with
  | some (value, rest) => if (skipSpace rest).isEmpty then some value else none
  | none => none

def parse? (text : String) : Option Value := parseBytes? text.toUTF8.data.toList

end Jukebox.Json
