import Jukebox.Text.Digits

/-!
Spans of time in words, such as "1h 2m 3s". A year has 365.25 days and a month a twelfth of that;
parts that are zero are left out, and nothing at all is "0s".
-/
namespace Jukebox.Span

def secondsPerYear : Nat := 31557600

def secondsPerMonth : Nat := 2630016

def longPart (count : Nat) (unit : String) : List String :=
  if count = 0 then []
  else if count = 1 then [decimal count ++ unit]
  else [decimal count ++ unit ++ "s"]

def shortPart (count : Nat) (unit : String) : List String :=
  if count = 0 then [] else [decimal count ++ unit]

/-- The parts of a span that are not zero, largest unit first. -/
def parts (seconds : Nat) : List String :=
  let inYear := seconds % secondsPerYear
  let inMonth := inYear % secondsPerMonth
  let inDay := inMonth % 86400
  longPart (seconds / secondsPerYear) "year" ++ longPart (inYear / secondsPerMonth) "month" ++
    longPart (inMonth / 86400) "day" ++ shortPart (inDay / 3600) "h" ++
    shortPart (inDay % 3600 / 60) "m" ++ shortPart (inDay % 60) "s"

def ofSeconds (seconds : Nat) : String :=
  if seconds = 0 then "0s" else " ".intercalate (parts seconds)

/-- A span given in milliseconds, cut to whole seconds. -/
def ofMillis (millis : Nat) : String := ofSeconds (millis / 1000)

end Jukebox.Span
