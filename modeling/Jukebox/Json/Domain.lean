import Jukebox.Json.Value
import Jukebox.Snowflake
import Jukebox.Track.Basic
import Jukebox.Queue.RepeatMode
import Jukebox.Limits

/-!
Ids and named choices in JSON. Platform ids are written as strings, because not every reader keeps
64-bit numbers, and read from strings and numbers alike. A choice is written as its name.
-/
namespace Jukebox

namespace Snowflake

variable {entity : Entity}

def toJson (id : Snowflake entity) : Json.Value := .string (decimal id.word.toNat)

def ofJson? : Json.Value → Option (Snowflake entity)
  | .text content => (content.bind Numeral.readWord?).bind ofWord?
  | value => value.word?.bind ofWord?

end Snowflake

namespace TrackId

/-- Sixteen hexadecimal digits. -/
def text (id : TrackId) : String := String.ofList (Digits.hex 16 id.word.toNat)

def toJson (id : TrackId) : Json.Value := .ofWord id.word

def ofJson? (value : Json.Value) : Option TrackId := value.word?.map fun word => ⟨word⟩

end TrackId

def RepeatMode.toJson (mode : RepeatMode) : Json.Value := .string mode.name

def RepeatMode.ofJson? (value : Json.Value) : Option RepeatMode := value.choice?.bind ofName?

def PermissionLevel.ofJson? (value : Json.Value) : Option PermissionLevel :=
  value.choice?.bind ofName?

def LimitCode.ofJson? (value : Json.Value) : Option LimitCode := value.choice?.bind ofName?

end Jukebox
