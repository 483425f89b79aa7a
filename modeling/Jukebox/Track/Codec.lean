import Jukebox.Json.Reader
import Jukebox.Json.Printer
import Jukebox.Json.Domain
import Jukebox.Text.Base64
import Jukebox.Text.Blank

/-!
Audio as a blob: its JSON text in base64. Blank characters around a blob do not matter.
-/
namespace Jukebox

/-- Why a blob gives no audio. -/
inductive DecodeError
  | base64
  | json
deriving DecidableEq

def DecodeError.message : DecodeError → String
  | base64 => "blob base64 inválido"
  | json => "blob JSON inválido"

namespace Audio

def toJson (audio : Audio) : Json.Value :=
  .record [("identifier", .string audio.identifier), ("title", .string audio.title),
    ("author", .ofOption .string audio.author), ("uri", .ofOption .string audio.uri),
    ("lengthMillis", .ofWord audio.lengthMillis), ("isStream", .bool audio.isStream),
    ("isSeekable", .bool audio.isSeekable)]

def ofJson? (value : Json.Value) : Option Audio :=
  match value.fields? ["identifier", "title", "author", "uri", "lengthMillis", "isStream",
      "isSeekable"] with
  | some [identifier, title, author, uri, lengthMillis, isStream, isSeekable] => do
    return {
      identifier := ← Json.required identifier Json.Value.text?
      title := ← Json.required title Json.Value.text?
      author := ← Json.optional author Json.Value.text?
      uri := ← Json.optional uri Json.Value.text?
      lengthMillis := ← Json.required lengthMillis Json.Value.word?
      isStream := ← Json.required isStream Json.Value.bool?
      isSeekable := ← Json.required isSeekable Json.Value.bool? }
  | _ => none

def encode (audio : Audio) : String :=
  String.ofList (Base64.encode audio.toJson.compact.toUTF8.data.toList)

def decode (blob : String) : Except DecodeError Audio :=
  match Base64.decode? (trimBlanks blob).toList with
  | none => .error .base64
  | some bytes =>
    match (Json.parseBytes? bytes).bind ofJson? with
    | none => .error .json
    | some audio => .ok audio

end Audio

end Jukebox
