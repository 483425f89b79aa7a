import Jukebox.Json.Domain

/-!
The status of a player as observers see it: what plays and the first tracks that follow.
-/
namespace Jukebox

def statusPreview : Nat := 10

structure TrackInfo where
  id : String
  name : String
  duration : Option Millis
deriving DecidableEq

namespace TrackInfo

def ofTrack (track : Track) : TrackInfo where
  id := track.id.text
  name := track.title
  duration := track.duration?

def toJson (info : TrackInfo) : Json.Value :=
  .record [("id", .string info.id), ("name", .string info.name),
    ("duration", .ofOption .ofWord info.duration)]

def ofJson? (value : Json.Value) : Option TrackInfo :=
  match value.fields? ["id", "name", "duration"] with
  | some [id, name, duration] => do
    return {
      id := ← Json.required id Json.Value.text?
      name := ← Json.required name Json.Value.text?
      duration := ← Json.optional duration Json.Value.word? }
  | _ => none

end TrackInfo

structure PlayerInfo where
  playing : Bool
  paused : Bool
  shuffled : Bool
  repeatMode : RepeatMode
  positionMillis : Option Millis
  queue : List TrackInfo
deriving DecidableEq

namespace PlayerInfo

def empty : PlayerInfo where
  playing := false
  paused := false
  shuffled := false
  repeatMode := .off
  positionMillis := none
  queue := []

def toJson (info : PlayerInfo) : Json.Value :=
  .record [("playing", .bool info.playing), ("paused", .bool info.paused),
    ("shuffled", .bool info.shuffled), ("repeatMode", info.repeatMode.toJson),
    ("positionMillis", .ofOption .ofWord info.positionMillis),
    ("queue", .array (info.queue.map TrackInfo.toJson))]

def ofJson? (value : Json.Value) : Option PlayerInfo :=
  match value.fields? ["playing", "paused", "shuffled", "repeatMode", "positionMillis",
      "queue"] with
  | some [playing, paused, shuffled, repeatMode, positionMillis, queue] => do
    return {
      playing := ← Json.required playing Json.Value.bool?
      paused := ← Json.required paused Json.Value.bool?
      shuffled := ← Json.required shuffled Json.Value.bool?
      repeatMode := ← Json.required repeatMode RepeatMode.ofJson?
      positionMillis := ← Json.optional positionMillis Json.Value.word?
      queue := ← Json.required queue (Json.Value.list? TrackInfo.ofJson?) }
  | _ => none

end PlayerInfo

end Jukebox
