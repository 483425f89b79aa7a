import Jukebox.Track.Codec
import Jukebox.Json.Number

/-!
What is kept of a player while it is away: its settings and its tracks, each with the blob of its
audio, its requester and the bounds and title of its chapter. Ids, keys and priorities are not
kept; a restored track is a new request.
-/
namespace Jukebox

structure SavedTrack where
  serializedPayload : String
  requesterId : UserId
  startTime : Option Millis
  endTime : Option Millis
  title : String
deriving DecidableEq

namespace SavedTrack

def ofTrack (track : Track) : SavedTrack where
  serializedPayload := track.audio.encode
  requesterId := track.requester
  startTime := track.chapter.map (·.startMillis)
  endTime := track.chapter.map (·.endMillis)
  title := track.title

/-- The chapter, which is there only if both of its bounds are. -/
def chapter? (saved : SavedTrack) : Option Chapter :=
  match saved.startTime, saved.endTime with
  | some startMillis, some endMillis => some { startMillis, endMillis, title := saved.title }
  | _, _ => none

/-- A new track; an id is used up only if the blob can be read. -/
def restore (saved : SavedTrack) (mint : Mint) : Except DecodeError Track × Mint :=
  match Audio.decode saved.serializedPayload with
  | .error cause => (.error cause, mint)
  | .ok audio =>
    let (track, mint) := mint.request audio saved.requesterId
    (.ok { track with chapter := saved.chapter? }, mint)

def toJson (saved : SavedTrack) : Json.Value :=
  .record [("serializedPayload", .string saved.serializedPayload),
    ("requesterId", saved.requesterId.toJson), ("startTime", .ofOption .ofWord saved.startTime),
    ("endTime", .ofOption .ofWord saved.endTime), ("title", .string saved.title)]

def ofJson? (value : Json.Value) : Option SavedTrack :=
  match value.fields? ["serializedPayload", "requesterId", "startTime", "endTime", "title"] with
  | some [payload, requester, startTime, endTime, title] => do
    return {
      serializedPayload := ← Json.required payload Json.Value.text?
      requesterId := ← Json.required requester Snowflake.ofJson?
      startTime := ← Json.optional startTime Json.Value.word?
      endTime := ← Json.optional endTime Json.Value.word?
      title := ← Json.required title Json.Value.text? }
  | _ => none

end SavedTrack

structure PlayerSnapshot where
  paused : Bool
  shuffled : Bool
  repeatMode : RepeatMode
  volume : Single
  positionMillis : Option Millis
  channelRef : Option ChannelId
  tracks : List SavedTrack
deriving DecidableEq

namespace PlayerSnapshot

def toJson (snapshot : PlayerSnapshot) : Json.Value :=
  .record [("paused", .bool snapshot.paused), ("shuffled", .bool snapshot.shuffled),
    ("repeatMode", snapshot.repeatMode.toJson), ("volume", snapshot.volume.toJson),
    ("positionMillis", .ofOption .ofWord snapshot.positionMillis),
    ("channelRef", .ofOption Snowflake.toJson snapshot.channelRef),
    ("tracks", .array (snapshot.tracks.map SavedTrack.toJson))]

def ofJson? (value : Json.Value) : Option PlayerSnapshot :=
  match value.fields? ["paused", "shuffled", "repeatMode", "volume", "positionMillis",
      "channelRef", "tracks"] with
  | some [paused, shuffled, repeatMode, volume, positionMillis, channelRef, tracks] => do
    return {
      paused := ← Json.required paused Json.Value.bool?
      shuffled := ← Json.required shuffled Json.Value.bool?
      repeatMode := ← Json.required repeatMode RepeatMode.ofJson?
      volume := ← Json.required volume Json.Value.single?
      positionMillis := ← Json.optional positionMillis Json.Value.word?
      channelRef := ← Json.optional channelRef Snowflake.ofJson?
      tracks := ← Json.required tracks (Json.Value.list? SavedTrack.ofJson?) }
  | _ => none

end PlayerSnapshot

end Jukebox
