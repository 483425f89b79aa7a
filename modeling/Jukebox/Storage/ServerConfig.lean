import Jukebox.Json.Value
import Jukebox.Limits

/-!
The stored configuration of one guild. Song lengths are kept in whole seconds.
-/
namespace Jukebox

structure ServerConfig where
  guildId : UInt64
  allowPlaylists : Bool
  maxQueueSize : Option UInt64
  maxUserTracks : Option UInt64
  /-- In seconds. -/
  maxSongDuration : Option UInt64
  announcementChannelId : Option UInt64
deriving DecidableEq

namespace ServerConfig

def ofDefaults (guild : UInt64) (defaults : GuildLimits) : ServerConfig where
  guildId := guild
  allowPlaylists := defaults.playlistAllowed
  maxQueueSize := defaults.maxTracks
  maxUserTracks := defaults.userMaxTracks
  maxSongDuration := defaults.maxTrackLengthMillis.map (· / 1000)
  announcementChannelId := none

def limits (config : ServerConfig) : Option GuildLimits :=
  GuildLimits.ofSeconds? config.allowPlaylists config.maxUserTracks config.maxQueueSize
    config.maxSongDuration

def toJson (config : ServerConfig) : Json.Value :=
  .record [("guild_id", .ofWord config.guildId), ("allow_playlists", .bool config.allowPlaylists),
    ("max_queue_size", .ofOption .ofWord config.maxQueueSize),
    ("max_user_tracks", .ofOption .ofWord config.maxUserTracks),
    ("max_song_duration", .ofOption .ofWord config.maxSongDuration),
    ("announcement_channel_id", .ofOption .ofWord config.announcementChannelId)]

def ofJson? (value : Json.Value) : Option ServerConfig :=
  match value.fields? ["guild_id", "allow_playlists", "max_queue_size", "max_user_tracks",
      "max_song_duration", "announcement_channel_id"] with
  | some [guildId, playlists, queueSize, userTracks, songDuration, channel] => do
    return {
      guildId := ← Json.required guildId Json.Value.word?
      allowPlaylists := ← Json.required playlists Json.Value.bool?
      maxQueueSize := ← Json.optional queueSize Json.Value.word?
      maxUserTracks := ← Json.optional userTracks Json.Value.word?
      maxSongDuration := ← Json.optional songDuration Json.Value.word?
      announcementChannelId := ← Json.optional channel Json.Value.word? }
  | _ => none

end ServerConfig

end Jukebox
