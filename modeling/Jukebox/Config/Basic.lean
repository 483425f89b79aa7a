import Jukebox.Json.Number
import Jukebox.Json.Printer
import Jukebox.Player.State
import Jukebox.Node.NodeLink

/-!
The configuration of the engine: what it is made of, when it is valid, and what is said about it.
-/
namespace Jukebox

structure Config where
  discordToken : String := ""
  nodeHost : String := "localhost"
  nodePort : UInt16 := 2333
  nodePassword : String := "youshallnotpass"
  defaultVolume : Single := .one
  volumeSupported : Bool := true
  announceTracks : Bool := true
  maxQueueSize : Option UInt64 := none
  maxUserTracks : Option UInt64 := none
  /-- In seconds. -/
  maxSongDuration : Option UInt64 := none
  allowPlaylists : Bool := true
  dataDir : String := "/app/data"
  /-- In seconds. -/
  shutdownSaveTimeout : UInt64 := 120
  /-- In seconds. -/
  statusPushInterval : UInt64 := 5
deriving DecidableEq

/-- What makes a configuration invalid. -/
inductive ConfigFault
  | volume (given : Single)
  | queueSize
  | userTracks
  | songDuration
  | pushInterval
deriving DecidableEq

def ConfigFault.message : ConfigFault → String
  | volume given =>
    "Default volume must be between 0.0 and " ++ maxVolume.text ++ ", got: " ++ given.text
  | queueSize => "Max queue size must be greater than 0"
  | userTracks => "Max user tracks must be greater than 0"
  | songDuration => "Max song duration must be greater than 0"
  | pushInterval => "Status push interval must be greater than 0"

/-- What the registry of players needs to know. -/
structure RegistrySettings where
  defaultVolume : Single := .one
  volumeSupported : Bool := true
  shutdownTimeoutMillis : Nat := 120000

namespace Config

def fault? (config : Config) : Option ConfigFault :=
  if ! Player.validVolume config.defaultVolume then some (.volume config.defaultVolume)
  else if config.maxQueueSize = some 0 then some .queueSize
  else if config.maxUserTracks = some 0 then some .userTracks
  else if config.maxSongDuration = some 0 then some .songDuration
  else if config.statusPushInterval = 0 then some .pushInterval
  else none

/-- The limits of a guild that has no configuration of its own. -/
def defaultLimits (config : Config) : Option GuildLimits :=
  GuildLimits.ofSeconds? config.allowPlaylists config.maxUserTracks config.maxQueueSize
    config.maxSongDuration

def registrySettings (config : Config) : RegistrySettings where
  defaultVolume := config.defaultVolume
  volumeSupported := config.volumeSupported
  shutdownTimeoutMillis := config.shutdownSaveTimeout.toNat * 1000

def server (config : Config) : NodeServer where
  host := config.nodeHost
  port := config.nodePort
  password := config.nodePassword

def limitText : Option UInt64 → String
  | some limit => decimal limit.toNat
  | none => "∞"

def flagText (flag : Bool) : String := if flag then "true" else "false"

/-- The configuration in words, without the token and the password. -/
def summary (config : Config) : String :=
  "Config Summary:\n  Audio node: " ++ config.server.address ++
    "\n  Audio: " ++ decimal (config.defaultVolume.scale 100).toWord.toNat ++
    "% vol, volume restore=" ++ flagText config.volumeSupported ++
    ", announce=" ++ flagText config.announceTracks ++
    "\n  Limits: " ++ limitText config.maxQueueSize ++
    " queue, " ++ limitText config.maxUserTracks ++
    " per user, " ++ limitText config.maxSongDuration ++
    "s max duration, playlists=" ++ flagText config.allowPlaylists ++
    "\n  Data: " ++ config.dataDir ++
    "\n  Timers: " ++ decimal config.shutdownSaveTimeout.toNat ++
    "s shutdown save, " ++ decimal config.statusPushInterval.toNat ++ "s status push"

def toJson (config : Config) : Json.Value :=
  .record [("discord_token", .string config.discordToken),
    ("lavalink_host", .string config.nodeHost),
    ("lavalink_port", .number (.ofNat config.nodePort.toNat)),
    ("lavalink_password", .string config.nodePassword),
    ("default_volume", config.defaultVolume.toJson),
    ("volume_supported", .bool config.volumeSupported),
    ("announce_tracks", .bool config.announceTracks),
    ("max_queue_size", .ofOption .ofWord config.maxQueueSize),
    ("max_user_tracks", .ofOption .ofWord config.maxUserTracks),
    ("max_song_duration", .ofOption .ofWord config.maxSongDuration),
    ("allow_playlists", .bool config.allowPlaylists),
    ("data_dir", .string config.dataDir),
    ("shutdown_save_timeout", .ofWord config.shutdownSaveTimeout),
    ("status_push_interval", .ofWord config.statusPushInterval)]

def ofJson? (value : Json.Value) : Option Config :=
  match value.fields? ["discord_token", "lavalink_host", "lavalink_port", "lavalink_password",
      "default_volume", "volume_supported", "announce_tracks", "max_queue_size",
      "max_user_tracks", "max_song_duration", "allow_playlists", "data_dir",
      "shutdown_save_timeout", "status_push_interval"] with
  | some [token, host, port, password, volume, volumeSupported, announce, queueSize, userTracks,
      songDuration, playlists, dataDir, saveTimeout, pushInterval] => do
    return {
      discordToken := ← Json.required token Json.Value.text?
      nodeHost := ← Json.required host Json.Value.text?
      nodePort := ← Json.required port Json.Value.shortWord?
      nodePassword := ← Json.required password Json.Value.text?
      defaultVolume := ← Json.required volume Json.Value.single?
      volumeSupported := ← Json.required volumeSupported Json.Value.bool?
      announceTracks := ← Json.required announce Json.Value.bool?
      maxQueueSize := ← Json.optional queueSize Json.Value.word?
      maxUserTracks := ← Json.optional userTracks Json.Value.word?
      maxSongDuration := ← Json.optional songDuration Json.Value.word?
      allowPlaylists := ← Json.required playlists Json.Value.bool?
      dataDir := ← Json.required dataDir Json.Value.text?
      shutdownSaveTimeout := ← Json.required saveTimeout Json.Value.word?
      statusPushInterval := ← Json.required pushInterval Json.Value.word? }
  | _ => none

end Config

end Jukebox
