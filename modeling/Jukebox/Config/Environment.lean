import Jukebox.Config.Basic
import Jukebox.Storage.Disk
import Jukebox.Text.Blank

/-!
The configuration as environment variables give it. The variables are read one after another and
the first that cannot be read is reported; the data directory is made before the whole is checked.
-/
namespace Jukebox

/-- Why there is no configuration. -/
inductive ConfigError
  | missingVariable
  | number (cause : NumeralError)
  | float
  | bool
  | directory
  | invalid (fault : ConfigFault)
deriving DecidableEq

/-- The text of an error; what a disk says is not part of it. -/
def ConfigError.message? : ConfigError → Option String
  | missingVariable => some "environment variable not found"
  | number cause => some cause.message
  | float => some "invalid float literal"
  | bool => some "provided string was not \x60true\x60 or \x60false\x60"
  | directory => none
  | invalid fault => some fault.message

/-- The value of each variable that is set. -/
abbrev Environment := String → Option String

namespace Environment

/-- The value of a variable without the blanks around it; a blank value counts as none. -/
def trimmed? (env : Environment) (name : String) : Option String :=
  (env name).bind fun value =>
    let value := trimBlanks value
    if value.isEmpty then none else some value

def optional {α : Type} (env : Environment) (name : String)
    (read : String → Except ConfigError α) : Except ConfigError (Option α) :=
  match env.trimmed? name with
  | none => .ok none
  | some value => (read value).map some

def withDefault {α : Type} (env : Environment) (name : String) (fallback : α)
    (read : String → Except ConfigError α) : Except ConfigError α :=
  (env.optional name read).map (·.getD fallback)

def readWord (text : String) : Except ConfigError UInt64 :=
  ((Numeral.read (UInt64.size - 1) text).map UInt64.ofNat).mapError .number

def readPort (text : String) : Except ConfigError UInt16 :=
  ((Numeral.read (UInt16.size - 1) text).map UInt16.ofNat).mapError .number

def readVolume (text : String) : Except ConfigError Single :=
  match Single.read? text with
  | some volume => .ok volume
  | none => .error .float

def readFlag (text : String) : Except ConfigError Bool :=
  if text = "true" then .ok true
  else if text = "false" then .ok false
  else .error .bool

end Environment

namespace Config

/-- The configuration that the variables describe, not yet checked. -/
def ofEnvironment (env : Environment) : Except ConfigError Config := do
  let discordToken ←
    match env "DISCORD_TOKEN" with
    | some token => .ok token
    | none => .error .missingVariable
  let nodeHost := (env "LAVALINK_HOST").getD "localhost"
  let nodePort ← env.withDefault "LAVALINK_PORT" 2333 Environment.readPort
  let nodePassword := (env "LAVALINK_PASSWORD").getD "youshallnotpass"
  let defaultVolume ← env.withDefault "DEFAULT_VOLUME" .one Environment.readVolume
  let volumeSupported ← env.withDefault "VOLUME_SUPPORTED" true Environment.readFlag
  let announceTracks ← env.withDefault "ANNOUNCE_TRACKS" true Environment.readFlag
  let maxQueueSize ← env.optional "MAX_QUEUE_SIZE" Environment.readWord
  let maxUserTracks ← env.optional "MAX_USER_TRACKS" Environment.readWord
  let maxSongDuration ← env.optional "MAX_SONG_DURATION" Environment.readWord
  let allowPlaylists ← env.withDefault "ALLOW_PLAYLISTS" true Environment.readFlag
  let dataDir := (env "DATA_DIR").getD "/app/data"
  let shutdownSaveTimeout ← env.withDefault "SHUTDOWN_SAVE_TIMEOUT" 120 Environment.readWord
  let statusPushInterval ← env.withDefault "STATUS_PUSH_INTERVAL" 5 Environment.readWord
  return { discordToken, nodeHost, nodePort, nodePassword, defaultVolume, volumeSupported,
           announceTracks, maxQueueSize, maxUserTracks, maxSongDuration, allowPlaylists, dataDir,
           shutdownSaveTimeout, statusPushInterval }

def load (env : Environment) (disk : Disk) : Except ConfigError Config × Disk :=
  match ofEnvironment env with
  | .error error => (.error error, disk)
  | .ok config =>
    match disk.makeDirectories (Path.ofText config.dataDir) with
    | (.error _, disk) => (.error .directory, disk)
    | (.ok (), disk) =>
      match config.fault? with
      | some fault => (.error (.invalid fault), disk)
      | none => (.ok config, disk)

def dataDirExists (env : Environment) (disk : Disk) : Bool :=
  match env "DATA_DIR" with
  | some dir => disk.isDirectory (Path.ofText dir)
  | none => false

end Config

end Jukebox
