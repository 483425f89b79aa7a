import Jukebox.Storage.Disk
import Jukebox.Storage.ServerConfig
import Jukebox.Json.Reader
import Jukebox.Json.Printer
import Jukebox.Snapshot

/-!
Configurations and snapshots on disk, one JSON file for each guild. Configurations are read once
and then kept in memory under the id that was asked for; a guild without a readable file gets one
made from the defaults. A snapshot is written beside its file and then moved over it; a snapshot
without tracks is not kept.
-/
namespace Jukebox

/-- Why the storage failed; the two causes of a load name the file. -/
inductive StorageError
  | disk
  | unreadableSnapshot (file : String)
  | invalidSnapshot (file : String)
deriving DecidableEq

def StorageError.message? : StorageError → Option String
  | disk => none
  | unreadableSnapshot file => some ("Error leyendo " ++ file)
  | invalidSnapshot file => some ("Snapshot inválido en " ++ file)

structure StorageStats where
  serverConfigs : Nat
  playerSnapshots : Nat
  cachedConfigs : Nat
  dataDir : String

def StorageStats.text (stats : StorageStats) : String :=
  "📊 Storage Stats:\n📁 Data Directory: " ++ stats.dataDir ++
    "\n📝 Server Configs: " ++ decimal stats.serverConfigs ++
    " files\n🎶 Player Snapshots: " ++ decimal stats.playerSnapshots ++
    " files\n💾 Cached Configs: " ++ decimal stats.cachedConfigs ++ " in memory"

structure Storage where
  disk : Disk
  dataDir : Path
  defaults : GuildLimits
  /-- The configurations in memory, each under the id it was read or written for. -/
  cache : List (UInt64 × ServerConfig) := []

namespace Storage

def serversDir (dataDir : Path) : Path := dataDir.join "servers"

def playersDir (dataDir : Path) : Path := dataDir.join "players"

def fileName (guild : UInt64) : String := "guild_" ++ decimal guild.toNat ++ ".json"

def serverFile (storage : Storage) (guild : UInt64) : Path :=
  (serversDir storage.dataDir).join (fileName guild)

def playerFile (storage : Storage) (guild : GuildId) : Path :=
  (playersDir storage.dataDir).join (fileName guild.word)

/-- Where a snapshot is written before it is moved to its place. -/
def draftFile (storage : Storage) (guild : GuildId) : Path :=
  (playersDir storage.dataDir).join (fileName guild.word ++ ".tmp")

/-- The guild that a file is named for; the number may have a plus sign or leading zeros. -/
def guildOfName? (name : String) : Option UInt64 :=
  let chars := name.toList
  let opening := "guild_".toList
  let ending := ".json".toList
  if opening.isPrefixOf chars && ending.isSuffixOf chars then
    Numeral.readWord?
      (String.ofList ((chars.drop opening.length).take
        (chars.length - opening.length - ending.length)))
  else none

/-- The guilds that the files of a directory are named for. A missing directory has no files. -/
def guildFiles (disk : Disk) (directory : Path) : Except StorageError (List UInt64) :=
  match disk.find directory, disk.namesIn directory with
  | .error _, _ => .ok []
  | .ok _, .ok names => .ok (names.filterMap guildOfName?)
  | .ok _, .error _ => .error .disk

/-! ### Configurations -/

def remember (storage : Storage) (guild : UInt64) (config : ServerConfig) : Storage :=
  { storage with cache := (guild, config) :: storage.cache.filter (·.1 ≠ guild) }

def stored? (storage : Storage) (guild : UInt64) : Option ServerConfig :=
  match storage.disk.read (storage.serverFile guild) with
  | .error _ => none
  | .ok text => (Json.parse? text).bind ServerConfig.ofJson?

/-- Write a configuration to the file of the guild that it names. -/
def writeConfig (storage : Storage) (config : ServerConfig) : Except StorageError Storage :=
  match storage.disk.write (storage.serverFile config.guildId) config.toJson.pretty with
  | .error _ => .error .disk
  | .ok disk => .ok { storage with disk }

def rememberStored (storage : Storage) (guilds : List UInt64) : Storage :=
  guilds.foldl
    (fun storage guild =>
      match storage.stored? guild with
      | some config => storage.remember guild config
      | none => storage)
    storage

def open? (disk : Disk) (dataDir : Path) (defaults : GuildLimits) :
    Except StorageError Storage := do
  match disk.makeDirectories (serversDir dataDir) with
  | (.error _, _) => throw .disk
  | (.ok (), disk) =>
    match disk.makeDirectories (playersDir dataDir) with
    | (.error _, _) => throw .disk
    | (.ok (), disk) =>
      let guilds ← guildFiles disk (serversDir dataDir)
      let storage : Storage := { disk, dataDir, defaults }
      return storage.rememberStored guilds

/-- The configuration of a guild: from memory, else from its file, else from the defaults, which
are then written. -/
def getConfig (storage : Storage) (guild : UInt64) :
    Except StorageError ServerConfig × Storage :=
  match storage.cache.lookup guild with
  | some config => (.ok config, storage)
  | none =>
    match storage.stored? guild with
    | some config => (.ok config, storage.remember guild config)
    | none =>
      let config := ServerConfig.ofDefaults guild storage.defaults
      match storage.writeConfig config with
      | .error error => (.error error, storage)
      | .ok storage => (.ok config, storage.remember guild config)

def updateConfig (storage : Storage) (config : ServerConfig) :
    Except StorageError Unit × Storage :=
  match storage.writeConfig config with
  | .error error => (.error error, storage)
  | .ok storage => (.ok (), storage.remember config.guildId config)

def setAnnouncementChannel (storage : Storage) (guild : UInt64) (channel : Option UInt64) :
    Except StorageError Unit × Storage :=
  match storage.getConfig guild with
  | (.error error, storage) => (.error error, storage)
  | (.ok config, storage) =>
    storage.updateConfig { config with announcementChannelId := channel }

/-- The configuration of a guild is kept even if its limits cannot be computed and the request is
broken off. -/
def guildLimits (storage : Storage) (guild : UInt64) :
    Except StorageError (Option GuildLimits) × Storage :=
  let (config, storage) := storage.getConfig guild
  (config.map (·.limits), storage)

def servers (storage : Storage) : List UInt64 := storage.cache.map (·.1)

/-! ### Snapshots -/

def loadSnapshot (storage : Storage) (guild : GuildId) :
    Except StorageError (Option PlayerSnapshot) :=
  let file := storage.playerFile guild
  match storage.disk.read file with
  | .error .notFound => .ok none
  | .error _ => .error (.unreadableSnapshot (Path.text file))
  | .ok text =>
    match (Json.parse? text).bind PlayerSnapshot.ofJson? with
    | some snapshot => .ok (some snapshot)
    | none => .error (.invalidSnapshot (Path.text file))

def dropSnapshot (storage : Storage) (guild : GuildId) : Except StorageError Unit × Storage :=
  match storage.disk.removeFile (storage.playerFile guild) with
  | .ok disk => (.ok (), { storage with disk })
  | .error .notFound => (.ok (), storage)
  | .error _ => (.error .disk, storage)

def writeSnapshot (storage : Storage) (guild : GuildId) (snapshot : PlayerSnapshot) :
    Except StorageError Unit × Storage :=
  match storage.disk.write (storage.draftFile guild) snapshot.toJson.pretty with
  | .error _ => (.error .disk, storage)
  | .ok disk =>
    match disk.rename (storage.draftFile guild) (storage.playerFile guild) with
    | .error _ => (.error .disk, { storage with disk })
    | .ok disk => (.ok (), { storage with disk })

def saveSnapshot (storage : Storage) (guild : GuildId) (snapshot : PlayerSnapshot) :
    Except StorageError Unit × Storage :=
  if snapshot.tracks.isEmpty then storage.dropSnapshot guild
  else storage.writeSnapshot guild snapshot

def snapshotGuilds (storage : Storage) : Except StorageError (List GuildId) :=
  (guildFiles storage.disk (playersDir storage.dataDir)).map (·.filterMap Snowflake.ofWord?)

def stats (storage : Storage) : Except StorageError StorageStats := do
  let servers ← guildFiles storage.disk (serversDir storage.dataDir)
  let players ← guildFiles storage.disk (playersDir storage.dataDir)
  return {
    serverConfigs := servers.length
    playerSnapshots := players.length
    cachedConfigs := storage.cache.length
    dataDir := Path.text storage.dataDir }

end Storage

end Jukebox
