import Jukebox.Proofs.Storage.Configurations
import Jukebox.Proofs.Storage.Files

/-!
What it does to the files to ask for the configuration of a guild, and to set its channel. Two
things decide it. A file that cannot be read counts as no file, so the defaults are written over it.
And a configuration is written to the file of the guild that it names, and kept in memory for that
guild, whatever guild it was read for. So nobody else's file is touched, and nothing is lost, just
if each file is readable and names the guild that it is for.
-/
namespace Jukebox.Storage

/-- The configuration at hand for a guild, in memory or in its file. -/
def known? (storage : Storage) (guild : UInt64) : Option ServerConfig :=
  (storage.cache.lookup guild).or (storage.stored? guild)

/-- The calls about a guild stay with the file of the guild, which is at a place. -/
structure KeepsToOwnFile (storage : Storage) (own : Place) (guild : UInt64)
    (channel : Option UInt64) : Prop where
  /-- Who asks for the configuration, or for the limits in it, changes no file that is there. -/
  get : storage.disk.Spares (storage.getConfig guild).2.disk
  getElsewhere : Disk.SameBut own storage.disk (storage.getConfig guild).2.disk
  limits : storage.disk.Spares (storage.guildLimits guild).2.disk
  limitsElsewhere : Disk.SameBut own storage.disk (storage.guildLimits guild).2.disk
  /-- The channel is set, in no other file, and is part of the configuration from then on. -/
  set : (storage.setAnnouncementChannel guild channel).1 = .ok ()
  setElsewhere :
    Disk.SameBut own storage.disk (storage.setAnnouncementChannel guild channel).2.disk
  reported : ∃ config,
    ((storage.setAnnouncementChannel guild channel).2.getConfig guild).1 = .ok config ∧
      config.announcementChannelId = channel

/-- Where nothing is known about a guild there is nothing under the name of its file. A
configuration at hand is for the guild itself and can be written, or it has the channel already and
is, letter by letter, the file of the guild that it names. -/
def InOrder (storage : Storage) (entries : List (String × DiskEntry)) (guild : UInt64)
    (channel : Option UInt64) : Prop :=
  match storage.known? guild with
  | none => entries.lookup (fileName guild) = none
  | some config =>
    (config.guildId = guild ∧ ∀ inner, entries.lookup (fileName guild) ≠ some (.directory inner)) ∨
      (config.announcementChannelId = channel ∧
        entries.lookup (fileName config.guildId) = some (.file config.toJson.pretty))

def afterWriting (storage : Storage) (directory : Spot) (config : ServerConfig) : Storage :=
  remember { storage with
    disk := storage.disk.put directory (fileName config.guildId) (.file config.toJson.pretty) }
    config.guildId config

section Known

variable {storage : Storage} {guild : UInt64} {config : ServerConfig}

theorem getConfig_cached (h : storage.cache.lookup guild = some config) :
    storage.getConfig guild = (.ok config, storage) := by
  simp only [getConfig, h]

/-- A configuration at hand is what is answered, and it stays in memory. -/
theorem getConfig_known (h : storage.known? guild = some config) :
    ∃ cache, storage.getConfig guild = (.ok config, { storage with cache }) ∧
      cache.lookup guild = some config := by
  cases hcached : storage.cache.lookup guild with
  | some found =>
    rw [known?, hcached, Option.some_or] at h
    obtain rfl : found = config := Option.some.inj h
    exact ⟨storage.cache, getConfig_cached hcached, hcached⟩
  | none =>
    rw [known?, hcached, Option.none_or] at h
    have hkept := lookup_remember storage guild config guild
    rw [if_pos rfl] at hkept
    exact ⟨_, by simp only [getConfig, hcached, h]; rfl, hkept⟩

/-- What is to be shown of the disk after asking and after setting a channel. -/
theorem keepsToOwnFile_of_outcomes {own : Place} {channel : Option UInt64}
    {answer : Except StorageError ServerConfig} {next last : Storage}
    (hget : storage.getConfig guild = (answer, next)) (hspares : storage.disk.Spares next.disk)
    (hsame : Disk.SameBut own storage.disk next.disk)
    (hset : storage.setAnnouncementChannel guild channel = (.ok (), last))
    (helsewhere : Disk.SameBut own storage.disk last.disk)
    (hreported : ∃ config, (last.getConfig guild).1 = .ok config ∧
      config.announcementChannelId = channel) :
    storage.KeepsToOwnFile own guild channel := by
  have hasked : (storage.getConfig guild).2.disk = next.disk := by rw [hget]
  have hlimits : (storage.guildLimits guild).2.disk = next.disk := hasked
  refine ⟨hasked ▸ hspares, hasked ▸ hsame, hlimits ▸ hspares, hlimits ▸ hsame, ?_, ?_, ?_⟩
  · rw [hset]
  · rw [hset]
    exact helsewhere
  · rw [hset]
    exact hreported

/-- To ask for a configuration at hand changes no file. -/
theorem keepsToOwnFile_of_known (hknown : storage.known? guild = some config) {own : Place}
    {channel : Option UInt64} {last : Storage}
    (hset : storage.setAnnouncementChannel guild channel = (.ok (), last))
    (helsewhere : Disk.SameBut own storage.disk last.disk)
    (hreported : ∃ config, (last.getConfig guild).1 = .ok config ∧
      config.announcementChannelId = channel) :
    storage.KeepsToOwnFile own guild channel := by
  obtain ⟨cache, hget, -⟩ := getConfig_known hknown
  exact keepsToOwnFile_of_outcomes hget Disk.Spares.rfl Disk.SameBut.rfl hset helsewhere hreported

theorem lookup_afterWriting (directory : Spot) (other : UInt64) :
    (storage.afterWriting directory config).cache.lookup other =
      if other = config.guildId then some config else storage.cache.lookup other :=
  lookup_remember _ config.guildId config other

/-- What a storage knows when it is opened is what it finds in the files. -/
theorem known?_opened {disk between made : Disk} {dataDir : Path} {guilds : List UInt64}
    (hservers : disk.makeDirectories (serversDir dataDir) = (.ok (), between))
    (hplayers : between.makeDirectories (playersDir dataDir) = (.ok (), made))
    (hguilds : guildFiles made (serversDir dataDir) = .ok guilds) (defaults : GuildLimits) :
    ∃ cache, open? disk dataDir defaults = .ok { disk := made, dataDir, defaults, cache } ∧
      ∀ guild, known? { disk := made, dataDir, defaults, cache } guild =
        stored? { disk := made, dataDir, defaults } guild := by
  obtain ⟨cache, hopen, -, hlookup⟩ := open?_made hservers hplayers hguilds defaults
  refine ⟨cache, hopen, fun guild => ?_⟩
  have hsame : stored? { disk := made, dataDir, defaults, cache } guild =
      stored? { disk := made, dataDir, defaults } guild := rfl
  rw [known?, hlookup, hsame]
  split
  · exact Option.or_self
  · exact Option.none_or

end Known

section Files

variable {storage : Storage} {guild : UInt64} {config : ServerConfig}
  {upward : List String} {entries : List (String × DiskEntry)}
  (hroomy : Roomy storage.dataDir)
  (hwalk : storage.disk.walk (serversDir storage.dataDir) =
    .ok { upward, entry := .directory entries })

include hroomy hwalk

theorem writeConfig_free
    (hfree : ∀ inner, entries.lookup (fileName config.guildId) ≠ some (.directory inner)) :
    storage.writeConfig config = .ok { storage with
      disk := storage.disk.put { upward, entry := .directory entries } (fileName config.guildId)
        (.file config.toJson.pretty) } := by
  have hwrite := Disk.write_file hwalk (hroomy.sound_serverFile config.guildId)
    (isName_fileName config.guildId) hfree config.toJson.pretty
  rw [writeConfig, serverFile, join_fileName, hwrite]

theorem writeConfig_blocked {inner : List (String × DiskEntry)}
    (h : entries.lookup (fileName config.guildId) = some (.directory inner)) :
    storage.writeConfig config = .error .disk := by
  rw [writeConfig, serverFile, join_fileName, Disk.write_directory hwalk
    (hroomy.sound_serverFile config.guildId) (isName_fileName config.guildId) h]

/-- A file that is there is read, and may make no sense. -/
theorem stored?_file {text : String} (h : entries.lookup (fileName guild) = some (.file text)) :
    storage.stored? guild = (Json.parse? text).bind ServerConfig.ofJson? := by
  rw [stored?, serverFile, join_fileName,
    Disk.read_file hwalk (hroomy.sound_serverFile guild) (isName_fileName guild) h]

/-- If nothing is known the defaults are written, over whatever file there is. -/
theorem getConfig_unknown (hknown : storage.known? guild = none)
    (hfree : ∀ inner, entries.lookup (fileName guild) ≠ some (.directory inner)) :
    storage.getConfig guild = (.ok (.ofDefaults guild storage.defaults),
      storage.afterWriting { upward, entry := .directory entries }
        (.ofDefaults guild storage.defaults)) := by
  obtain ⟨hcached, hstored⟩ := Option.or_eq_none_iff.mp hknown
  have hwrite := @writeConfig_free storage (.ofDefaults guild storage.defaults) upward entries
    hroomy hwalk hfree
  simp only [getConfig, hcached, hstored, hwrite]
  rfl

theorem getConfig_blocked (hknown : storage.known? guild = none)
    {inner : List (String × DiskEntry)}
    (h : entries.lookup (fileName guild) = some (.directory inner)) :
    storage.getConfig guild = (.error .disk, storage) := by
  obtain ⟨hcached, hstored⟩ := Option.or_eq_none_iff.mp hknown
  have hwrite := @writeConfig_blocked storage (.ofDefaults guild storage.defaults) upward entries
    hroomy hwalk inner h
  simp only [getConfig, hcached, hstored, hwrite]

/-- A channel is written to the file of the guild that the configuration names, and memory changes
for that guild. -/
theorem setAnnouncementChannel_known (hknown : storage.known? guild = some config)
    (hfree : ∀ inner, entries.lookup (fileName config.guildId) ≠ some (.directory inner))
    (channel : Option UInt64) :
    ∃ last, storage.setAnnouncementChannel guild channel = (.ok (), last) ∧
      last.disk = storage.disk.put { upward, entry := .directory entries }
        (fileName config.guildId)
        (.file { config with announcementChannelId := channel }.toJson.pretty) ∧
      (last.getConfig guild).1 = .ok
        (if config.guildId = guild then { config with announcementChannelId := channel }
        else config) := by
  let changed : ServerConfig := { config with announcementChannelId := channel }
  obtain ⟨cache, hget, hcached⟩ := getConfig_known hknown
  have hwrite := @writeConfig_free { storage with cache } changed upward entries hroomy hwalk hfree
  let last := afterWriting { storage with cache } { upward, entry := .directory entries } changed
  refine ⟨last, ?_, rfl, ?_⟩
  · rw [setAnnouncementChannel, hget]
    change updateConfig _ changed = _
    rw [updateConfig, hwrite]
    rfl
  · have hlookup : last.cache.lookup guild =
        if guild = config.guildId then some changed else cache.lookup guild :=
      lookup_afterWriting _ guild
    by_cases hguild : config.guildId = guild
    · rw [if_pos hguild.symm] at hlookup
      rw [getConfig_cached hlookup, if_pos hguild]
    · rw [if_neg fun heq => hguild heq.symm, hcached] at hlookup
      rw [getConfig_cached hlookup, if_neg hguild]

theorem setAnnouncementChannel_blocked (hknown : storage.known? guild = some config)
    {inner : List (String × DiskEntry)}
    (h : entries.lookup (fileName config.guildId) = some (.directory inner))
    (channel : Option UInt64) :
    (storage.setAnnouncementChannel guild channel).1 = .error .disk := by
  let changed : ServerConfig := { config with announcementChannelId := channel }
  obtain ⟨cache, hget, -⟩ := getConfig_known hknown
  have hwrite :=
    @writeConfig_blocked { storage with cache } changed upward entries hroomy hwalk inner h
  rw [setAnnouncementChannel, hget]
  change (updateConfig _ changed).1 = _
  rw [updateConfig, hwrite]

/-! ### When the calls stay with the guild's own file -/

theorem keepsToOwnFile_of_own (hknown : storage.known? guild = some config)
    (hown : config.guildId = guild)
    (hfree : ∀ inner, entries.lookup (fileName guild) ≠ some (.directory inner))
    (channel : Option UInt64) :
    storage.KeepsToOwnFile (fileName guild :: upward).reverse guild channel := by
  subst hown
  obtain ⟨last, hset, hdisk, hreported⟩ :=
    setAnnouncementChannel_known hroomy hwalk hknown hfree channel
  rw [if_pos rfl] at hreported
  refine keepsToOwnFile_of_known hknown hset ?_ ⟨_, hreported, rfl⟩
  rw [hdisk]
  exact Disk.sameBut_put hwalk hfree _

theorem keepsToOwnFile_of_copy (hknown : storage.known? guild = some config)
    (hcopy : entries.lookup (fileName config.guildId) = some (.file config.toJson.pretty))
    (own : Place) : storage.KeepsToOwnFile own guild config.announcementChannelId := by
  have hfree := DiskEntry.free_of_file hcopy
  obtain ⟨last, hset, hdisk, hreported⟩ :=
    setAnnouncementChannel_known hroomy hwalk hknown hfree config.announcementChannelId
  rw [ite_self] at hreported
  refine keepsToOwnFile_of_known hknown hset ?_ ⟨config, hreported, rfl⟩
  rw [hdisk]
  exact Disk.sameBut_put_again hwalk hfree _ hcopy own

/-- A file that is new takes the place of none, and from then on a configuration is at hand. -/
theorem keepsToOwnFile_of_new (hknown : storage.known? guild = none)
    (hnew : entries.lookup (fileName guild) = none) (channel : Option UInt64) :
    storage.KeepsToOwnFile (fileName guild :: upward).reverse guild channel := by
  have hfree := DiskEntry.free_of_missing hnew
  let config : ServerConfig := .ofDefaults guild storage.defaults
  let spot : Spot := { upward, entry := .directory entries }
  let first := storage.afterWriting spot config
  have hget : storage.getConfig guild = (.ok config, first) :=
    getConfig_unknown hroomy hwalk hknown hfree
  have hspares : storage.disk.Spares first.disk :=
    Disk.spares_put hwalk hfree config.toJson.pretty hnew
  have hsame : Disk.SameBut (fileName guild :: upward).reverse storage.disk first.disk :=
    Disk.sameBut_put hwalk hfree config.toJson.pretty
  have hcached : first.cache.lookup guild = some config :=
    (lookup_afterWriting spot guild).trans (if_pos rfl)
  have hfirst : first.known? guild = some config := by rw [known?, hcached, Option.some_or]
  -- The channel is written over the defaults.
  have hthere := DiskEntry.free_of_file ((DiskEntry.lookup_withEntry entries (fileName guild)
    (.file config.toJson.pretty) (fileName guild)).trans (if_pos rfl))
  have hlater := Disk.walk_put hwalk hfree (.file config.toJson.pretty)
  obtain ⟨last, hlast, hdisk, hreported⟩ := @setAnnouncementChannel_known first guild config upward
    _ hroomy hlater hfirst hthere channel
  have hset : storage.setAnnouncementChannel guild channel = (.ok (), last) := by
    rw [← hlast, setAnnouncementChannel, setAnnouncementChannel, hget, getConfig_cached hcached]
  have helsewhere : Disk.SameBut (fileName guild :: upward).reverse first.disk last.disk := by
    rw [hdisk]
    exact Disk.sameBut_put hlater hthere _
  have hown : config.guildId = guild := rfl
  rw [if_pos hown] at hreported
  exact keepsToOwnFile_of_outcomes hget hspares hsame hset (hsame.trans helsewhere)
    ⟨_, hreported, rfl⟩

/-- A file that is there and cannot be read is lost as soon as somebody asks: the defaults are
written over it, and those could have been read. -/
theorem not_spares_of_unreadable (hknown : storage.known? guild = none) {text : String}
    (hfile : entries.lookup (fileName guild) = some (.file text)) :
    ¬ storage.disk.Spares (storage.getConfig guild).2.disk := by
  intro hspares
  have hfree := DiskEntry.free_of_file hfile
  have hkept := hspares _ text ((Disk.fileAt?_child hwalk).mpr hfile)
  rw [getConfig_unknown hroomy hwalk hknown hfree] at hkept
  have hput := Disk.fileAt?_put hwalk hfree
    (ServerConfig.ofDefaults guild storage.defaults).toJson.pretty
  obtain rfl := Option.some.inj (hput.symm.trans hkept)
  have hstored := stored?_file hroomy hwalk hfile
  rw [ServerConfig.ofJson?_parse?_pretty, (Option.or_eq_none_iff.mp hknown).2] at hstored
  cases hstored

/-- If the configuration at hand names another guild and still the file of that guild stays as it
is, it holds what was to be written. -/
theorem copy_of_sameBut {channel : Option UInt64} (hknown : storage.known? guild = some config)
    (hfree : ∀ inner, entries.lookup (fileName config.guildId) ≠ some (.directory inner))
    (hother : config.guildId ≠ guild)
    (hsame : Disk.SameBut (fileName guild :: upward).reverse storage.disk
      (storage.setAnnouncementChannel guild channel).2.disk) :
    entries.lookup (fileName config.guildId) =
      some (.file { config with announcementChannelId := channel }.toJson.pretty) := by
  obtain ⟨last, hset, hdisk, -⟩ :=
    setAnnouncementChannel_known hroomy hwalk hknown hfree channel
  have hplace : (fileName config.guildId :: upward).reverse ≠ (fileName guild :: upward).reverse :=
    fun heq => hother (fileName_injective (List.cons.inj (List.reverse_injective heq)).1)
  have hwritten := hsame _ hplace
  rw [hset, hdisk, Disk.fileAt?_put hwalk hfree] at hwritten
  exact (Disk.fileAt?_child hwalk).mp hwritten.symm

/-- So a guild of which nothing is known has no file, if no file is to be lost and the channel is to
be set. -/
theorem missing_of_keepsToOwnFile {own : Place} {channel : Option UInt64}
    (h : storage.KeepsToOwnFile own guild channel) (hknown : storage.known? guild = none) :
    entries.lookup (fileName guild) = none := by
  cases hentry : entries.lookup (fileName guild) with
  | none => rfl
  | some entry =>
    cases entry with
    | file text => exact absurd h.get (not_spares_of_unreadable hroomy hwalk hknown hentry)
    | directory inner =>
      have hset := h.set
      rw [setAnnouncementChannel, getConfig_blocked hroomy hwalk hknown hentry] at hset
      cases hset

/-- And a configuration at hand is the guild's own, or a copy of what it would be written over. -/
theorem own_or_copy_of_keepsToOwnFile {channel : Option UInt64}
    (h : storage.KeepsToOwnFile (fileName guild :: upward).reverse guild channel)
    (hknown : storage.known? guild = some config) :
    (config.guildId = guild ∧
        ∀ inner, entries.lookup (fileName guild) ≠ some (.directory inner)) ∨
      (config.announcementChannelId = channel ∧
        entries.lookup (fileName config.guildId) = some (.file config.toJson.pretty)) := by
  have hfree : ∀ inner, entries.lookup (fileName config.guildId) ≠ some (.directory inner) := by
    intro inner hthere
    have hset := h.set
    rw [setAnnouncementChannel_blocked hroomy hwalk hknown hthere] at hset
    cases hset
  by_cases hown : config.guildId = guild
  · exact .inl ⟨hown, hown ▸ hfree⟩
  · have hcopy := copy_of_sameBut hroomy hwalk hknown hfree hown h.setElsewhere
    obtain ⟨last, hset, -, hget⟩ :=
      setAnnouncementChannel_known hroomy hwalk hknown hfree channel
    obtain ⟨found, hfound, hchannel⟩ := h.reported
    rw [hset, hget, if_neg hown] at hfound
    obtain rfl : config = found := Except.ok.inj hfound
    subst hchannel
    exact .inr ⟨rfl, hcopy⟩

end Files

/-! ### A storage on a directory with some files -/

def stockedDisk (files : List (String × DiskEntry)) : Disk where
  root := .directory [("data",
    .directory [("servers", .directory files), ("players", .directory [])])]

theorem walk_stockedDisk (files : List (String × DiskEntry)) :
    (stockedDisk files).walk (serversDir ["", "data"]) =
      .ok { upward := ["servers", "data"], entry := .directory files } := rfl

/-- A storage opens there, and knows of a file what it can read in it. -/
theorem open?_stockedDisk (files : List (String × DiskEntry)) (defaults : GuildLimits) :
    ∃ cache, open? (stockedDisk files) ["", "data"] defaults =
        .ok { disk := stockedDisk files, dataDir := ["", "data"], defaults, cache } ∧
      ∀ guild text, files.lookup (fileName guild) = some (.file text) →
        known? { disk := stockedDisk files, dataDir := ["", "data"], defaults, cache } guild =
          (Json.parse? text).bind ServerConfig.ofJson? := by
  have hwalk := walk_stockedDisk files
  have hplayers : (stockedDisk files).walk (playersDir ["", "data"]) =
      .ok { upward := ["players", "data"], entry := .directory [] } := rfl
  obtain ⟨hmakeServers, hmakePlayers⟩ :=
    makeDirectories_both roomy_data hwalk rfl hplayers rfl
  obtain ⟨cache, hopen, hknown⟩ := known?_opened hmakeServers hmakePlayers
    (@guildFiles_eq _ (stockedDisk files) ["", "data"] "servers" _ hwalk
      roomy_data.sound_serversDir isName_servers) defaults
  refine ⟨cache, hopen, fun guild text hfile => ?_⟩
  rw [hknown]
  exact @stored?_file { disk := stockedDisk files, dataDir := ["", "data"], defaults } guild _ _
    roomy_data hwalk text hfile

/-! ### Which files stay as they are -/

/-- The calls about a guild stay with the file of the guild just if things are in order for it. -/
theorem keepsToOwnFile_iff_inOrder {storage : Storage} {upward : List String}
    {entries : List (String × DiskEntry)}
    (hservers : storage.disk.find (serversDir storage.dataDir) =
      .ok { upward, entry := .directory entries })
    (hshort : ∀ guild, ((serversDir storage.dataDir).join (fileName guild)).tooLong = false)
    (guild : UInt64) (channel : Option UInt64) :
    storage.KeepsToOwnFile (fileName guild :: upward).reverse guild channel ↔
      storage.InOrder entries guild channel := by
  have hsound := Disk.sound_of_find hservers
  rw [serversDir_eq] at hsound
  have hbroken := hsound.unbroken
  rw [Path.isBroken_append, Bool.or_eq_false_iff] at hbroken
  have hroomy : Roomy storage.dataDir := ⟨hbroken.1, hshort⟩
  have hwalk : storage.disk.walk (serversDir storage.dataDir) =
      .ok { upward, entry := .directory entries } := by
    rw [serversDir_eq] at hservers ⊢
    rwa [Disk.find_append hsound isName_servers.ne_empty] at hservers
  unfold InOrder
  cases hknown : storage.known? guild with
  | none =>
    exact ⟨fun h => missing_of_keepsToOwnFile hroomy hwalk h hknown,
      fun hnew => keepsToOwnFile_of_new hroomy hwalk hknown hnew channel⟩
  | some config =>
    refine ⟨fun h => own_or_copy_of_keepsToOwnFile hroomy hwalk h hknown, ?_⟩
    rintro (⟨hown, hfree⟩ | ⟨rfl, hcopy⟩)
    · exact keepsToOwnFile_of_own hroomy hwalk hknown hown hfree channel
    · exact keepsToOwnFile_of_copy hroomy hwalk hknown hcopy _

def mixedFiles : List (String × DiskEntry) :=
  [(fileName 5, .file (ServerConfig.ofDefaults 5 {}).toJson.pretty),
    (fileName 6, .file "\x7b no es json")]

theorem keepsToOwnFile_iff_inOrder_mixed :
    ∃ storage, open? (stockedDisk mixedFiles) ["", "data"] {} = .ok storage ∧
      storage.disk.find (serversDir storage.dataDir) =
        .ok { upward := ["servers", "data"], entry := .directory mixedFiles } ∧
      (∀ guild, ((serversDir storage.dataDir).join (fileName guild)).tooLong = false) ∧
      storage.KeepsToOwnFile ["data", "servers", fileName 5] 5 (some 77) ∧
      ¬ storage.KeepsToOwnFile ["data", "servers", fileName 6] 6 (some 77) := by
  obtain ⟨cache, hopen, hknown⟩ := open?_stockedDisk mixedFiles {}
  have hname : fileName 6 ≠ fileName 5 := fun heq => absurd (fileName_injective heq) (by decide)
  have hfirst : mixedFiles.lookup (fileName 5) =
      some (.file (ServerConfig.ofDefaults 5 {}).toJson.pretty) := List.lookup_cons_self
  have hsecond : mixedFiles.lookup (fileName 6) = some (.file "\x7b no es json") := by
    rw [mixedFiles, List.lookup_cons, beq_eq_false_iff_ne.mpr hname]
    exact List.lookup_cons_self
  have hservers : (stockedDisk mixedFiles).find (serversDir ["", "data"]) =
      .ok { upward := ["servers", "data"], entry := .directory mixedFiles } :=
    (Disk.find_append roomy_data.sound_serversDir isName_servers.ne_empty).trans
      (walk_stockedDisk mixedFiles)
  have hready := hknown 5 _ hfirst
  rw [ServerConfig.ofJson?_parse?_pretty] at hready
  have hcut := hknown 6 _ hsecond
  have hunreadable : Json.parse? "\x7b no es json" = none := rfl
  rw [hunreadable, Option.bind_none] at hcut
  let storage : Storage :=
    { disk := stockedDisk mixedFiles, dataDir := ["", "data"], defaults := {}, cache }
  have hiff := @keepsToOwnFile_iff_inOrder storage ["servers", "data"] mixedFiles hservers
    roomy_data.short
  refine ⟨storage, hopen, hservers, roomy_data.short, ?_, ?_⟩
  · refine (hiff 5 (some 77)).mpr ?_
    rw [InOrder, hready]
    exact .inl ⟨rfl, DiskEntry.free_of_file hfirst⟩
  · intro hkeeps
    have horder := (hiff 6 (some 77)).mp hkeeps
    rw [InOrder, hcut] at horder
    exact absurd (hsecond.symm.trans horder) nofun

/-- A file that was cut short is replaced as soon as somebody asks, and a file that was copied from
another guild is read for the one and written for the other. -/
theorem cut_and_copied_files :
    (∃ storage, open? (stockedDisk [(fileName 5, .file "\x7b no es json")]) ["", "data"] {} =
        .ok storage ∧
      ¬ storage.disk.Spares (storage.getConfig 5).2.disk) ∧
    ∃ storage, open? (stockedDisk
        [(fileName 5, .file (ServerConfig.ofDefaults 9 {}).toJson.pretty)]) ["", "data"] {} =
        .ok storage ∧
      ¬ Disk.SameBut ["data", "servers", fileName 5] storage.disk
        (storage.setAnnouncementChannel 5 (some 77)).2.disk ∧
      ((storage.setAnnouncementChannel 5 (some 77)).2.getConfig 5).1 =
        .ok (.ofDefaults 9 {}) := by
  constructor
  · obtain ⟨cache, hopen, hknown⟩ :=
      open?_stockedDisk [(fileName 5, .file "\x7b no es json")] {}
    have hunreadable : Json.parse? "\x7b no es json" = none := rfl
    have hnone := hknown 5 _ List.lookup_cons_self
    rw [hunreadable, Option.bind_none] at hnone
    exact ⟨_, hopen, not_spares_of_unreadable roomy_data (walk_stockedDisk _) hnone
      List.lookup_cons_self⟩
  · let config := ServerConfig.ofDefaults 9 {}
    let files : List (String × DiskEntry) := [(fileName 5, .file config.toJson.pretty)]
    obtain ⟨cache, hopen, hknown⟩ := open?_stockedDisk files {}
    have hsome := hknown 5 _ List.lookup_cons_self
    rw [config.ofJson?_parse?_pretty] at hsome
    have hname : fileName 9 ≠ fileName 5 := fun heq => absurd (fileName_injective heq) (by decide)
    have hmissing : files.lookup (fileName 9) = none := by
      rw [List.lookup_cons, beq_eq_false_iff_ne.mpr hname]
      rfl
    have hfree := DiskEntry.free_of_missing hmissing
    refine ⟨_, hopen, fun hsame => ?_, ?_⟩
    · have hcopy := @copy_of_sameBut _ 5 config ["servers", "data"] files roomy_data
        (walk_stockedDisk files) (some 77) hsome hfree (by decide) hsame
      exact absurd (hmissing.symm.trans hcopy) nofun
    · obtain ⟨last, hset, -, hget⟩ := setAnnouncementChannel_known roomy_data
        (walk_stockedDisk files) hsome hfree (some 77)
      rw [hset, hget, if_neg (by decide)]

end Jukebox.Storage
