import Mathlib.Logic.Function.Basic
import Jukebox.Proofs.Json.Records
import Jukebox.Proofs.Storage.Directory
import Jukebox.Proofs.Storage.Names

/-!
Configurations outlive the storage that wrote them. At all times the files hold what is in memory:
for each guild that was read or written its configuration, and nothing for any other guild. So a
storage that is opened on the same directory later, with whatever defaults, goes on where the last
one stopped.
-/
namespace Jukebox

namespace ServerConfig

theorem toJson_valid (config : ServerConfig) : config.toJson.Valid := by
  have hoption := Json.valid_ofOption Json.valid_ofWord
  exact ⟨rfl, Json.valid_ofWord config.guildId, rfl, trivial, rfl, hoption config.maxQueueSize,
    rfl, hoption config.maxUserTracks, rfl, hoption config.maxSongDuration, rfl,
    hoption config.announcementChannelId, trivial⟩

theorem ofJson?_toJson (config : ServerConfig) : ofJson? config.toJson = some config := by
  have hnull : ∀ word : UInt64, Json.Value.ofWord word ≠ .null := fun _ => nofun
  have hword := Json.optional_ofOption Json.word?_ofWord hnull
  have hnames : ["guild_id", "allow_playlists", "max_queue_size", "max_user_tracks",
      "max_song_duration", "announcement_channel_id"].Nodup := by decide
  have hfields : config.toJson.fields? ["guild_id", "allow_playlists", "max_queue_size",
      "max_user_tracks", "max_song_duration", "announcement_channel_id"] = _ :=
    Json.fields?_record hnames
  simp only [ofJson?, hfields, List.map_cons, List.map_nil, hword, Json.required,
    Option.bind_some, Json.word?_ofWord]
  rfl

/-- What is written to a file reads back. -/
theorem ofJson?_parse?_pretty (config : ServerConfig) :
    (Json.parse? config.toJson.pretty).bind ofJson? = some config := by
  rw [Json.parse?_pretty config.toJson_valid, Option.bind_some, ofJson?_toJson]

end ServerConfig

/-! ### What is done to configurations, and what is to come of it -/

/-- One use of the configurations. A restart opens the directory again, maybe with other
defaults. -/
inductive ConfigStep
  | get (guild : UInt64)
  | limits (guild : UInt64)
  | update (config : ServerConfig)
  | setChannel (guild : UInt64) (channel : Option UInt64)
  | restart (defaults : GuildLimits)

def ConfigStep.guild? : ConfigStep → Option UInt64
  | get guild | limits guild | setChannel guild _ => some guild
  | update config => some config.guildId
  | restart _ => none

/-- What a storage has been asked so far, as far as it matters to later reads. -/
structure ConfigHistory where
  /-- The defaults in force. -/
  defaults : GuildLimits
  /-- What was written last for each guild. -/
  written : UInt64 → Option ServerConfig
  /-- The defaults that were in force when each guild was read first. -/
  firstRead : UInt64 → Option GuildLimits
  own : ∀ guild config, written guild = some config → config.guildId = guild

namespace ConfigHistory

def start (defaults : GuildLimits) : ConfigHistory where
  defaults := defaults
  written _ := none
  firstRead _ := none
  own _ _ h := nomatch h

/-- The configuration of a guild: what was written last, or, if nothing was, what the defaults at
the first read make it. If there was no read, the one that asks now is the first. -/
def answer (history : ConfigHistory) (guild : UInt64) : ServerConfig :=
  (history.written guild).getD
    (.ofDefaults guild ((history.firstRead guild).getD history.defaults))

def read (history : ConfigHistory) (guild : UInt64) : ConfigHistory :=
  { history with
    firstRead := Function.update history.firstRead guild
      (some ((history.firstRead guild).getD history.defaults)) }

def write (history : ConfigHistory) (config : ServerConfig) : ConfigHistory :=
  { history with
    written := Function.update history.written config.guildId (some config)
    own := by
      intro guild other h
      by_cases hguild : guild = config.guildId
      · subst hguild
        rw [Function.update_self] at h
        rw [← Option.some.inj h]
      · rw [Function.update_of_ne hguild] at h
        exact history.own guild other h }

/-- A channel is set in the configuration that is read for it. -/
def step (history : ConfigHistory) : ConfigStep → ConfigHistory
  | .get guild | .limits guild => history.read guild
  | .update config => history.write config
  | .setChannel guild channel =>
    (history.read guild).write { history.answer guild with announcementChannelId := channel }
  | .restart defaults => { history with defaults }

def after (defaults : GuildLimits) (steps : List ConfigStep) : ConfigHistory :=
  steps.foldl step (start defaults)

def kept? (history : ConfigHistory) (guild : UInt64) : Option ServerConfig :=
  (history.written guild).or ((history.firstRead guild).map (.ofDefaults guild))

variable (history : ConfigHistory) (guild : UInt64)

theorem answer_eq :
    history.answer guild = (history.kept? guild).getD (.ofDefaults guild history.defaults) := by
  unfold answer kept?
  cases history.written guild with
  | some config => rfl
  | none => cases history.firstRead guild <;> rfl

theorem guildId_of_kept? {config : ServerConfig} (h : history.kept? guild = some config) :
    config.guildId = guild := by
  unfold kept? at h
  cases hwritten : history.written guild with
  | some found =>
    rw [hwritten] at h
    cases h
    exact history.own guild config hwritten
  | none =>
    rw [hwritten, Option.none_or] at h
    obtain ⟨defaults, -, rfl⟩ := Option.map_eq_some_iff.mp h
    rfl

theorem guildId_answer : (history.answer guild).guildId = guild := by
  rw [answer_eq]
  cases h : history.kept? guild with
  | none => rfl
  | some config => exact history.guildId_of_kept? guild h

theorem kept?_read : (history.read guild).kept? =
    Function.update history.kept? guild (some (history.answer guild)) := by
  funext other
  by_cases h : other = guild
  · subst h
    simp only [kept?, read, answer, Function.update_self]
    cases history.written other <;> rfl
  · simp only [kept?, read, Function.update_of_ne h]

theorem kept?_write (config : ServerConfig) : (history.write config).kept? =
    Function.update history.kept? config.guildId (some config) := by
  funext other
  by_cases h : other = config.guildId
  · subst h
    simp only [kept?, write, Function.update_self, Option.some_or]
  · simp only [kept?, write, Function.update_of_ne h]

variable {guild}

/-- What is done to one guild gives that guild something to keep, and that is all it does. -/
theorem kept?_step {step : ConfigStep} (h : step.guild? = some guild) :
    (history.step step).defaults = history.defaults ∧
      ∃ config, (history.step step).kept? =
        Function.update history.kept? guild (some config) := by
  cases step with
  | get other =>
    obtain rfl : other = guild := Option.some.inj h
    exact ⟨rfl, _, history.kept?_read other⟩
  | limits other =>
    obtain rfl : other = guild := Option.some.inj h
    exact ⟨rfl, _, history.kept?_read other⟩
  | update config =>
    obtain rfl : config.guildId = guild := Option.some.inj h
    exact ⟨rfl, _, history.kept?_write config⟩
  | setChannel other channel =>
    obtain rfl : other = guild := Option.some.inj h
    refine ⟨rfl, { history.answer other with announcementChannelId := channel }, ?_⟩
    rw [step, kept?_write, kept?_read, guildId_answer, Function.update_idem]
  | restart defaults => cases h

/-- A step about one guild leaves what another guild gets. -/
theorem answer_step {step : ConfigStep} {other : UInt64} (h : step.guild? = some other)
    (hne : guild ≠ other) : (history.step step).answer guild = history.answer guild := by
  obtain ⟨hdefaults, config, hkept⟩ := history.kept?_step h
  rw [answer_eq, answer_eq, hdefaults, hkept, Function.update_of_ne hne]

theorem isSome_kept?_step (step : ConfigStep) : ((history.step step).kept? guild).isSome = true ↔
    (history.kept? guild).isSome = true ∨ step.guild? = some guild := by
  cases hstep : step.guild? with
  | none =>
    obtain ⟨defaults, rfl⟩ : ∃ defaults, step = .restart defaults := by
      cases step with
      | restart defaults => exact ⟨defaults, rfl⟩
      | _ => cases hstep
    simp [ConfigHistory.step, kept?]
  | some other =>
    obtain ⟨-, config, hkept⟩ := history.kept?_step hstep
    rw [hkept]
    by_cases h : guild = other
    · simp [h]
    · simp [Function.update_of_ne h, Ne.symm h]

/-- There is something to keep for the guilds that were read or written. -/
theorem isSome_kept?_foldl (steps : List ConfigStep) :
    ((steps.foldl step history).kept? guild).isSome = true ↔
      (history.kept? guild).isSome = true ∨ ∃ step ∈ steps, step.guild? = some guild := by
  induction steps generalizing history with
  | nil => simp
  | cons step rest ih =>
    rw [List.foldl_cons, ih, isSome_kept?_step]
    simp only [List.exists_mem_cons_iff, or_assoc]

theorem isSome_kept?_after (defaults : GuildLimits) (steps : List ConfigStep) :
    ((after defaults steps).kept? guild).isSome = true ↔
      ∃ step ∈ steps, step.guild? = some guild := by
  rw [after, isSome_kept?_foldl]
  simp [kept?, start]

end ConfigHistory

namespace Storage

/-! ### The files of the configurations -/

section Files

variable {entries : List (String × DiskEntry)} {kept? : UInt64 → Option ServerConfig}
  {disk : Disk} {dataDir : Path}

/-- A directory holds what is kept, each configuration in the file of its guild, and nothing
else. -/
structure Filed (entries : List (String × DiskEntry)) (kept? : UInt64 → Option ServerConfig) :
    Prop where
  contents : ∀ guild, entries.lookup (fileName guild) =
    (kept? guild).map fun config => .file config.toJson.pretty
  names : ∀ name ∈ entries.map (·.1), ∃ guild, name = fileName guild

theorem Filed.withEntry (h : Filed entries kept?) (guild : UInt64) (config : ServerConfig) :
    Filed (DiskEntry.withEntry entries (fileName guild) (.file config.toJson.pretty))
      (Function.update kept? guild (some config)) where
  contents := DiskEntry.contents_withEntry (fun _ _ => fileName_injective) h.contents guild config
  names := DiskEntry.keyed_withEntry h.names guild _

/-- The guilds that the files are named for are those that something is kept for. -/
theorem Filed.mem_guilds (h : Filed entries kept?) {guild : UInt64} :
    guild ∈ (entries.map (·.1)).filterMap guildOfName? ↔ (kept? guild).isSome = true := by
  have hfile : fileName guild ∈ entries.map (·.1) ↔ (kept? guild).isSome = true := by
    rw [Entries.mem_keys_iff, h.contents, Option.isSome_map]
  rw [← hfile, List.mem_filterMap]
  constructor
  · rintro ⟨name, hname, hguild⟩
    obtain ⟨other, rfl⟩ := h.names name hname
    rw [guildOfName?_fileName] at hguild
    rwa [← Option.some.inj hguild]
  · exact fun hname => ⟨fileName guild, hname, guildOfName?_fileName guild⟩

structure Keeps (disk : Disk) (dataDir : Path) (kept? : UInt64 → Option ServerConfig) :
    Prop where
  roomy : Roomy dataDir
  players : ∃ spot, disk.walk (playersDir dataDir) = .ok spot ∧ spot.entry.isDirectory = true
  servers : ∃ upward entries,
    disk.walk (serversDir dataDir) = .ok { upward, entry := .directory entries } ∧
      Filed entries kept?

theorem Keeps.write (h : Keeps disk dataDir kept?) (config : ServerConfig) :
    ∃ next, disk.write ((serversDir dataDir).join (fileName config.guildId))
        config.toJson.pretty = .ok next ∧
      Keeps next dataDir (Function.update kept? config.guildId (some config)) := by
  obtain ⟨upward, entries, hwalk, hfiled⟩ := h.servers
  have hfree := DiskEntry.free_of_map (hfiled.contents config.guildId)
  have hkept := Disk.keptBy_put hwalk hfree (.file config.toJson.pretty)
  refine ⟨_, ?_, h.roomy, hkept.walk_directory h.players, upward, _,
    Disk.walk_put hwalk hfree _, hfiled.withEntry config.guildId config⟩
  rw [join_fileName]
  exact Disk.write_file hwalk (h.roomy.sound_serverFile config.guildId)
    (isName_fileName config.guildId) hfree config.toJson.pretty

theorem Keeps.stored? {storage : Storage} (h : Keeps storage.disk storage.dataDir kept?)
    (guild : UInt64) : storage.stored? guild = kept? guild := by
  obtain ⟨upward, entries, hwalk, hfiled⟩ := h.servers
  have hsound := h.roomy.sound_serverFile guild
  have hname := isName_fileName guild
  have hcontents := hfiled.contents guild
  rw [Storage.stored?, serverFile, join_fileName]
  cases hkept : kept? guild with
  | none =>
    rw [hkept] at hcontents
    rw [Disk.read_missing hwalk hsound hname hcontents]
  | some config =>
    rw [hkept] at hcontents
    rw [Disk.read_file hwalk hsound hname hcontents]
    exact config.ofJson?_parse?_pretty

/-- The guilds found in a directory are those that its entries are named for. -/
theorem guildFiles_eq {base : Path} {name : String} {upward : List String}
    (hwalk : disk.walk (base ++ [name]) = .ok { upward, entry := .directory entries })
    (hsound : Path.Sound (base ++ [name])) (hname : Path.IsName name) :
    Storage.guildFiles disk (base ++ [name]) =
      .ok ((entries.map (·.1)).filterMap guildOfName?) := by
  have hfind := @Disk.find_append disk _ _ hsound hname.ne_empty
  have hnames := Disk.namesIn_directory hwalk hsound hname rfl
  simp only [Storage.guildFiles, hfind, hwalk, hnames]

theorem Keeps.guildFiles (h : Keeps disk dataDir kept?) :
    ∃ guilds, Storage.guildFiles disk (serversDir dataDir) = .ok guilds ∧
      ∀ guild, guild ∈ guilds ↔ (kept? guild).isSome = true := by
  obtain ⟨upward, entries, hwalk, hfiled⟩ := h.servers
  rw [serversDir_eq] at hwalk ⊢
  exact ⟨_, guildFiles_eq hwalk h.roomy.sound_serversDir isName_servers,
    fun guild => hfiled.mem_guilds⟩

end Files

/-! ### The configurations in memory -/

section Memory

variable (storage : Storage) (guild : UInt64) (config : ServerConfig)

theorem lookup_remember (other : UInt64) :
    (storage.remember guild config).cache.lookup other =
      if other = guild then some config else storage.cache.lookup other := by
  by_cases h : other = guild
  · subst h
    rw [if_pos rfl, remember, List.lookup_cons_self]
  · rw [if_neg h, remember, List.lookup_cons, beq_eq_false_iff_ne.mpr h]
    exact Entries.lookup_filter_ne storage.cache h

theorem nodup_remember (h : storage.servers.Nodup) :
    (storage.remember guild config).servers.Nodup :=
  List.nodup_cons.mpr
    ⟨Entries.key_not_mem_filter storage.cache guild, Entries.nodup_filter h guild⟩

/-- Reading the files of some guilds changes what is in memory for them, and nothing else. -/
theorem rememberStored_eq (guilds : List UInt64) (h : storage.servers.Nodup) :
    ∃ cache, storage.rememberStored guilds = { storage with cache } ∧
      (cache.map (·.1)).Nodup ∧ ∀ other, cache.lookup other =
        if other ∈ guilds then (storage.stored? other).or (storage.cache.lookup other)
        else storage.cache.lookup other := by
  induction guilds generalizing storage with
  | nil => exact ⟨storage.cache, rfl, h, fun other => rfl⟩
  | cons guild rest ih =>
    rw [rememberStored, List.foldl_cons]
    cases hstored : storage.stored? guild with
    | none =>
      obtain ⟨cache, heq, hnodup, hlookup⟩ := ih storage h
      refine ⟨cache, heq, hnodup, fun other => ?_⟩
      rw [hlookup]
      by_cases hother : other = guild
      · subst hother
        simp [hstored]
      · simp [hother]
    | some config =>
      obtain ⟨cache, heq, hnodup, hlookup⟩ :=
        ih (storage.remember guild config) (nodup_remember storage guild config h)
      refine ⟨cache, heq, hnodup, fun other => ?_⟩
      have hsame : (storage.remember guild config).stored? other = storage.stored? other := rfl
      rw [hlookup, hsame, lookup_remember]
      by_cases hother : other = guild
      · subst hother
        simp [hstored]
      · simp [hother]

end Memory

/-! ### Storages and what they were asked -/

structure Durable (storage : Storage) (history : ConfigHistory) : Prop where
  keeps : Keeps storage.disk storage.dataDir history.kept?
  defaults : storage.defaults = history.defaults
  cached : ∀ guild, storage.cache.lookup guild = history.kept? guild
  distinct : storage.servers.Nodup

section Durable

variable {storage : Storage} {history : ConfigHistory}

theorem Durable.congr (h : storage.Durable history) {other : ConfigHistory}
    (hdefaults : other.defaults = history.defaults) (hkept : other.kept? = history.kept?) :
    storage.Durable other where
  keeps := hkept ▸ h.keeps
  defaults := hdefaults ▸ h.defaults
  cached := hkept ▸ h.cached
  distinct := h.distinct

theorem Durable.mem_servers (h : storage.Durable history) {guild : UInt64} :
    guild ∈ storage.servers ↔ (history.kept? guild).isSome = true := by
  rw [servers, Entries.mem_keys_iff, h.cached]

/-- A configuration that is written comes to the file and to the memory. -/
theorem Durable.write (h : storage.Durable history) (config : ServerConfig) :
    ∃ next, storage.writeConfig config = .ok next ∧
      (next.remember config.guildId config).Durable (history.write config) := by
  obtain ⟨disk, hwrite, hkeeps⟩ := h.keeps.write config
  refine ⟨{ storage with disk }, ?_, ?_, h.defaults, fun guild => ?_, ?_⟩
  · rw [writeConfig, serverFile, hwrite]
  · rw [history.kept?_write]
    exact hkeeps
  · rw [lookup_remember, history.kept?_write, Function.update_apply]
    exact if_congr Iff.rfl rfl (h.cached guild)
  · exact nodup_remember { storage with disk } config.guildId config h.distinct

theorem Durable.getConfig (h : storage.Durable history) (guild : UInt64) :
    ∃ next, storage.getConfig guild = (.ok (history.answer guild), next) ∧
      next.Durable (history.read guild) := by
  have hcached := h.cached guild
  have hstored := h.keeps.stored? guild
  rw [history.answer_eq]
  unfold Storage.getConfig
  cases hkept : history.kept? guild with
  | some config =>
    rw [hkept] at hcached
    simp only [hcached, Option.getD_some]
    refine ⟨storage, rfl, h.congr rfl ?_⟩
    rw [history.kept?_read, history.answer_eq, hkept, Option.getD_some, ← hkept,
      Function.update_eq_self]
  | none =>
    rw [hkept] at hcached hstored
    obtain ⟨next, hwrite, hdurable⟩ := h.write (.ofDefaults guild history.defaults)
    simp only [hcached, hstored, h.defaults, hwrite, Option.getD_none]
    refine ⟨_, rfl, hdurable.congr rfl ?_⟩
    rw [history.kept?_read, history.kept?_write, history.answer_eq, hkept]
    rfl

theorem Durable.updateConfig (h : storage.Durable history) (config : ServerConfig) :
    ∃ next, storage.updateConfig config = (.ok (), next) ∧
      next.Durable (history.write config) := by
  obtain ⟨next, hwrite, hdurable⟩ := h.write config
  exact ⟨_, by rw [Storage.updateConfig, hwrite], hdurable⟩

theorem Durable.setAnnouncementChannel (h : storage.Durable history) (guild : UInt64)
    (channel : Option UInt64) :
    ∃ next, storage.setAnnouncementChannel guild channel = (.ok (), next) ∧
      next.Durable (history.step (.setChannel guild channel)) := by
  obtain ⟨between, hget, hread⟩ := h.getConfig guild
  obtain ⟨next, hupdate, hdurable⟩ :=
    hread.updateConfig { history.answer guild with announcementChannelId := channel }
  refine ⟨next, ?_, hdurable⟩
  rw [Storage.setAnnouncementChannel, hget]
  exact hupdate

theorem Durable.guildLimits (h : storage.Durable history) (guild : UInt64) :
    ∃ next, storage.guildLimits guild = (.ok (history.answer guild).limits, next) ∧
      next.Durable (history.read guild) := by
  obtain ⟨next, hget, hdurable⟩ := h.getConfig guild
  exact ⟨next, by rw [Storage.guildLimits, hget]; rfl, hdurable⟩

/-! ### Opening a directory -/

/-- Once the directories are made, a storage opens. What it has in memory are the configurations
that can be read. -/
theorem open?_made {disk between made : Disk} {dataDir : Path} {guilds : List UInt64}
    (hservers : disk.makeDirectories (serversDir dataDir) = (.ok (), between))
    (hplayers : between.makeDirectories (playersDir dataDir) = (.ok (), made))
    (hguilds : guildFiles made (serversDir dataDir) = .ok guilds) (defaults : GuildLimits) :
    ∃ cache, open? disk dataDir defaults = .ok { disk := made, dataDir, defaults, cache } ∧
      (cache.map (·.1)).Nodup ∧
      ∀ guild, cache.lookup guild =
        if guild ∈ guilds then stored? { disk := made, dataDir, defaults } guild else none := by
  let empty : Storage := { disk := made, dataDir, defaults }
  obtain ⟨cache, heq, hnodup, hlookup⟩ := empty.rememberStored_eq guilds List.nodup_nil
  refine ⟨cache, ?_, hnodup, fun guild => ?_⟩
  · simp only [open?, hservers, hplayers, hguilds]
    exact congrArg Except.ok heq
  · rw [hlookup]
    exact if_congr Iff.rfl Option.or_none rfl

/-- A storage that is opened where something is kept goes on with it. -/
theorem open?_durable (history : ConfigHistory) {disk between made : Disk} {dataDir : Path}
    (hservers : disk.makeDirectories (serversDir dataDir) = (.ok (), between))
    (hplayers : between.makeDirectories (playersDir dataDir) = (.ok (), made))
    (hkeeps : Keeps made dataDir history.kept?) :
    ∃ storage, open? disk dataDir history.defaults = .ok storage ∧ storage.Durable history := by
  obtain ⟨guilds, hguilds, hmem⟩ := hkeeps.guildFiles
  obtain ⟨cache, hopen, hnodup, hlookup⟩ :=
    open?_made hservers hplayers hguilds history.defaults
  let empty : Storage := { disk := made, dataDir, defaults := history.defaults }
  refine ⟨_, hopen, hkeeps, rfl, fun guild => ?_, hnodup⟩
  have hstored : empty.stored? guild = history.kept? guild := hkeeps.stored? guild
  rw [hlookup, hstored]
  simp only [hmem]
  cases history.kept? guild <;> rfl

/-- Where both directories are, none is made. -/
theorem makeDirectories_both {disk : Disk} {dataDir : Path} (hroomy : Roomy dataDir)
    {servers players : Spot} (hservers : disk.walk (serversDir dataDir) = .ok servers)
    (hisServers : servers.entry.isDirectory = true)
    (hplayers : disk.walk (playersDir dataDir) = .ok players)
    (hisPlayers : players.entry.isDirectory = true) :
    disk.makeDirectories (serversDir dataDir) = (.ok (), disk) ∧
      disk.makeDirectories (playersDir dataDir) = (.ok (), disk) := by
  rw [serversDir_eq] at hservers ⊢
  rw [playersDir_eq] at hplayers ⊢
  exact ⟨Disk.makeDirectories_there hservers hroomy.sound_serversDir isName_servers hisServers,
    Disk.makeDirectories_there hplayers hroomy.sound_playersDir isName_players hisPlayers⟩

theorem Durable.restart (h : storage.Durable history) (defaults : GuildLimits) :
    ∃ next, open? storage.disk storage.dataDir defaults = .ok next ∧
      next.Durable (history.step (.restart defaults)) := by
  obtain ⟨spot, hplayers, hdirectory⟩ := h.keeps.players
  obtain ⟨upward, entries, hservers, -⟩ := h.keeps.servers
  obtain ⟨hmakeServers, hmakePlayers⟩ :=
    makeDirectories_both h.keeps.roomy hservers rfl hplayers hdirectory
  exact open?_durable (history.step (.restart defaults)) hmakeServers hmakePlayers h.keeps

/-- In an empty directory both directories are made, and they are empty. -/
theorem makeDirectories_empty {disk : Disk} {dataDir : Path} {upward : List String}
    (hempty : disk.find (dataDir.join ".") = .ok { upward, entry := .directory [] })
    (hshort : ∀ guild, ((serversDir dataDir).join (fileName guild)).tooLong = false) :
    Roomy dataDir ∧ ∃ between made,
      disk.makeDirectories (serversDir dataDir) = (.ok (), between) ∧
      between.makeDirectories (playersDir dataDir) = (.ok (), made) ∧
      made.walk (serversDir dataDir) =
        .ok { upward := "servers" :: upward, entry := .directory [] } ∧
      made.walk (playersDir dataDir) =
        .ok { upward := "players" :: upward, entry := .directory [] } := by
  rw [Path.join_eq] at hempty
  have hsound := Disk.sound_of_find hempty
  have hbroken := hsound.unbroken
  rw [Path.isBroken_append, Bool.or_eq_false_iff] at hbroken
  have hroomy : Roomy dataDir := ⟨hbroken.1, hshort⟩
  have hbase : disk.walk dataDir.stem = .ok { upward, entry := .directory [] } := by
    rw [Disk.find_append hsound (by decide)] at hempty
    exact Disk.walk_of_dot hempty
  -- Both directories are new, and making the second keeps the first.
  obtain ⟨between, hservers, hbetween⟩ :=
    Disk.makeDirectories_new hbase hroomy.sound_serversDir isName_servers rfl
  obtain ⟨made, hplayers, hmade⟩ :=
    Disk.makeDirectories_new hbetween hroomy.sound_playersDir isName_players rfl
  rw [serversDir_eq, playersDir_eq]
  exact ⟨hroomy, between, made, hservers, hplayers, Disk.walk_child hmade isName_servers rfl,
    Disk.walk_child hmade isName_players rfl⟩

theorem open?_empty {disk : Disk} {dataDir : Path} {upward : List String}
    (hempty : disk.find (dataDir.join ".") = .ok { upward, entry := .directory [] })
    (hshort : ∀ guild, ((serversDir dataDir).join (fileName guild)).tooLong = false)
    (defaults : GuildLimits) :
    ∃ storage, open? disk dataDir defaults = .ok storage ∧
      storage.Durable (.start defaults) := by
  obtain ⟨hroomy, between, made, hservers, hplayers, hmadeServers, hmadePlayers⟩ :=
    makeDirectories_empty hempty hshort
  exact open?_durable (.start defaults) hservers hplayers
    ⟨hroomy, ⟨_, hmadePlayers, rfl⟩, _, [], hmadeServers, fun _ => rfl, List.forall_mem_nil _⟩

end Durable

/-! ### Runs -/

def ifDone {α : Type} : Except StorageError α × Storage → Except StorageError Storage
  | (.ok _, storage) => .ok storage
  | (.error error, _) => .error error

def perform (storage : Storage) : ConfigStep → Except StorageError Storage
  | .get guild => ifDone (storage.getConfig guild)
  | .limits guild => ifDone (storage.guildLimits guild)
  | .update config => ifDone (storage.updateConfig config)
  | .setChannel guild channel => ifDone (storage.setAnnouncementChannel guild channel)
  | .restart defaults => open? storage.disk storage.dataDir defaults

/-- Open a directory and go through some steps, each of which is to succeed. -/
def run (disk : Disk) (dataDir : Path) (defaults : GuildLimits) (steps : List ConfigStep) :
    Except StorageError Storage := do
  steps.foldlM perform (← open? disk dataDir defaults)

theorem Durable.perform {storage : Storage} {history : ConfigHistory}
    (h : storage.Durable history) (step : ConfigStep) :
    ∃ next, storage.perform step = .ok next ∧ next.Durable (history.step step) := by
  cases step with
  | get guild =>
    obtain ⟨next, hget, hdurable⟩ := h.getConfig guild
    exact ⟨next, by rw [Storage.perform, hget]; rfl, hdurable⟩
  | limits guild =>
    obtain ⟨next, hlimits, hdurable⟩ := h.guildLimits guild
    exact ⟨next, by rw [Storage.perform, hlimits]; rfl, hdurable⟩
  | update config =>
    obtain ⟨next, hupdate, hdurable⟩ := h.updateConfig config
    exact ⟨next, by rw [Storage.perform, hupdate]; rfl, hdurable⟩
  | setChannel guild channel =>
    obtain ⟨next, hset, hdurable⟩ := h.setAnnouncementChannel guild channel
    exact ⟨next, by rw [Storage.perform, hset]; rfl, hdurable⟩
  | restart defaults => exact h.restart defaults

theorem Durable.performAll {storage : Storage} {history : ConfigHistory}
    (h : storage.Durable history) (steps : List ConfigStep) :
    ∃ last, steps.foldlM Storage.perform storage = .ok last ∧
      last.Durable (steps.foldl ConfigHistory.step history) := by
  induction steps generalizing storage history with
  | nil => exact ⟨storage, rfl, h⟩
  | cons step rest ih =>
    obtain ⟨next, hstep, hnext⟩ := h.perform step
    obtain ⟨last, hrest, hlast⟩ := ih hnext
    refine ⟨last, ?_, hlast⟩
    rw [List.foldlM_cons, hstep]
    exact hrest

/-- From an empty directory every run succeeds, and at its end each guild has the configuration
that was written for it last, or, if none was, the one from the defaults at its first read. What
is done to one guild leaves the others' alone, and a storage that is opened again knows the guilds
that were read or written. -/
theorem configurations_last {disk : Disk} {dataDir : Path} {upward : List String}
    (hempty : disk.find (dataDir.join ".") = .ok { upward, entry := .directory [] })
    (hshort : ∀ guild, ((serversDir dataDir).join (fileName guild)).tooLong = false)
    (defaults : GuildLimits) (steps : List ConfigStep) :
    ∃ storage, run disk dataDir defaults steps = .ok storage ∧
      (∀ guild,
        (storage.getConfig guild).1 =
          .ok ((ConfigHistory.after defaults steps).answer guild) ∧
        (storage.guildLimits guild).1 =
          .ok ((ConfigHistory.after defaults steps).answer guild).limits) ∧
      (∀ step other guild, step.guild? = some other → guild ≠ other →
        ∃ next, storage.perform step = .ok next ∧
          (next.getConfig guild).1 = (storage.getConfig guild).1) ∧
      ∀ later, ∃ reopened, storage.perform (.restart later) = .ok reopened ∧
        reopened.servers.Nodup ∧
        ∀ guild, guild ∈ reopened.servers ↔ ∃ step ∈ steps, step.guild? = some guild := by
  obtain ⟨first, hopen, hfirst⟩ := open?_empty hempty hshort defaults
  obtain ⟨storage, hsteps, hdurable⟩ := hfirst.performAll steps
  have hrun : run disk dataDir defaults steps = .ok storage := by
    rw [run, hopen]
    exact hsteps
  refine ⟨storage, hrun, fun guild => ?_, fun step other guild hstep hne => ?_,
    fun later => ?_⟩
  · obtain ⟨_, hget, -⟩ := hdurable.getConfig guild
    obtain ⟨_, hlimits, -⟩ := hdurable.guildLimits guild
    exact ⟨congrArg Prod.fst hget, congrArg Prod.fst hlimits⟩
  · obtain ⟨next, hnext, hlater⟩ := hdurable.perform step
    obtain ⟨_, hbefore, -⟩ := hdurable.getConfig guild
    obtain ⟨_, hafter, -⟩ := hlater.getConfig guild
    rw [ConfigHistory.answer_step _ hstep hne] at hafter
    exact ⟨next, hnext, by rw [hbefore, hafter]⟩
  · obtain ⟨reopened, hreopened, hlater⟩ := hdurable.perform (.restart later)
    refine ⟨reopened, hreopened, hlater.distinct, fun guild => ?_⟩
    rw [hlater.mem_servers]
    exact ConfigHistory.isSome_kept?_after defaults steps

def blankDisk : Disk where
  root := .directory [("data", .directory [])]

theorem roomy_data : Roomy ["", "data"] where
  unbroken := by
    change Path.isBroken ["", "data"] = false
    simp only [Path.isBroken, List.any_cons, List.any_nil, String.contains_char_eq]
    decide
  short := short_of_size (by decide)

def liftedLimit : List ConfigStep := [.get 5, .setChannel 5 (some 77), .restart {}, .limits 9]

theorem configurations_last_liftedLimit :
    blankDisk.find (Path.join ["", "data"] ".") =
      .ok { upward := ["data"], entry := .directory [] } ∧
    (∀ guild, ((serversDir ["", "data"]).join (fileName guild)).tooLong = false) ∧
    ∃ storage, run blankDisk ["", "data"] { maxTracks := some 100 } liftedLimit = .ok storage ∧
      (storage.getConfig 5).1 = .ok
        { ServerConfig.ofDefaults 5 { maxTracks := some 100 } with
          announcementChannelId := some 77 } ∧
      (storage.guildLimits 9).1 = .ok (some {}) := by
  have hsound : Path.Sound ["", "data", "."] := by
    have hbroken : Path.isBroken ["", "data"] = false := by
      simp only [Path.isBroken, List.any_cons, List.any_nil, String.contains_char_eq]
      decide
    have hplain : ".".contains '\x00' = false := by
      rw [String.contains_char_eq]
      decide
    exact @Path.sound_append ["", "data"] "." (by decide) hbroken hplain (by decide)
  have hempty : blankDisk.find (Path.join ["", "data"] ".") =
      .ok { upward := ["data"], entry := .directory [] } :=
    (@Disk.find_append blankDisk ["", "data"] "." hsound (by decide)).trans rfl
  have hshort := @short_of_size ["", "data"] (by decide)
  obtain ⟨storage, hrun, hanswers, -⟩ := @configurations_last blankDisk ["", "data"] ["data"]
    hempty hshort { maxTracks := some 100 } liftedLimit
  exact ⟨hempty, hshort, storage, hrun, (hanswers 5).1, (hanswers 9).2⟩

end Storage

end Jukebox
