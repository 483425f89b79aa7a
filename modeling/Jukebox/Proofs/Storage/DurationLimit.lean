import Jukebox.Config.Basic
import Jukebox.Proofs.Storage.OwnFile

/-!
The greatest length of a song, from the configuration of the engine to the limits of a guild. The
configured seconds become milliseconds, the file of the guild has them in seconds again, and they
are milliseconds once more each time that somebody asks. Milliseconds are kept in a word, and the
check of the configuration knows no greatest length: where the product does not fit into the word
there are no limits at all. If the milliseconds fit, a guild without a configuration of its own gets
what was configured, however often it asks and however often the directory is opened in between.
-/
namespace Jukebox

/-! ### Seconds and milliseconds -/

/-- A number of seconds, if there is one, is a number of milliseconds that a word can hold. -/
def MillisFit (seconds : Option UInt64) : Prop :=
  ∀ given, seconds = some given → given.toNat * 1000 < 2 ^ 64

theorem millisFit_iff {seconds : Option UInt64} :
    MillisFit seconds ↔
      ∃ millis : Option Millis, millis.map UInt64.toNat = seconds.map (1000 * ·.toNat) := by
  constructor
  · intro hfit
    refine ⟨seconds.map (· * 1000), ?_⟩
    rw [Option.map_map]
    refine Option.map_congr fun given hgiven => ?_
    have hproduct : (given * 1000).toNat = given.toNat * 1000 % 2 ^ 64 := UInt64.toNat_mul ..
    rw [Function.comp_apply, hproduct, Nat.mod_eq_of_lt (hfit given hgiven), Nat.mul_comm]
  · rintro ⟨millis, hmillis⟩ given rfl
    obtain ⟨product, -, hproduct⟩ := Option.map_eq_some_iff.mp hmillis
    change product.toNat = 1000 * given.toNat at hproduct
    have hbound := product.toNat_lt
    omega

/-- Milliseconds that were made of whole seconds survive the way to seconds and back. -/
theorem Millis.toNat_div_mul {seconds : UInt64} {millis : Millis}
    (h : millis.toNat = 1000 * seconds.toNat) : 1000 * (millis / 1000).toNat = millis.toNat := by
  have hquotient : (millis / 1000).toNat = millis.toNat / 1000 := UInt64.toNat_div ..
  omega

theorem ServerConfig.millisFit_ofDefaults (guild : UInt64) (defaults : GuildLimits) :
    MillisFit (ofDefaults guild defaults).maxSongDuration := by
  intro given hgiven
  obtain ⟨millis, -, rfl⟩ := Option.map_eq_some_iff.mp hgiven
  have hbound := millis.toNat_lt
  have hquotient : (millis / 1000).toNat = millis.toNat / 1000 := UInt64.toNat_div ..
  omega

namespace Config

variable {config : Config} {limits : GuildLimits}

theorem exact_of_defaultLimits (h : config.defaultLimits = some limits) :
    limits.maxTrackLengthMillis.map UInt64.toNat =
      config.maxSongDuration.map (1000 * ·.toNat) :=
  (GuildLimits.ofSeconds?_eq_some_iff.mp h).2.2.2

theorem exists_defaultLimits_iff :
    (∃ limits, config.defaultLimits = some limits) ↔ MillisFit config.maxSongDuration := by
  rw [millisFit_iff]
  constructor
  · rintro ⟨limits, hlimits⟩
    exact ⟨_, exact_of_defaultLimits hlimits⟩
  · rintro ⟨millis, hmillis⟩
    rw [defaultLimits, GuildLimits.ofSeconds?, Millis.mapM_ofSeconds?_eq_some_iff.mpr hmillis]
    exact ⟨_, rfl⟩

/-- The file of a guild makes the limits that were configured of the seconds it has for them. -/
theorem limits_ofDefaults (h : config.defaultLimits = some limits) (guild : UInt64) :
    (ServerConfig.ofDefaults guild limits).limits = some limits := by
  refine GuildLimits.ofSeconds?_eq_some_iff.mpr ⟨rfl, rfl, rfl, ?_⟩
  rw [ServerConfig.ofDefaults, Option.map_map]
  refine Option.map_congr fun millis hmillis => ?_
  have hexact := exact_of_defaultLimits h
  rw [hmillis, Option.map_some] at hexact
  obtain ⟨seconds, -, hseconds⟩ := Option.map_eq_some_iff.mp hexact.symm
  exact (Millis.toNat_div_mul hseconds.symm).symm

end Config

namespace Storage

/-! ### A configuration that is on file -/

inductive Reading
  | ask (guild : UInt64)
  | reopen (defaults : GuildLimits)

/-- What is left of a storage after one reading. To ask may fail, and leaves a storage then too. -/
def read (storage : Storage) : Reading → Except StorageError Storage
  | .ask guild => .ok (storage.guildLimits guild).2
  | .reopen defaults => open? storage.disk storage.dataDir defaults

def readAll (storage : Storage) (readings : List Reading) : Except StorageError Storage :=
  readings.foldlM read storage

/-- A configuration is in the file of its guild, and memory has no other for the guild. -/
structure HasFiled (storage : Storage) (config : ServerConfig) : Prop where
  roomy : Roomy storage.dataDir
  servers : ∃ upward entries,
    storage.disk.walk (serversDir storage.dataDir) =
        .ok { upward, entry := .directory entries } ∧
      entries.lookup (fileName config.guildId) = some (.file config.toJson.pretty)
  players : ∃ spot,
    storage.disk.walk (playersDir storage.dataDir) = .ok spot ∧ spot.entry.isDirectory = true
  cached : ∀ found, storage.cache.lookup config.guildId = some found → found = config

namespace HasFiled

variable {storage : Storage} {config : ServerConfig} (h : storage.HasFiled config)

include h

theorem stored?_eq : storage.stored? config.guildId = some config := by
  obtain ⟨upward, entries, hwalk, hfile⟩ := h.servers
  rw [stored?_file h.roomy hwalk hfile, config.ofJson?_parse?_pretty]

theorem known?_eq : storage.known? config.guildId = some config := by
  rw [known?, h.stored?_eq]
  cases hcached : storage.cache.lookup config.guildId with
  | none => rfl
  | some found => rw [h.cached found hcached, Option.some_or]

theorem limits : (storage.guildLimits config.guildId).1 = .ok config.limits := by
  obtain ⟨cache, hget, -⟩ := getConfig_known h.known?_eq
  rw [guildLimits, hget]
  rfl

/-- To keep in memory what is known about a guild changes nothing that is known. -/
theorem remember {guild : UInt64} {found : ServerConfig}
    (hfound : storage.known? guild = some found) :
    (storage.remember guild found).HasFiled config where
  roomy := h.roomy
  servers := h.servers
  players := h.players
  cached := by
    intro other hother
    rw [lookup_remember] at hother
    split at hother
    · next hguild =>
      rw [← hguild, h.known?_eq] at hfound
      exact (Option.some.inj hother).symm.trans (Option.some.inj hfound).symm
    · exact h.cached other hother

end HasFiled

/-- A configuration that was just written is on file. -/
theorem hasFiled_afterWriting {storage : Storage} {upward : List String}
    {entries : List (String × DiskEntry)} (hroomy : Roomy storage.dataDir)
    (hwalk : storage.disk.walk (serversDir storage.dataDir) =
      .ok { upward, entry := .directory entries })
    (hplayers : ∃ spot,
      storage.disk.walk (playersDir storage.dataDir) = .ok spot ∧ spot.entry.isDirectory = true)
    {config : ServerConfig}
    (hfree : ∀ inner, entries.lookup (fileName config.guildId) ≠ some (.directory inner)) :
    (storage.afterWriting { upward, entry := .directory entries } config).HasFiled config where
  roomy := hroomy
  servers := ⟨upward, _, Disk.walk_put hwalk hfree _,
    (DiskEntry.lookup_withEntry entries _ _ _).trans (if_pos rfl)⟩
  players := (Disk.keptBy_put hwalk hfree _).walk_directory hplayers
  cached := by
    intro found hfound
    rw [lookup_afterWriting, if_pos rfl] at hfound
    exact (Option.some.inj hfound).symm

namespace HasFiled

variable {storage : Storage} {config : ServerConfig} (h : storage.HasFiled config)

include h

/-- To write a configuration of another guild leaves the file. -/
theorem afterWriting {upward : List String} {entries : List (String × DiskEntry)}
    (hwalk : storage.disk.walk (serversDir storage.dataDir) =
      .ok { upward, entry := .directory entries }) {other : ServerConfig}
    (hfree : ∀ inner, entries.lookup (fileName other.guildId) ≠ some (.directory inner))
    (hother : config.guildId ≠ other.guildId) :
    (storage.afterWriting { upward, entry := .directory entries } other).HasFiled config where
  roomy := h.roomy
  servers := by
    obtain ⟨_, _, hsame, hfile⟩ := h.servers
    rw [hwalk] at hsame
    cases hsame
    refine ⟨upward, _, Disk.walk_put hwalk hfree _, ?_⟩
    rw [DiskEntry.lookup_withEntry, if_neg fun heq => hother (fileName_injective heq), hfile]
  players := (Disk.keptBy_put hwalk hfree _).walk_directory h.players
  cached := by
    intro found hfound
    rw [lookup_afterWriting, if_neg hother] at hfound
    exact h.cached found hfound

/-- Whoever asks, the configuration stays on file. -/
theorem getConfig (guild : UInt64) : (storage.getConfig guild).2.HasFiled config := by
  cases hknown : storage.known? guild with
  | some found =>
    cases hcached : storage.cache.lookup guild with
    | some kept =>
      rw [getConfig_cached hcached]
      exact h
    | none =>
      have hstored : storage.stored? guild = some found := by
        rwa [known?, hcached, Option.none_or] at hknown
      simp only [Storage.getConfig, hcached, hstored]
      exact h.remember hknown
  | none =>
    have hother : config.guildId ≠ guild := by
      rintro rfl
      rw [h.known?_eq] at hknown
      cases hknown
    obtain ⟨upward, entries, hwalk, -⟩ := h.servers
    by_cases hfree : ∀ inner, entries.lookup (fileName guild) ≠ some (.directory inner)
    · rw [getConfig_unknown h.roomy hwalk hknown hfree]
      exact h.afterWriting hwalk hfree hother
    · obtain ⟨inner, hinner⟩ := not_forall_not.mp hfree
      rw [getConfig_blocked h.roomy hwalk hknown hinner]
      exact h

/-- The directory opens again, and what is on file is what is known then. -/
theorem reopen (defaults : GuildLimits) :
    ∃ next, open? storage.disk storage.dataDir defaults = .ok next ∧ next.HasFiled config := by
  obtain ⟨upward, entries, hwalk, hfile⟩ := h.servers
  obtain ⟨spot, hplayers, hdirectory⟩ := h.players
  obtain ⟨hmakeServers, hmakePlayers⟩ :=
    makeDirectories_both h.roomy hwalk rfl hplayers hdirectory
  rw [serversDir_eq] at hwalk
  have hguilds := guildFiles_eq hwalk h.roomy.sound_serversDir isName_servers
  rw [← serversDir_eq] at hguilds
  obtain ⟨cache, hopen, hknown⟩ := known?_opened hmakeServers hmakePlayers hguilds defaults
  refine ⟨_, hopen, h.roomy, h.servers, h.players, fun found hfound => ?_⟩
  have hsame := (hknown config.guildId).trans h.stored?_eq
  rw [known?, hfound, Option.some_or] at hsame
  exact Option.some.inj hsame

theorem read (reading : Reading) :
    ∃ next, storage.read reading = .ok next ∧ next.HasFiled config := by
  cases reading with
  | ask guild => exact ⟨_, rfl, h.getConfig guild⟩
  | reopen defaults => exact h.reopen defaults

/-- Whatever is read, the configuration stays on file. -/
theorem readAll (readings : List Reading) :
    ∃ last, storage.readAll readings = .ok last ∧ last.HasFiled config := by
  induction readings generalizing storage with
  | nil => exact ⟨storage, rfl, h⟩
  | cons reading rest ih =>
    obtain ⟨next, hread, hnext⟩ := h.read reading
    obtain ⟨last, hrest, hlast⟩ := ih hnext
    refine ⟨last, ?_, hlast⟩
    rw [Storage.readAll, List.foldlM_cons, hread]
    exact hrest

end HasFiled

/-! ### From the configuration of the engine to the limits of a guild -/

/-- A guild gets the defaults of the storage, now and whenever it asks later. Other defaults do not
matter then. -/
structure GetsDefaults (storage : Storage) (guild : UInt64) : Prop where
  asked : (storage.guildLimits guild).1 = .ok (some storage.defaults)
  later : ∀ readings, ∃ last, (storage.guildLimits guild).2.readAll readings = .ok last ∧
    (last.guildLimits guild).1 = .ok (some storage.defaults)
  settled : ∀ found, (storage.getConfig guild).1 = .ok found → MillisFit found.maxSongDuration

/-- The limits of a configuration can be computed, to the millisecond, and with them for defaults
the storage gives them to a guild. -/
def PassesOn (storage : Storage) (config : Config) (guild : UInt64) : Prop :=
  ∃ limits, config.defaultLimits = some limits ∧
    limits.maxTrackLengthMillis.map UInt64.toNat =
      config.maxSongDuration.map (1000 * ·.toNat) ∧
    { storage with defaults := limits }.GetsDefaults guild

/-- A guild that is not known gets the defaults if they are what its file makes of them. -/
theorem getsDefaults {storage : Storage} {upward : List String}
    {entries : List (String × DiskEntry)} {guild : UInt64} (hroomy : Roomy storage.dataDir)
    (hservers : storage.disk.walk (serversDir storage.dataDir) =
      .ok { upward, entry := .directory entries })
    (hplayers : ∃ spot,
      storage.disk.walk (playersDir storage.dataDir) = .ok spot ∧ spot.entry.isDirectory = true)
    (hunknown : storage.known? guild = none)
    (hfree : ∀ inner, entries.lookup (fileName guild) ≠ some (.directory inner))
    (hsame : (ServerConfig.ofDefaults guild storage.defaults).limits = some storage.defaults) :
    storage.GetsDefaults guild := by
  -- The first one to ask is told what is written for the guild, and that stays on file.
  have hget := getConfig_unknown hroomy hservers hunknown hfree
  have hfiled := @hasFiled_afterWriting storage upward entries hroomy hservers hplayers
    (.ofDefaults guild storage.defaults) hfree
  refine ⟨?_, fun readings => ?_, fun found hfound => ?_⟩
  · rw [guildLimits, hget, ← hsame]
    rfl
  · rw [guildLimits, hget]
    obtain ⟨last, hread, hlast⟩ := hfiled.readAll readings
    refine ⟨last, hread, ?_⟩
    rw [← hsame]
    exact hlast.limits
  · rw [hget] at hfound
    obtain rfl := Except.ok.inj hfound
    exact ServerConfig.millisFit_ofDefaults guild storage.defaults

/-- A guild without a configuration of its own gets what was configured just if the milliseconds
fit into a word. -/
theorem passesOn_iff_millisFit {config : Config} {storage : Storage} {upward : List String}
    {entries : List (String × DiskEntry)} {players : Spot} {guild : UInt64}
    (hservers : storage.disk.find (serversDir storage.dataDir) =
      .ok { upward, entry := .directory entries })
    (hplayers : storage.disk.find (playersDir storage.dataDir) = .ok players)
    (hdirectory : players.entry.isDirectory = true)
    (hshort : ∀ other, ((serversDir storage.dataDir).join (fileName other)).tooLong = false)
    (hunknown : storage.known? guild = none)
    (hfree : ∀ inner, entries.lookup (fileName guild) ≠ some (.directory inner)) :
    storage.PassesOn config guild ↔ MillisFit config.maxSongDuration := by
  rw [← Config.exists_defaultLimits_iff]
  constructor
  · rintro ⟨limits, hlimits, -⟩
    exact ⟨limits, hlimits⟩
  · rintro ⟨limits, hlimits⟩
    have hroomy := roomy_of_find hservers hshort
    rw [hroomy.find_serversDir] at hservers
    rw [hroomy.find_playersDir] at hplayers
    refine ⟨limits, hlimits, Config.exact_of_defaultLimits hlimits, ?_⟩
    exact @getsDefaults { storage with defaults := limits } upward entries guild hroomy hservers
      ⟨players, hplayers, hdirectory⟩ hunknown hfree (Config.limits_ofDefaults hlimits guild)

def lastingAtMost (seconds : UInt64) : Config where
  maxSongDuration := some seconds

/-- In an empty directory nothing is known of any guild. -/
theorem open?_blankDisk (defaults : GuildLimits) :
    ∃ storage, open? blankDisk ["", "data"] defaults = .ok storage ∧
      storage.Durable (.start defaults) ∧ ∀ guild, storage.known? guild = none := by
  have hplain : ".".contains '\x00' = false := by
    rw [String.contains_char_eq]
    decide
  have hsound : Path.Sound ["", "data", "."] :=
    @Path.sound_append ["", "data"] "." (by decide) roomy_data.unbroken hplain (by decide)
  have hempty : blankDisk.find (Path.join ["", "data"] ".") =
      .ok { upward := ["data"], entry := .directory [] } :=
    (@Disk.find_append blankDisk ["", "data"] "." hsound (by decide)).trans rfl
  obtain ⟨storage, hopen, hdurable⟩ := open?_empty hempty roomy_data.short defaults
  refine ⟨storage, hopen, hdurable, fun guild => ?_⟩
  rw [known?, hdurable.cached, hdurable.keeps.stored?]
  rfl

/-- The greatest number of seconds for which the milliseconds fit. -/
theorem passesOn_iff_millisFit_greatest :
    ∃ limits storage, (lastingAtMost 18446744073709551).defaultLimits = some limits ∧
      open? blankDisk ["", "data"] limits = .ok storage ∧ storage.known? 9 = none ∧
      storage.PassesOn (lastingAtMost 18446744073709551) 9 := by
  obtain ⟨storage, hopen, hdurable, hnone⟩ :=
    open?_blankDisk { maxTrackLengthMillis := some 18446744073709551000 }
  have hroomy := hdurable.keeps.roomy
  obtain ⟨upward, entries, hservers, hfiled⟩ := hdurable.keeps.servers
  obtain ⟨players, hplayers, hdirectory⟩ := hdurable.keeps.players
  rw [← hroomy.find_serversDir] at hservers
  rw [← hroomy.find_playersDir] at hplayers
  have hfree := DiskEntry.free_of_map (hfiled.contents 9)
  have hfit : MillisFit (lastingAtMost 18446744073709551).maxSongDuration := by
    intro given hgiven
    obtain rfl := Option.some.inj hgiven
    decide
  exact ⟨_, storage, by decide, hopen, hnone 9, (passesOn_iff_millisFit hservers hplayers
    hdirectory hroomy.short (hnone 9) hfree).mpr hfit⟩

/-- One second more passes the check of the configuration too, and there are no limits then. -/
theorem milliseconds_overflow :
    (lastingAtMost 18446744073709552).fault? = none ∧
      (lastingAtMost 18446744073709552).defaultLimits = none ∧
      ∃ storage, open? blankDisk ["", "data"] {} = .ok storage ∧ storage.known? 9 = none ∧
        ¬ storage.PassesOn (lastingAtMost 18446744073709552) 9 := by
  have hnone : (lastingAtMost 18446744073709552).defaultLimits = none := by decide
  obtain ⟨storage, hopen, -, hunknown⟩ := open?_blankDisk {}
  refine ⟨by decide, hnone, storage, hopen, hunknown 9, ?_⟩
  rintro ⟨limits, hlimits, -⟩
  rw [hnone] at hlimits
  cases hlimits

end Storage

end Jukebox
