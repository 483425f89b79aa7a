import Jukebox.Proofs.Player.SnapshotText
import Jukebox.Proofs.Storage.Configurations

/-!
The directory for snapshots, entry by entry. A snapshot that is saved becomes the file of its guild,
by way of a draft beside it; one without tracks takes the file away. All other entries stay, be they
snapshots or something else, readable or not.
-/
namespace Jukebox.Storage

theorem fileName_word_injective {guild other : GuildId}
    (h : fileName guild.word = fileName other.word) : guild = other :=
  Snowflake.ext (fileName_injective h)

section Saving

variable {storage : Storage} {upward : List String} {entries : List (String × DiskEntry)}
  {guild : GuildId} (hroomy : Roomy storage.dataDir)
  (hshort : ∀ guild, ((playersDir storage.dataDir).join (fileName guild ++ ".tmp")).tooLong = false)
  (hwalk : storage.disk.walk (playersDir storage.dataDir) =
    .ok { upward, entry := .directory entries })
  (hfree : ∀ inner, entries.lookup (fileName guild.word) ≠ some (.directory inner))

include hroomy hshort hwalk hfree

theorem dropSnapshot_done :
    ∃ made, storage.dropSnapshot guild = (.ok (), { storage with disk := made }) ∧
      Disk.KeptBy storage.disk made ∧ made.walk (playersDir storage.dataDir) =
        .ok { upward, entry := .directory (entries.filter (·.1 ≠ fileName guild.word)) } := by
  have hsound := hroomy.sound_playerFile hshort guild.word
  have hname := isName_fileName guild.word
  unfold dropSnapshot
  cases hlookup : entries.lookup (fileName guild.word) with
  | none =>
    refine ⟨storage.disk, ?_, .refl _, ?_⟩
    · simp only [playerFile, join_players, Disk.removeFile_missing hwalk hsound hname hlookup]
    · rw [Entries.filter_ne_of_missing hlookup]
      exact hwalk
  | some entry =>
    cases entry with
    | directory inner => exact absurd hlookup (hfree inner)
    | file text =>
      refine ⟨_, ?_, Disk.keptBy_erase hwalk hfree, Disk.walk_erase hwalk hfree⟩
      simp only [playerFile, join_players, Disk.removeFile_file hwalk hsound hname hlookup]

/-- The draft is in the directory while it is written, and gone once it has become the file. -/
theorem writeSnapshot_done
    (hdraft : ∀ inner, entries.lookup (fileName guild.word ++ ".tmp") ≠ some (.directory inner))
    (snapshot : PlayerSnapshot) :
    ∃ made, storage.writeSnapshot guild snapshot = (.ok (), { storage with disk := made }) ∧
      Disk.KeptBy storage.disk made ∧ made.walk (playersDir storage.dataDir) =
        .ok { upward, entry := .directory (DiskEntry.withEntry
          (entries.filter (·.1 ≠ fileName guild.word ++ ".tmp")) (fileName guild.word)
          (.file snapshot.toJson.pretty)) } := by
  have hsoundDraft := hroomy.sound_draftFile hshort guild.word
  have hnameDraft := isName_draft guild.word
  have hwrite := Disk.write_file hwalk hsoundDraft hnameDraft hdraft snapshot.toJson.pretty
  have hwritten := Disk.walk_put hwalk hdraft (.file snapshot.toJson.pretty)
  have hne := fileName_ne_draft guild.word guild.word
  have hthere := (DiskEntry.lookup_withEntry entries (fileName guild.word ++ ".tmp")
    (.file snapshot.toJson.pretty) (fileName guild.word ++ ".tmp")).trans (if_pos rfl)
  have htarget := (DiskEntry.lookup_withEntry entries (fileName guild.word ++ ".tmp")
    (.file snapshot.toJson.pretty) (fileName guild.word)).trans (if_neg hne)
  obtain ⟨made, hrename, hkept, hmade⟩ := Disk.rename_file hwritten hsoundDraft hnameDraft hthere
    (hroomy.sound_playerFile hshort guild.word) (isName_fileName guild.word) hne
    (by rw [htarget]; exact hfree)
  rw [DiskEntry.filter_withEntry] at hmade
  refine ⟨made, ?_, (Disk.keptBy_put hwalk hdraft _).trans hkept, hmade⟩
  simp only [writeSnapshot, draftFile, playerFile, join_players, hwrite, hrename]

end Saving

/-! ### Whatever texts there are -/

section Texts

variable {entries : List (String × DiskEntry)} {text? : GuildId → Option String}

/-- The files that are named for guilds have these texts, and no directory stands where a snapshot
is to be written. A number is written in one way only. -/
structure Texts (entries : List (String × DiskEntry)) (text? : GuildId → Option String) :
    Prop where
  contents : ∀ guild : GuildId, entries.lookup (fileName guild.word) = (text? guild).map .file
  drafts : ∀ (guild : GuildId) (inner : List (String × DiskEntry)),
    entries.lookup (fileName guild.word ++ ".tmp") ≠ some (.directory inner)
  plain : ∀ name ∈ entries.map (·.1), ∀ guild : UInt64, guildOfName? name = some guild →
    name = fileName guild
  distinct : (entries.map (·.1)).Nodup

namespace Texts

theorem empty : Texts [] fun _ => none where
  contents := fun _ => rfl
  drafts := fun _ _ => nofun
  plain := List.forall_mem_nil _
  distinct := List.nodup_nil

/-- A text is written as it is. -/
theorem written (h : Texts entries text?) (guild : GuildId) :
    entries.lookup (fileName guild.word) = (text? guild).map fun text => .file (id text) :=
  h.contents guild

theorem not_directory (h : Texts entries text?) (guild : GuildId) :
    ∀ inner, entries.lookup (fileName guild.word) ≠ some (.directory inner) :=
  DiskEntry.free_of_map (h.written guild)

/-- Something that is not named for a guild was taken away. -/
theorem filter (h : Texts entries text?) {name : String}
    (hname : ∀ guild : GuildId, fileName guild.word ≠ name) :
    Texts (entries.filter (·.1 ≠ name)) text? where
  contents := fun guild => (Entries.lookup_filter_ne entries (hname guild)).trans (h.contents guild)
  drafts := by
    intro guild inner hinner
    by_cases hdraft : fileName guild.word ++ ".tmp" = name
    · rw [hdraft, Entries.lookup_filter_self] at hinner
      cases hinner
    · exact h.drafts guild inner ((Entries.lookup_filter_ne entries hdraft).symm.trans hinner)
  plain := fun found hfound => h.plain found ((List.filter_sublist.map _).subset hfound)
  distinct := Entries.nodup_filter h.distinct name

theorem erase (h : Texts entries text?) (guild : GuildId) :
    Texts (entries.filter (·.1 ≠ fileName guild.word)) (Function.update text? guild none) where
  contents := (DiskEntry.contents_filter (fun _ _ => fileName_word_injective) h.written guild :)
  drafts := by
    intro other inner hinner
    have hne := (fileName_ne_draft other.word guild.word).symm
    exact h.drafts other inner ((Entries.lookup_filter_ne entries hne).symm.trans hinner)
  plain := fun found hfound => h.plain found ((List.filter_sublist.map _).subset hfound)
  distinct := Entries.nodup_filter h.distinct _

theorem withEntry (h : Texts entries text?) (guild : GuildId) (text : String) :
    Texts (DiskEntry.withEntry entries (fileName guild.word) (.file text))
      (Function.update text? guild (some text)) where
  contents :=
    (DiskEntry.contents_withEntry (fun _ _ => fileName_word_injective) h.written guild text :)
  drafts := by
    intro other inner hinner
    rw [DiskEntry.lookup_withEntry, if_neg (fileName_ne_draft other.word guild.word).symm] at hinner
    exact h.drafts other inner hinner
  plain := by
    intro name hname other hother
    rcases (DiskEntry.names_withEntry entries (fileName guild.word) (.file text) name).mp hname with
      rfl | hold
    · rw [guildOfName?_fileName] at hother
      rw [Option.some.inj hother]
    · exact h.plain name hold other hother
  distinct := DiskEntry.nodup_withEntry h.distinct _ _

/-- The entries are named for the guilds that have a text, each once. -/
theorem guilds (h : Texts entries text?) :
    (((entries.map (·.1)).filterMap guildOfName?).filterMap
      Snowflake.ofWord? : List GuildId).Nodup ∧
    ∀ guild : GuildId, guild ∈ ((entries.map (·.1)).filterMap guildOfName?).filterMap
      Snowflake.ofWord? ↔ (text? guild).isSome = true := by
  have hname : ∀ name ∈ entries.map (·.1), ∀ guild : GuildId,
      (guildOfName? name).bind Snowflake.ofWord? = some guild → name = fileName guild.word := by
    intro name hname guild hguild
    obtain ⟨word, hword, hid⟩ := Option.bind_eq_some_iff.mp hguild
    rw [Snowflake.ofWord?_eq_some_iff.mp hid]
    exact h.plain name hname word hword
  rw [List.filterMap_filterMap]
  constructor
  · refine List.pairwise_filterMap.mpr (h.distinct.imp_of_mem ?_)
    rintro name other hfirst hsecond hne guild hguild same hsame rfl
    exact hne ((hname name hfirst guild hguild).trans (hname other hsecond guild hsame).symm)
  · intro guild
    have hmem : fileName guild.word ∈ entries.map (·.1) ↔ (text? guild).isSome = true := by
      rw [Entries.mem_keys_iff, h.contents, Option.isSome_map]
    rw [List.mem_filterMap, ← hmem]
    constructor
    · rintro ⟨name, hfound, hguild⟩
      rwa [← hname name hfound guild hguild]
    · intro hfound
      refine ⟨_, hfound, ?_⟩
      rw [guildOfName?_fileName, Option.bind_some, Snowflake.ofWord?_word]

end Texts

end Texts

/-! ### The storage over the texts -/

def keptText? (snapshot : PlayerSnapshot) : Option String :=
  if snapshot.tracks.isEmpty then none else some snapshot.toJson.pretty

structure HasTexts (storage : Storage) (text? : GuildId → Option String) : Prop where
  roomy : Roomy storage.dataDir
  short : ∀ guild, ((playersDir storage.dataDir).join (fileName guild ++ ".tmp")).tooLong = false
  players : ∃ upward entries, storage.disk.walk (playersDir storage.dataDir) =
    .ok { upward, entry := .directory entries } ∧ Texts entries text?

namespace HasTexts

variable {storage : Storage} {text? : GuildId → Option String}

theorem of_find {upward : List String} {entries : List (String × DiskEntry)}
    (hplayers : storage.disk.find (playersDir storage.dataDir) =
      .ok { upward, entry := .directory entries })
    (hshort : ∀ guild,
      ((playersDir storage.dataDir).join (fileName guild ++ ".tmp")).tooLong = false)
    (htexts : Texts entries text?) : storage.HasTexts text? := by
  have hsound := Disk.sound_of_find hplayers
  rw [playersDir_eq] at hsound
  have hbroken := hsound.unbroken
  rw [Path.isBroken_append, Bool.or_eq_false_iff] at hbroken
  have hroomy : Roomy storage.dataDir := ⟨hbroken.1, short_of_drafts hshort⟩
  exact ⟨hroomy, hshort, upward, entries, (hroomy.find_playersDir _).symm.trans hplayers, htexts⟩

variable (h : storage.HasTexts text?)

include h

theorem read (guild : GuildId) : storage.disk.read (storage.playerFile guild) =
    match text? guild with
    | some text => .ok text
    | none => .error .notFound := by
  obtain ⟨upward, entries, hwalk, htexts⟩ := h.players
  have hsound := h.roomy.sound_playerFile h.short guild.word
  have hname := isName_fileName guild.word
  have hcontents := htexts.contents guild
  rw [playerFile, join_players]
  cases htext : text? guild with
  | none =>
    rw [htext] at hcontents
    exact Disk.read_missing hwalk hsound hname hcontents
  | some text =>
    rw [htext] at hcontents
    exact Disk.read_file hwalk hsound hname hcontents

/-- The guilds that are listed are those that have a text. -/
theorem list : ∃ guilds, storage.snapshotGuilds = .ok guilds ∧ guilds.Nodup ∧
    ∀ guild, guild ∈ guilds ↔ (text? guild).isSome = true := by
  obtain ⟨upward, entries, hwalk, htexts⟩ := h.players
  rw [playersDir_eq] at hwalk
  have hfiles := guildFiles_eq hwalk h.roomy.sound_playersDir isName_players
  refine ⟨_, ?_, htexts.guilds⟩
  rw [snapshotGuilds, playersDir_eq, hfiles]
  rfl

theorem save (guild : GuildId) (snapshot : PlayerSnapshot) :
    ∃ next, storage.saveSnapshot guild snapshot = (.ok (), next) ∧
      next.HasTexts (Function.update text? guild (keptText? snapshot)) := by
  obtain ⟨upward, entries, hwalk, htexts⟩ := h.players
  have hfree := htexts.not_directory guild
  unfold saveSnapshot keptText?
  cases snapshot.tracks.isEmpty with
  | true =>
    obtain ⟨made, hdrop, -, hmade⟩ := dropSnapshot_done h.roomy h.short hwalk hfree
    exact ⟨_, hdrop, h.roomy, h.short, upward, _, hmade, htexts.erase guild⟩
  | false =>
    obtain ⟨made, hwrite, -, hmade⟩ :=
      writeSnapshot_done h.roomy h.short hwalk hfree (htexts.drafts guild) snapshot
    have hrest : Texts _ text? :=
      htexts.filter fun other => fileName_ne_draft guild.word other.word
    exact ⟨_, hwrite, h.roomy, h.short, upward, _, hmade, hrest.withEntry guild _⟩

/-- What is read of a text is the snapshot it was written for, with the volume as it is read. -/
theorem load_text {guild : GuildId} {snapshot : PlayerSnapshot}
    (htext : text? guild = some snapshot.toJson.pretty) {volume : Single}
    (hvolume : snapshot.volume.toJson.single? = some volume) :
    storage.loadSnapshot guild = .ok (some { snapshot with volume }) := by
  have hread := h.read guild
  rw [htext] at hread
  simp only [loadSnapshot, hread, PlayerSnapshot.ofJson?_parse?_pretty_eq, hvolume,
    Option.map_some]

/-- With a volume that reads back it is the very snapshot. -/
theorem load {guild : GuildId} {snapshot : PlayerSnapshot}
    (htext : text? guild = some snapshot.toJson.pretty) (hvolume : snapshot.volume.ReadsBack) :
    storage.loadSnapshot guild = .ok (some snapshot) :=
  h.load_text htext (snapshot.volume.readsBack_iff.mp hvolume)

/-- A snapshot that is saved is there to load, if it has tracks. -/
theorem load_saved (guild : GuildId) {snapshot : PlayerSnapshot} {volume : Single}
    (hvolume : snapshot.volume.toJson.single? = some volume) :
    ∃ next, storage.saveSnapshot guild snapshot = (.ok (), next) ∧
      next.loadSnapshot guild =
        .ok (if snapshot.tracks.isEmpty then none else some { snapshot with volume }) := by
  obtain ⟨next, hsave, hnext⟩ := h.save guild snapshot
  refine ⟨next, hsave, ?_⟩
  have hkept := Function.update_self guild (keptText? snapshot) text?
  unfold keptText? at hkept hnext
  cases hempty : snapshot.tracks.isEmpty with
  | true =>
    rw [hempty, if_pos rfl] at hkept hnext
    have hread := hnext.read guild
    rw [hkept] at hread
    simp only [loadSnapshot, hread, if_true]
  | false =>
    rw [hempty, if_neg Bool.false_ne_true] at hkept hnext
    rw [hnext.load_text hkept hvolume, if_neg Bool.false_ne_true]

end HasTexts

end Jukebox.Storage
