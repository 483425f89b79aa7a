import Mathlib.Data.List.Induction
import Mathlib.Logic.Function.Basic
import Jukebox.Proofs.Storage.SnapshotFiles

/-!
Snapshots outlive the storage that wrote them. At all times their directory holds the last snapshot
of each guild, if it has tracks, in the file of the guild, and nothing else: what is written beside
a file takes its place at once. So whoever loads a snapshot gets the last one that was saved, before
and after a restart.
-/
namespace Jukebox

/-! ### What is done to snapshots, and what is to come of it -/

/-- One use of the snapshots. A restart opens the directory again, maybe with other defaults. -/
inductive SnapshotStep
  | save (guild : GuildId) (snapshot : PlayerSnapshot)
  | load (guild : GuildId)
  | list
  | restart (defaults : GuildLimits)

def SnapshotStep.saved? (guild : GuildId) : SnapshotStep → Option PlayerSnapshot
  | save other snapshot => if guild = other then some snapshot else none
  | _ => none

def lastSaved? (steps : List SnapshotStep) (guild : GuildId) : Option PlayerSnapshot :=
  steps.reverse.findSome? (·.saved? guild)

/-- A snapshot without tracks is not kept. -/
def PlayerSnapshot.worthKeeping (snapshot : PlayerSnapshot) : Bool := ! snapshot.tracks.isEmpty

def keptSnapshot? (steps : List SnapshotStep) (guild : GuildId) : Option PlayerSnapshot :=
  (lastSaved? steps guild).filter (·.worthKeeping)

theorem lastSaved?_concat (steps : List SnapshotStep) (step : SnapshotStep) (guild : GuildId) :
    lastSaved? (steps ++ [step]) guild = (step.saved? guild).or (lastSaved? steps guild) := by
  rw [lastSaved?, List.reverse_concat, List.findSome?_cons]
  cases step.saved? guild <;> rfl

theorem keptSnapshot?_save (steps : List SnapshotStep) (guild : GuildId)
    (snapshot : PlayerSnapshot) : keptSnapshot? (steps ++ [.save guild snapshot]) =
      Function.update (keptSnapshot? steps) guild
        (if snapshot.tracks.isEmpty then none else some snapshot) := by
  funext other
  rw [keptSnapshot?, lastSaved?_concat, SnapshotStep.saved?, Function.update_apply]
  by_cases hother : other = guild
  · rw [if_pos hother, if_pos hother, Option.some_or, Option.filter_some,
      PlayerSnapshot.worthKeeping]
    cases snapshot.tracks.isEmpty <;> rfl
  · rw [if_neg hother, if_neg hother, Option.none_or]
    rfl

/-- Only what is saved changes what there is to load. -/
theorem keptSnapshot?_of_not_save (steps : List SnapshotStep) {step : SnapshotStep}
    (h : ∀ guild, step.saved? guild = none) :
    keptSnapshot? (steps ++ [step]) = keptSnapshot? steps := by
  funext guild
  rw [keptSnapshot?, lastSaved?_concat, h, Option.none_or]
  rfl

namespace Storage

/-! ### The files of the snapshots -/

section Shelf

variable {entries : List (String × DiskEntry)} {kept? : GuildId → Option PlayerSnapshot}

/-- A directory holds what is kept, each snapshot in the file of its guild, and nothing else. -/
structure Shelf (entries : List (String × DiskEntry))
    (kept? : GuildId → Option PlayerSnapshot) : Prop where
  contents : ∀ guild, entries.lookup (fileName guild.word) =
    (kept? guild).map fun snapshot => .file snapshot.toJson.pretty
  names : ∀ name ∈ entries.map (·.1), ∃ guild : GuildId, name = fileName guild.word
  distinct : (entries.map (·.1)).Nodup

theorem Shelf.not_directory (h : Shelf entries kept?) (guild : GuildId) :
    ∀ inner, entries.lookup (fileName guild.word) ≠ some (.directory inner) :=
  DiskEntry.free_of_map (h.contents guild)

theorem Shelf.no_draft (h : Shelf entries kept?) (guild : UInt64) :
    entries.lookup (fileName guild ++ ".tmp") = none := by
  rw [← Option.not_isSome_iff_eq_none, ← Entries.mem_keys_iff]
  intro hmem
  obtain ⟨other, hname⟩ := h.names _ hmem
  exact fileName_ne_draft guild other.word hname.symm

theorem Shelf.withEntry (h : Shelf entries kept?) (guild : GuildId) (snapshot : PlayerSnapshot) :
    Shelf (DiskEntry.withEntry entries (fileName guild.word) (.file snapshot.toJson.pretty))
      (Function.update kept? guild (some snapshot)) where
  contents :=
    DiskEntry.contents_withEntry (fun _ _ => fileName_word_injective) h.contents guild snapshot
  names := DiskEntry.keyed_withEntry h.names guild _
  distinct := DiskEntry.nodup_withEntry h.distinct _ _

theorem Shelf.erase (h : Shelf entries kept?) (guild : GuildId) :
    Shelf (entries.filter (·.1 ≠ fileName guild.word)) (Function.update kept? guild none) where
  contents := DiskEntry.contents_filter (fun _ _ => fileName_word_injective) h.contents guild
  names := fun name hname => h.names name ((List.filter_sublist.map _).subset hname)
  distinct := Entries.nodup_filter h.distinct _

theorem Shelf.texts (h : Shelf entries kept?) :
    Texts entries fun guild => (kept? guild).map (·.toJson.pretty) where
  contents := by
    intro guild
    rw [h.contents, Option.map_map]
    rfl
  drafts := fun guild => DiskEntry.free_of_missing (h.no_draft guild.word)
  plain := by
    intro name hname guild hguild
    obtain ⟨other, rfl⟩ := h.names name hname
    rw [guildOfName?_fileName] at hguild
    rw [Option.some.inj hguild]
  distinct := h.distinct

end Shelf

/-! ### The disk under the snapshots -/

/-- The disk has the directories that a storage works in, and the one for snapshots holds what is
kept, each with a volume that reads back. -/
structure KeepsSnapshots (disk : Disk) (dataDir : Path)
    (kept? : GuildId → Option PlayerSnapshot) : Prop where
  roomy : Roomy dataDir
  drafts : ∀ guild, ((playersDir dataDir).join (fileName guild ++ ".tmp")).tooLong = false
  servers : ∃ spot, disk.walk (serversDir dataDir) = .ok spot ∧ spot.entry.isDirectory = true
  players : ∃ upward entries,
    disk.walk (playersDir dataDir) = .ok { upward, entry := .directory entries } ∧
      Shelf entries kept?
  readable : ∀ guild snapshot, kept? guild = some snapshot → snapshot.volume.ReadsBack

section Disk

variable {storage : Storage} {kept? : GuildId → Option PlayerSnapshot}
  (h : KeepsSnapshots storage.disk storage.dataDir kept?)

include h

/-- A change that keeps all directories and leaves in the directory for snapshots what is to be
kept there. -/
theorem KeepsSnapshots.change {made : Disk} (hmade : Disk.KeptBy storage.disk made)
    {later? : GuildId → Option PlayerSnapshot}
    (hplayers : ∃ upward entries,
      made.walk (playersDir storage.dataDir) = .ok { upward, entry := .directory entries } ∧
        Shelf entries later?)
    (hreadable : ∀ guild snapshot, later? guild = some snapshot → snapshot.volume.ReadsBack) :
    KeepsSnapshots made storage.dataDir later? :=
  ⟨h.roomy, h.drafts, hmade.walk_directory h.servers, hplayers, hreadable⟩

theorem KeepsSnapshots.hasTexts :
    storage.HasTexts fun guild => (kept? guild).map (·.toJson.pretty) := by
  obtain ⟨upward, entries, hwalk, hshelf⟩ := h.players
  exact ⟨h.roomy, h.drafts, upward, entries, hwalk, hshelf.texts⟩

theorem KeepsSnapshots.load (guild : GuildId) : storage.loadSnapshot guild = .ok (kept? guild) := by
  cases hkept : kept? guild with
  | none =>
    have hread := h.hasTexts.read guild
    rw [hkept] at hread
    simp only [loadSnapshot, hread, Option.map_none]
  | some snapshot =>
    have htext := congrArg (Option.map fun found : PlayerSnapshot => found.toJson.pretty) hkept
    exact h.hasTexts.load htext (h.readable guild snapshot hkept)

/-- The guilds that have a snapshot are those that one can be loaded for. -/
theorem KeepsSnapshots.list : ∃ guilds, storage.snapshotGuilds = .ok guilds ∧ guilds.Nodup ∧
    ∀ guild, guild ∈ guilds ↔ (kept? guild).isSome = true := by
  simpa only [Option.isSome_map] using h.hasTexts.list

theorem KeepsSnapshots.drop (guild : GuildId) :
    ∃ next, storage.dropSnapshot guild = (.ok (), next) ∧
      KeepsSnapshots next.disk next.dataDir (Function.update kept? guild none) := by
  obtain ⟨upward, entries, hwalk, hshelf⟩ := h.players
  obtain ⟨made, hdrop, hkept, hmade⟩ :=
    dropSnapshot_done h.roomy h.drafts hwalk (hshelf.not_directory guild)
  refine ⟨_, hdrop, h.change hkept ⟨upward, _, hmade, hshelf.erase guild⟩ ?_⟩
  intro other found hfound
  rw [Function.update_apply] at hfound
  split at hfound
  · cases hfound
  · exact h.readable other found hfound

theorem KeepsSnapshots.write (guild : GuildId) {snapshot : PlayerSnapshot}
    (hvolume : snapshot.volume.ReadsBack) :
    ∃ next, storage.writeSnapshot guild snapshot = (.ok (), next) ∧
      KeepsSnapshots next.disk next.dataDir (Function.update kept? guild (some snapshot)) := by
  obtain ⟨upward, entries, hwalk, hshelf⟩ := h.players
  have hnone := hshelf.no_draft guild.word
  obtain ⟨made, hwrite, hkept, hmade⟩ := writeSnapshot_done h.roomy h.drafts hwalk
    (hshelf.not_directory guild) (DiskEntry.free_of_missing hnone) snapshot
  rw [Entries.filter_ne_of_missing hnone] at hmade
  refine ⟨_, hwrite, h.change hkept ⟨upward, _, hmade, hshelf.withEntry guild snapshot⟩ ?_⟩
  intro other found hfound
  rw [Function.update_apply] at hfound
  split at hfound
  · cases hfound
    exact hvolume
  · exact h.readable other found hfound

theorem KeepsSnapshots.save (guild : GuildId) {snapshot : PlayerSnapshot}
    (hvolume : snapshot.volume.ReadsBack) :
    ∃ next, storage.saveSnapshot guild snapshot = (.ok (), next) ∧
      KeepsSnapshots next.disk next.dataDir (Function.update kept? guild
        (if snapshot.tracks.isEmpty then none else some snapshot)) := by
  unfold saveSnapshot
  split
  · exact h.drop guild
  · exact h.write guild hvolume

theorem KeepsSnapshots.restart (defaults : GuildLimits) :
    ∃ next, open? storage.disk storage.dataDir defaults = .ok next ∧
      KeepsSnapshots next.disk next.dataDir kept? := by
  obtain ⟨spot, hservers, hdirectory⟩ := h.servers
  obtain ⟨entries, hentries⟩ := (DiskEntry.isDirectory_iff _).mp hdirectory
  obtain ⟨upward, _, hplayers, -⟩ := h.players
  obtain ⟨hmakeServers, hmakePlayers⟩ :=
    makeDirectories_both h.roomy hservers hdirectory hplayers rfl
  obtain ⟨upwardServers, entry⟩ := spot
  obtain rfl : entry = .directory entries := hentries
  rw [serversDir_eq] at hservers
  have hguilds := guildFiles_eq hservers h.roomy.sound_serversDir isName_servers
  rw [← serversDir_eq] at hguilds
  obtain ⟨cache, hopen, -⟩ := open?_made hmakeServers hmakePlayers hguilds defaults
  exact ⟨_, hopen, h⟩

end Disk

/-- In an empty directory there is nothing to load. -/
theorem open?_empty_keepsSnapshots {disk : Disk} {dataDir : Path} {upward : List String}
    (hempty : disk.find (dataDir.join ".") = .ok { upward, entry := .directory [] })
    (hdrafts : ∀ guild, ((playersDir dataDir).join (fileName guild ++ ".tmp")).tooLong = false)
    (defaults : GuildLimits) :
    ∃ storage, open? disk dataDir defaults = .ok storage ∧
      KeepsSnapshots storage.disk storage.dataDir fun _ => none := by
  obtain ⟨hroomy, between, made, hservers, hplayers, hmadeServers, hmadePlayers⟩ :=
    makeDirectories_empty hempty (short_of_drafts hdrafts)
  rw [serversDir_eq] at hmadeServers
  have hguilds := guildFiles_eq hmadeServers hroomy.sound_serversDir isName_servers
  rw [← serversDir_eq] at hguilds hmadeServers
  obtain ⟨cache, hopen, -⟩ := open?_made hservers hplayers hguilds defaults
  exact ⟨_, hopen, hroomy, hdrafts, ⟨_, hmadeServers, rfl⟩,
    ⟨_, [], hmadePlayers, fun _ => rfl, List.forall_mem_nil _, List.nodup_nil⟩, nofun⟩

/-! ### Runs -/

def performSnapshot (storage : Storage) : SnapshotStep → Except StorageError Storage
  | .save guild snapshot => ifDone (storage.saveSnapshot guild snapshot)
  | .load guild => (storage.loadSnapshot guild).map fun _ => storage
  | .list => storage.snapshotGuilds.map fun _ => storage
  | .restart defaults => open? storage.disk storage.dataDir defaults

def runSnapshots (disk : Disk) (dataDir : Path) (defaults : GuildLimits)
    (steps : List SnapshotStep) : Except StorageError Storage := do
  steps.foldlM performSnapshot (← open? disk dataDir defaults)

theorem runSnapshots_concat (disk : Disk) (dataDir : Path) (defaults : GuildLimits)
    (steps : List SnapshotStep) (step : SnapshotStep) :
    runSnapshots disk dataDir defaults (steps ++ [step]) =
      (runSnapshots disk dataDir defaults steps).bind (performSnapshot · step) := by
  unfold runSnapshots
  cases open? disk dataDir defaults with
  | error error => rfl
  | ok storage =>
    change (steps ++ [step]).foldlM performSnapshot storage =
      (steps.foldlM performSnapshot storage).bind _
    rw [List.foldlM_append]
    refine bind_congr fun next => ?_
    rw [List.foldlM_cons]
    cases next.performSnapshot step <;> rfl

theorem KeepsSnapshots.perform {storage : Storage} {steps : List SnapshotStep}
    (h : KeepsSnapshots storage.disk storage.dataDir (keptSnapshot? steps)) {step : SnapshotStep}
    (hvolume : ∀ guild snapshot, step = .save guild snapshot → snapshot.volume.ReadsBack) :
    ∃ next, storage.performSnapshot step = .ok next ∧
      KeepsSnapshots next.disk next.dataDir (keptSnapshot? (steps ++ [step])) := by
  cases step with
  | save guild snapshot =>
    rw [keptSnapshot?_save]
    obtain ⟨next, hsave, hkeeps⟩ := h.save guild (hvolume guild snapshot rfl)
    exact ⟨next, by rw [performSnapshot, hsave]; rfl, hkeeps⟩
  | load guild =>
    rw [keptSnapshot?_of_not_save steps fun _ => rfl]
    exact ⟨storage, by rw [performSnapshot, h.load]; rfl, h⟩
  | list =>
    rw [keptSnapshot?_of_not_save steps fun _ => rfl]
    obtain ⟨guilds, hguilds, -⟩ := h.list
    exact ⟨storage, by rw [performSnapshot, hguilds]; rfl, h⟩
  | restart defaults =>
    rw [keptSnapshot?_of_not_save steps fun _ => rfl]
    exact h.restart defaults

/-- By induction on the end of the run: what is kept is decided by the steps before the last. -/
theorem runSnapshots_keeps {disk : Disk} {dataDir : Path} {upward : List String}
    (hempty : disk.find (dataDir.join ".") = .ok { upward, entry := .directory [] })
    (hdrafts : ∀ guild, ((playersDir dataDir).join (fileName guild ++ ".tmp")).tooLong = false)
    (defaults : GuildLimits) {steps : List SnapshotStep}
    (hvolume : ∀ guild snapshot, .save guild snapshot ∈ steps → snapshot.volume.ReadsBack) :
    ∃ storage, runSnapshots disk dataDir defaults steps = .ok storage ∧
      KeepsSnapshots storage.disk storage.dataDir (keptSnapshot? steps) := by
  induction steps using List.reverseRecOn with
  | nil =>
    obtain ⟨storage, hopen, hkeeps⟩ := open?_empty_keepsSnapshots hempty hdrafts defaults
    exact ⟨storage, by rw [runSnapshots, hopen]; rfl, hkeeps⟩
  | append_singleton steps step ih =>
    obtain ⟨storage, hrun, hkeeps⟩ := ih fun guild snapshot hmem =>
      hvolume guild snapshot (List.mem_append_left _ hmem)
    obtain ⟨next, hstep, hlater⟩ := hkeeps.perform fun guild snapshot heq =>
      hvolume guild snapshot (List.mem_append_right _ (List.mem_singleton.mpr heq.symm))
    refine ⟨next, ?_, hlater⟩
    rw [runSnapshots_concat, hrun]
    exact hstep

/-- From an empty directory every run succeeds. At its end there is to load for each guild what
was saved for it last, if that has tracks, and these are the guilds that are listed, each once. -/
theorem snapshots_last {disk : Disk} {dataDir : Path} {upward : List String}
    (hempty : disk.find (dataDir.join ".") = .ok { upward, entry := .directory [] })
    (hdrafts : ∀ guild, ((playersDir dataDir).join (fileName guild ++ ".tmp")).tooLong = false)
    (defaults : GuildLimits) {steps : List SnapshotStep}
    (hvolume : ∀ guild snapshot, .save guild snapshot ∈ steps → snapshot.volume.ReadsBack) :
    ∃ storage, runSnapshots disk dataDir defaults steps = .ok storage ∧
      (∀ guild, storage.loadSnapshot guild =
        .ok ((lastSaved? steps guild).filter (·.worthKeeping))) ∧
      ∃ guilds, storage.snapshotGuilds = .ok guilds ∧ guilds.Nodup ∧
        ∀ guild, guild ∈ guilds ↔
          ∃ snapshot, storage.loadSnapshot guild = .ok (some snapshot) := by
  obtain ⟨storage, hrun, hkeeps⟩ := runSnapshots_keeps hempty hdrafts defaults hvolume
  obtain ⟨guilds, hguilds, hnodup, hmem⟩ := hkeeps.list
  refine ⟨storage, hrun, hkeeps.load, guilds, hguilds, hnodup, fun guild => ?_⟩
  rw [hmem, Option.isSome_iff_exists, hkeeps.load]
  exact exists_congr fun snapshot => ⟨congrArg Except.ok, Except.ok.inj⟩

def sampleSnapshot : PlayerSnapshot where
  paused := true
  shuffled := false
  repeatMode := .single
  volume := ⟨0x3f333333⟩
  positionMillis := some 12000
  channelRef := some ⟨703, by decide⟩
  tracks := [{
    serializedPayload := "e30=", requesterId := ⟨701, by decide⟩
    startTime := none, endTime := some 9, title := "\"\\\n" }]

def firstGuild : GuildId := ⟨705, by decide⟩

def secondGuild : GuildId := ⟨706, by decide⟩

def emptiedGuild : List SnapshotStep :=
  [.save firstGuild sampleSnapshot, .save secondGuild sampleSnapshot, .list,
    .save firstGuild { sampleSnapshot with tracks := [] }, .restart {}]

theorem snapshots_last_emptiedGuild :
    blankDisk.find (Path.join ["", "data"] ".") =
      .ok { upward := ["data"], entry := .directory [] } ∧
    (∀ guild, ((playersDir ["", "data"]).join (fileName guild ++ ".tmp")).tooLong = false) ∧
    (∀ guild snapshot, .save guild snapshot ∈ emptiedGuild → snapshot.volume.ReadsBack) ∧
    ∃ storage, runSnapshots blankDisk ["", "data"] {} emptiedGuild = .ok storage ∧
      storage.loadSnapshot firstGuild = .ok none ∧
      storage.loadSnapshot secondGuild = .ok (some sampleSnapshot) ∧
      ∃ guilds, storage.snapshotGuilds = .ok guilds ∧ firstGuild ∉ guilds ∧
        secondGuild ∈ guilds := by
  have hplain : ".".contains '\x00' = false := by
    rw [String.contains_char_eq]
    decide
  have hsound : Path.Sound ["", "data", "."] :=
    @Path.sound_append ["", "data"] "." (by decide) roomy_data.unbroken hplain (by decide)
  have hempty : blankDisk.find (Path.join ["", "data"] ".") =
      .ok { upward := ["data"], entry := .directory [] } :=
    (@Disk.find_append blankDisk ["", "data"] "." hsound (by decide)).trans rfl
  have hdrafts := @short_draft_of_size ["", "data"] (by decide)
  have hreads : sampleSnapshot.volume.ReadsBack := by decide +kernel
  have hvolume : ∀ guild snapshot, .save guild snapshot ∈ emptiedGuild →
      snapshot.volume.ReadsBack := by
    intro guild snapshot hmem
    simp only [emptiedGuild, List.mem_cons, SnapshotStep.save.injEq, List.not_mem_nil,
      reduceCtorEq, or_false, false_or] at hmem
    obtain ⟨-, rfl⟩ | ⟨-, rfl⟩ | ⟨-, rfl⟩ := hmem <;> exact hreads
  obtain ⟨storage, hrun, hload, guilds, hguilds, -, hmem⟩ :=
    snapshots_last hempty hdrafts {} hvolume
  have hfirst : storage.loadSnapshot firstGuild = .ok none := hload firstGuild
  have hsecond : storage.loadSnapshot secondGuild = .ok (some sampleSnapshot) := hload secondGuild
  refine ⟨hempty, hdrafts, hvolume, storage, hrun, hfirst, hsecond, guilds, hguilds, ?_,
    (hmem _).mpr ⟨_, hsecond⟩⟩
  intro hlisted
  obtain ⟨snapshot, hsome⟩ := (hmem _).mp hlisted
  rw [hfirst] at hsome
  cases hsome

end Storage

end Jukebox
