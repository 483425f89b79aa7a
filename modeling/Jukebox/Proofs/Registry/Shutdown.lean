import Jukebox.Proofs.Queue.Run
import Jukebox.Proofs.Registry.Runs
import Jukebox.Proofs.Storage.Snapshots

/-!
What a shutdown leaves on disk. Every registered player has its snapshot there, or none if it held
no track, and a guild that never had a player keeps the file it had, which nobody has read.
-/
namespace Jukebox

theorem Player.savedTracks_eq_nil_iff (player : Player) :
    player.savedTracks = [] ↔ player.trackCount = 0 := by
  unfold savedTracks otherTracks trackCount TrackQueue.size
  cases player.current <;> simp

/-- A snapshot is kept if the player holds a track. -/
theorem Session.isSome_keptText?_snapshot (session : Session) :
    (Storage.keptText? session.snapshot).isSome = true ↔ 0 < session.player.trackCount := by
  have hempty : session.snapshot.tracks.isEmpty = true ↔ session.player.trackCount = 0 := by
    rw [List.isEmpty_iff, ← session.player.savedTracks_eq_nil_iff]
    exact List.map_eq_nil_iff
  rw [Nat.pos_iff_ne_zero, Ne, ← hempty, Storage.keptText?]
  cases session.snapshot.tracks.isEmpty <;> simp

namespace SnapshotStore

theorem load_disk (storage : Storage) (guild : GuildId) :
    (load guild (.disk storage)).2 = .disk storage := by
  unfold load
  dsimp only
  cases storage.loadSnapshot guild <;> rfl

/-- Where the directory for snapshots is in order, every save succeeds, and each guild has what was
saved of its session. -/
theorem saveAll_disk {storage : Storage} {text? : GuildId → Option String}
    (h : storage.HasTexts text?) {sessions : List Session}
    (hdistinct : (sessions.map (·.guild)).Nodup) :
    ∃ next later?, (disk storage).saveAll sessions =
        (List.replicate sessions.length .saved, disk next) ∧ next.HasTexts later? ∧
      (∀ session ∈ sessions, later? session.guild = Storage.keptText? session.snapshot) ∧
      ∀ guild ∉ sessions.map (·.guild), later? guild = text? guild := by
  induction sessions generalizing storage text? with
  | nil => exact ⟨storage, text?, rfl, h, List.forall_mem_nil _, fun _ _ => rfl⟩
  | cons session rest ih =>
    rw [List.map_cons, List.nodup_cons] at hdistinct
    obtain ⟨saved, hsave, hsaved⟩ := h.save session.guild session.snapshot
    obtain ⟨next, later?, hrest, hnext, hothers, hkept⟩ := ih hsaved hdistinct.2
    refine ⟨next, later?, ?_, hnext, ?_, ?_⟩
    · simp only [saveAll, save, hsave, hrest, List.length_cons, List.replicate_succ]
    · rintro other (_ | ⟨_, hother⟩)
      · rw [hkept _ hdistinct.1, Function.update_self]
      · exact hothers other hother
    · intro guild hguild
      rw [List.map_cons, List.mem_cons, not_or] at hguild
      rw [hkept guild hguild.2, Function.update_of_ne hguild.1]

end SnapshotStore

def RegistryStep.keepsStore : RegistryStep → Bool
  | .restock _ => false
  | _ => true

namespace Registry

variable {registry : Registry} {guild : GuildId} {number : Nat}

theorem Settled.guilds_live (h : registry.Settled) :
    (registry.live.map (·.2)).map (·.guild) = registry.roster.registered.map (·.1) := by
  have hguild : ∀ entry ∈ registry.roster.registered,
      (registry.session? entry.2).map (·.guild) = some entry.1 := by
    intro entry hentry
    obtain ⟨station, hstation, hown⟩ := h.own (Entries.lookup_of_mem h.distinct hentry)
    simp [session?, hstation, Station.session, hown]
  rw [live, List.map_map, List.map_filterMap, ← List.filterMap_eq_map]
  refine List.filterMap_congr fun entry hentry => ?_
  change Option.map _ (Option.map _ (registry.session? entry.2)) = some entry.1
  rw [Option.map_map]
  exact hguild entry hentry

theorem mem_live {session : Session} (hplayer : registry.playerOf? guild = some number)
    (hsession : registry.session? number = some session) :
    session ∈ registry.live.map (·.2) := by
  refine List.mem_map.mpr ⟨(number, session), ?_, rfl⟩
  refine List.mem_filterMap.mpr ⟨(guild, number), Entries.mem_of_lookup hplayer, ?_⟩
  simp [hsession]

/-- A shutdown saves every registered player, and no guild without one has its file changed. -/
theorem Settled.shutdown_disk (h : registry.Settled) {storage : Storage}
    {text? : GuildId → Option String} (hstore : registry.store = .disk storage)
    (htexts : storage.HasTexts text?) :
    ∃ next later?,
      registry.shutdown = (registry.totalCount, { registry with store := .disk next }) ∧
      next.HasTexts later? ∧
      (∀ {guild number session}, registry.playerOf? guild = some number →
        registry.session? number = some session →
          later? guild = Storage.keptText? session.snapshot) ∧
      ∀ {guild}, registry.playerOf? guild = none → later? guild = text? guild := by
  have hguilds := h.guilds_live
  have hdistinct : ((registry.live.map (·.2)).map (·.guild)).Nodup := hguilds ▸ h.distinct
  obtain ⟨next, later?, hsaved, hnext, hlive, hothers⟩ :=
    SnapshotStore.saveAll_disk htexts hdistinct
  have hcount : (registry.live.map (·.2)).length = registry.totalCount := by
    have hlength := congrArg List.length hguilds
    simpa only [List.length_map, totalCount] using hlength
  refine ⟨next, later?, ?_, hnext, ?_, ?_⟩
  · rw [shutdown_eq, hstore, hsaved, hcount, List.countP_replicate]
    simp
  · intro guild number session hplayer hsession
    obtain ⟨station, hstation, hown⟩ := h.own hplayer
    have hguild : session.guild = guild := by
      rw [session?, hstation] at hsession
      exact Option.some.inj hsession ▸ hown
    exact hguild ▸ hlive session (mem_live hplayer hsession)
  · intro guild hvacant
    refine hothers guild ?_
    rw [hguilds, Entries.mem_keys_iff]
    rw [show registry.roster.registered.lookup guild = none from hvacant]
    exact Bool.false_ne_true

theorem store_after_player (registry : Registry) (number : Nat) (step : PlayerStep) :
    (registry.after (.player number step)).store = registry.store := by
  rw [after_player]
  cases registry.session? number <;> rfl

/-- No step changes the file of a guild that has no player. -/
theorem Settled.texts_after (h : registry.Settled) {storage : Storage}
    {text? : GuildId → Option String} (hstore : registry.store = .disk storage)
    (htexts : storage.HasTexts text?) {step : RegistryStep} (hstep : step.keepsStore = true) :
    ∃ next later?, (registry.after step).store = .disk next ∧ next.HasTexts later? ∧
      ∀ guild, registry.playerOf? guild = none → later? guild = text? guild := by
  have hsame {later : Registry} (hlater : later.store = registry.store) :
      ∃ next later?, later.store = .disk next ∧ next.HasTexts later? ∧
        ∀ guild, registry.playerOf? guild = none → later? guild = text? guild :=
    ⟨storage, text?, hlater.trans hstore, htexts, fun _ _ => rfl⟩
  cases step with
  | getOrCreate guild =>
    refine hsame ?_
    change (registry.getOrCreate guild).2.store = registry.store
    cases hplayer : registry.playerOf? guild with
    | some number => rw [getOrCreate_of_registered hplayer h.idle]
    | none =>
      obtain ⟨constructions, hcreate⟩ := getOrCreate_of_vacant hplayer h.idle
      rw [hcreate]
      change (registry.store.load guild).2 = registry.store
      rw [hstore, SnapshotStore.load_disk]
  | destroyPlayer guild =>
    refine hsame ?_
    rw [after_destroyPlayer]
    cases registry.playerOf? guild with
    | none => rfl
    | some number => exact store_after_player _ number .destroy
  | trackEnded guild reason =>
    refine hsame ?_
    rw [after_trackEnded]
    cases registry.playerOf? guild with
    | none => rfl
    | some number => exact store_after_player _ number _
  | shutdown =>
    obtain ⟨next, later?, hshutdown, hnext, -, hothers⟩ := h.shutdown_disk hstore htexts
    refine ⟨next, later?, ?_, hnext, fun guild => hothers⟩
    change registry.shutdown.2.store = _
    rw [hshutdown]
  | player number step => exact hsame (store_after_player registry number step)
  | restock store => cases hstep
  | equip | refit => exact hsame rfl

/-- A guild that has no player at any time of a run keeps its file. -/
theorem Settled.texts_afterAll (h : registry.Settled) {storage : Storage}
    {text? : GuildId → Option String} (hstore : registry.store = .disk storage)
    (htexts : storage.HasTexts text?) {steps : List RegistryStep}
    (hsteps : ∀ step ∈ steps, step.keepsStore = true) :
    ∃ next later?, (registry.afterAll steps).store = .disk next ∧ next.HasTexts later? ∧
      ∀ guild, (∀ done, done <+: steps → (registry.afterAll done).playerOf? guild = none) →
        later? guild = text? guild := by
  induction steps generalizing registry storage text? with
  | nil => exact ⟨storage, text?, hstore, htexts, fun _ _ => rfl⟩
  | cons step rest ih =>
    obtain ⟨middle, middle?, hmiddle, hmiddleTexts, hfirst⟩ :=
      h.texts_after hstore htexts (hsteps step List.mem_cons_self)
    obtain ⟨next, later?, hnext, hnextTexts, hrest⟩ := ih (h.after step) hmiddle hmiddleTexts
      fun later hlater => hsteps later (List.mem_cons_of_mem step hlater)
    refine ⟨next, later?, hnext, hnextTexts, fun guild hnever => ?_⟩
    have hlater := hrest guild fun done hdone =>
      hnever (step :: done) (List.prefix_cons_inj step |>.mpr hdone)
    exact hlater.trans (hfirst guild (hnever [] List.nil_prefix))

/-- A storage has the snapshot of a session, or lists none for its guild if it holds no track. -/
structure SavedIn (saved : Storage) (guilds : List GuildId) (guild : GuildId)
    (session : Session) : Prop where
  listed : guild ∈ guilds ↔ 0 < session.player.trackCount
  text : guild ∈ guilds →
    saved.disk.read (saved.playerFile guild) = .ok session.snapshot.toJson.pretty
  loaded : guild ∈ guilds → session.player.volume.ReadsBack →
    saved.loadSnapshot guild = .ok (some session.snapshot)

theorem savedIn_of_text {saved : Storage} {text? : GuildId → Option String}
    (h : saved.HasTexts text?) {guilds : List GuildId}
    (hguilds : ∀ guild, guild ∈ guilds ↔ (text? guild).isSome = true) {session : Session}
    (htext : text? guild = Storage.keptText? session.snapshot) :
    SavedIn saved guilds guild session := by
  have hlisted : guild ∈ guilds ↔ 0 < session.player.trackCount := by
    rw [hguilds, htext, session.isSome_keptText?_snapshot]
  have hkept : guild ∈ guilds → text? guild = some session.snapshot.toJson.pretty := by
    intro hmem
    rw [hguilds, htext] at hmem
    rw [htext]
    unfold Storage.keptText? at hmem ⊢
    split
    · next hempty =>
      rw [if_pos hempty] at hmem
      cases hmem
    · rfl
  refine ⟨hlisted, fun hmem => ?_, fun hmem hvolume => h.load (hkept hmem) hvolume⟩
  have hread := h.read guild
  rwa [hkept hmem] at hread

/-- After any run over a directory of snapshots a shutdown saves every player. A guild that has a
player then is listed just if the player holds a track, and with its snapshot; a guild that never
had one is listed just if it had a file at the start, and with that file. -/
theorem saved_by_shutdown {storage : Storage} (hroster : registry.roster = {})
    (hstore : registry.store = .disk storage) {upward : List String}
    {entries : List (String × DiskEntry)}
    (hplayers : storage.disk.find (Storage.playersDir storage.dataDir) =
      .ok { upward, entry := .directory entries })
    (hshort : ∀ guild, ((Storage.playersDir storage.dataDir).join
      (Storage.fileName guild ++ ".tmp")).tooLong = false)
    {text? : GuildId → Option String} (htexts : Storage.Texts entries text?)
    {steps : List RegistryStep} (hsteps : ∀ step ∈ steps, step.keepsStore = true) :
    ∃ saved guilds, (registry.afterAll steps).shutdown.2.store = .disk saved ∧
      (registry.afterAll steps).shutdown.1 = (registry.afterAll steps).totalCount ∧
      saved.snapshotGuilds = .ok guilds ∧ guilds.Nodup ∧
      (∀ guild number session, (registry.afterAll steps).playerOf? guild = some number →
        (registry.afterAll steps).session? number = some session →
          SavedIn saved guilds guild session) ∧
      ∀ guild, (∀ done, done <+: steps → (registry.afterAll done).playerOf? guild = none) →
        (guild ∈ guilds ↔ (text? guild).isSome = true) ∧
          saved.disk.read (saved.playerFile guild) =
            storage.disk.read (storage.playerFile guild) := by
  have hsettled : registry.Settled := .empty hroster
  have hstart := Storage.HasTexts.of_find hplayers hshort htexts
  obtain ⟨middle, middle?, hmiddle, hmiddleTexts, hnever⟩ :=
    hsettled.texts_afterAll hstore hstart hsteps
  obtain ⟨saved, saved?, hshutdown, hsaved, hlive, hothers⟩ :=
    (hsettled.afterAll steps).shutdown_disk hmiddle hmiddleTexts
  obtain ⟨guilds, hguilds, hnodup, hmem⟩ := hsaved.list
  refine ⟨saved, guilds, by rw [hshutdown], by rw [hshutdown], hguilds, hnodup, ?_, ?_⟩
  · intro guild number session hplayer hsession
    exact savedIn_of_text hsaved hmem (hlive hplayer hsession)
  · intro guild hguild
    have htext : saved? guild = text? guild :=
      (hothers (hguild steps (List.prefix_refl steps))).trans (hnever guild hguild)
    rw [hmem, htext]
    exact ⟨.rfl, by rw [hsaved.read, hstart.read, htext]⟩

def leftFiles : List (String × DiskEntry) :=
  DiskEntry.withEntry [] (Storage.fileName Storage.firstGuild.word)
    (.file Storage.sampleSnapshot.toJson.pretty)

def leftStorage : Storage where
  disk := { root := .directory [("data", .directory [("players", .directory leftFiles)])] }
  dataDir := ["", "data"]
  defaults := {}

theorem find_leftStorage :
    leftStorage.disk.find (Storage.playersDir leftStorage.dataDir) =
      .ok { upward := ["players", "data"], entry := .directory leftFiles } :=
  (Disk.find_append Storage.roomy_data.sound_playersDir Storage.isName_players.ne_empty).trans rfl

theorem texts_leftFiles : Storage.Texts leftFiles
    (Function.update (fun _ => none) Storage.firstGuild
      (some Storage.sampleSnapshot.toJson.pretty)) :=
  Storage.Texts.empty.withEntry Storage.firstGuild _

def playedOn : List RegistryStep :=
  [.getOrCreate Storage.secondGuild,
    .player 0 (.member (.enqueue (sampleTrack 1 firstUser false) .user)),
    .destroyPlayer Storage.secondGuild, .getOrCreate sampleSession.guild,
    .player 1 (.member (.enqueue (sampleTrack 2 firstUser false) .user))]

theorem saved_by_shutdown_playedOn :
    (∀ guild, ((Storage.playersDir ["", "data"]).join
      (Storage.fileName guild ++ ".tmp")).tooLong = false) ∧
    (∀ step ∈ playedOn, step.keepsStore = true) ∧
    ∃ saved guilds,
      ((sampleRegistry (.disk leftStorage)).afterAll playedOn).shutdown.2.store = .disk saved ∧
      saved.snapshotGuilds = .ok guilds ∧
      ∀ number session,
        ((sampleRegistry (.disk leftStorage)).afterAll playedOn).playerOf? sampleSession.guild =
          some number →
        ((sampleRegistry (.disk leftStorage)).afterAll playedOn).session? number = some session →
          SavedIn saved guilds sampleSession.guild session := by
  have hshort := @Storage.short_draft_of_size ["", "data"] (by decide)
  have hsteps : ∀ step ∈ playedOn, step.keepsStore = true := by decide
  obtain ⟨saved, guilds, hsaved, -, hguilds, -, hlive, -⟩ :=
    @saved_by_shutdown (sampleRegistry (.disk leftStorage)) _ rfl rfl _ _ find_leftStorage hshort
      _ texts_leftFiles _ hsteps
  exact ⟨hshort, hsteps, saved, guilds, hsaved, hguilds, hlive sampleSession.guild⟩

/-- A guild that has no player when a registry is shut down is listed all the same if it had a
snapshot before. -/
theorem unused_snapshot_listed : ∃ saved guilds,
    (sampleRegistry (.disk leftStorage)).shutdown.2.store = .disk saved ∧
      saved.snapshotGuilds = .ok guilds ∧
      ¬ ∀ guild, guild ∈ guilds ↔ ∃ number session,
        (sampleRegistry (.disk leftStorage)).playerOf? guild = some number ∧
          (sampleRegistry (.disk leftStorage)).session? number = some session ∧
            0 < session.player.trackCount := by
  have hshort := @Storage.short_draft_of_size ["", "data"] (by decide)
  have hsettled : (sampleRegistry (.disk leftStorage)).Settled := .empty rfl
  obtain ⟨saved, saved?, hshutdown, hsaved, -, hothers⟩ := hsettled.shutdown_disk rfl
    (Storage.HasTexts.of_find find_leftStorage hshort texts_leftFiles)
  obtain ⟨guilds, hguilds, -, hmem⟩ := hsaved.list
  refine ⟨saved, guilds, by rw [hshutdown], hguilds, fun hplayers => ?_⟩
  have hlisted : Storage.firstGuild ∈ guilds := by
    rw [hmem, hothers rfl, Function.update_self]
    rfl
  obtain ⟨number, session, hplayer, -⟩ := (hplayers Storage.firstGuild).mp hlisted
  cases hplayer

end Registry

end Jukebox
