import Jukebox.Proofs.Track.Codec
import Jukebox.Proofs.Player.Acts
import Jukebox.Proofs.Queue.Takes

/-!
A player that is restored from a snapshot saves the same snapshot again. Whatever the mode was when
the current track was taken, what is saved is its place in front of the others; restoring takes it
out first and, under repeat all, puts a copy behind the others, which the next snapshot leaves out.
-/
namespace Jukebox

structure AudioNode.Obliging (node : AudioNode) : Prop where
  failing : node.failing = []
  rejected : node.rejected = []
  outages : ∀ place command, node.outages place command = none

namespace AudioNode

variable {node : AudioNode}

theorem Obliging.refusal? (h : node.Obliging) (command : Command) :
    node.refusal? command = none := by
  have htitle : node.titleRefusal? command = none := by
    cases command <;> simp [titleRefusal?, h.rejected]
  simp [AudioNode.refusal?, htitle, h.failing, h.outages]

theorem Obliging.perform_eq (h : node.Obliging) (command : Command) :
    node.perform command = (.ok (), (node.carryOut command).record command true) := by
  simp only [perform, h.refusal?]

theorem Obliging.perform (h : node.Obliging) (command : Command) :
    (node.perform command).2.Obliging := by
  rw [h.perform_eq]
  cases command <;> exact ⟨h.failing, h.rejected, h.outages⟩

end AudioNode

/-- A valid volume lies within the bounds already. -/
theorem Player.clamp_of_valid {volume : Single} (h : Player.validVolume volume = true) :
    volume.clamp .zero maxVolume = volume := by
  simp only [validVolume, Single.le, Bool.and_eq_true, decide_eq_true_eq] at h
  have hlow : volume.lt .zero = false := by
    have hrank : ¬ volume.rank < Single.zero.rank := Int.not_lt.mpr h.1.2
    simp [Single.lt, hrank]
  have hhigh : maxVolume.lt volume = false := by
    have hrank : ¬ maxVolume.rank < volume.rank := Int.not_lt.mpr h.2.2
    simp [Single.lt, hrank]
  simp [Single.clamp, hlow, hhigh]

/-! ### What is saved -/

namespace Player

theorem savedTracks_idle {player : Player} (h : player.current = none) :
    player.savedTracks = player.queue.tracks := by
  simp [savedTracks, otherTracks, h]

/-- Keys and views are not saved. -/
theorem saved_of_queue {player later : Player} (hcurrent : later.current = player.current)
    (hmode : later.queue.repeatMode = player.queue.repeatMode)
    (hids : later.queue.ids = player.queue.ids)
    (htracks : later.queue.tracks.map SavedTrack.ofTrack =
      player.queue.tracks.map SavedTrack.ofTrack) :
    later.savedTracks.map SavedTrack.ofTrack = player.savedTracks.map SavedTrack.ofTrack := by
  have hothers : later.otherTracks.map SavedTrack.ofTrack =
      player.otherTracks.map SavedTrack.ofTrack := by
    unfold otherTracks
    rw [hcurrent, hmode, hids]
    cases player.current with
    | none => exact htracks
    | some track =>
      dsimp only
      split
      · split
        · rw [← List.eraseIdx_map, htracks, List.eraseIdx_map]
        · exact htracks
      · exact htracks
  rw [savedTracks, savedTracks, hcurrent, List.map_append, List.map_append, hothers]

end Player

theorem TrackQueue.lastPosition?_append_self (ids : List TrackId) (id : TrackId) :
    lastPosition? id (ids ++ [id]) = some ids.length := by
  induction ids with
  | nil => simp [lastPosition?]
  | cons head rest ih => simp [lastPosition?, ih]

theorem Player.otherTracks_once {player : Player} (hmode : player.queue.repeatMode ≠ .all) :
    player.otherTracks = player.queue.tracks := by
  simp only [otherTracks, if_neg hmode]
  split <;> rfl

/-- The copy that stands last is left out. -/
theorem Player.otherTracks_of_copy {player : Player} (hmode : player.queue.repeatMode = .all)
    {track copy : Track} (hcurrent : player.current = some track) (hid : copy.id = track.id)
    {rest : List Track} (hqueue : player.queue.tracks = rest ++ [copy]) :
    player.otherTracks = rest := by
  have hposition : TrackQueue.lastPosition? track.id player.queue.ids = some rest.length := by
    have hlast := TrackQueue.lastPosition?_append_self (rest.map (·.id)) track.id
    rw [List.length_map] at hlast
    rw [TrackQueue.ids, hqueue, List.map_append, List.map_singleton, hid, hlast]
  unfold otherTracks
  rw [hcurrent]
  simp only [if_pos hmode, hposition, hqueue]
  rw [List.eraseIdx_append_of_length_le (Nat.le_refl _), Nat.sub_self]
  simp

/-- In plain order, a take leaves the other tracks, and a copy of an ordinary track under repeat
all. -/
theorem TrackQueue.take_ordinary {queue : TrackQueue} (hshuffle : queue.shuffle = false)
    (hrotation : queue.roundRobin = false) (hsticky : queue.sticky? = none) {track : Track}
    {rest : List Track} (hqueue : queue.tracks = track :: rest)
    (hordinary : track.isPriority = false) :
    queue.take.1 = some track ∧ queue.take.2.tracks =
      rest ++ (if queue.repeatMode = .all then [track.fromStart] else []) := by
  have hkept : track.demote queue.dice = (track, queue.dice) := by
    simp [Track.demote, hordinary]
  rw [take_plain hshuffle hrotation hsticky hqueue]
  by_cases hmode : queue.repeatMode = .all
  · rw [takeAt_all hmode]
    simp [hkept, hqueue, hmode]
  · rw [takeAt_once hmode]
    simp [hqueue, hmode]

theorem TrackQueue.addAll_ordinary (queue : TrackQueue) {tracks : List Track}
    (h : ∀ track ∈ tracks, track.isPriority = false) (silent : Bool) :
    (queue.addAll tracks silent).tracks = queue.tracks ++ tracks := by
  have hsplit : tracks.partition (·.isPriority) = ([], tracks) := by
    rw [List.partition_eq_filter_filter, List.filter_eq_nil_iff.mpr, List.filter_eq_self.mpr]
    · intro track htrack
      simp [h track htrack]
    · intro track htrack
      simp [h track htrack]
  simp only [addAll, hsplit]
  cases silent <;> rfl

/-- What loading the first track leaves to be saved. -/
theorem Player.savedTracks_loading {player : Player} (hshuffle : player.queue.shuffle = false)
    (hrotation : player.queue.roundRobin = false) (hsticky : player.queue.sticky? = none)
    {track : Track} {rest : List Track} (hqueue : player.queue.tracks = track :: rest)
    (hordinary : track.isPriority = false) :
    (player.loading track).savedTracks = track.fromStart :: rest := by
  obtain ⟨-, hleft⟩ := TrackQueue.take_ordinary hshuffle hrotation hsticky hqueue hordinary
  have hkeeps := (TrackQueue.take_modes player.queue).1
  have hothers : (player.loading track).otherTracks = rest := by
    by_cases hmode : player.queue.repeatMode = .all
    · rw [if_pos hmode] at hleft
      exact otherTracks_of_copy (hkeeps.trans hmode) rfl rfl hleft
    · rw [if_neg hmode, List.append_nil] at hleft
      have hmode' : (player.loading track).queue.repeatMode ≠ .all := fun h =>
        hmode (hkeeps.symm.trans h)
      exact (otherTracks_once hmode').trans hleft
  rw [savedTracks, hothers]
  rfl

/-! ### The stages of restoring -/

namespace Session

open Operation

structure Ready (snapshot : PlayerSnapshot) (session : Session) : Prop where
  alive : session.player.destroyed = false
  idle : session.player.current = none
  paused : session.player.paused = snapshot.paused
  volume : session.player.volume = snapshot.volume
  repeatMode : session.player.queue.repeatMode = snapshot.repeatMode
  shuffle : session.player.queue.shuffle = false
  rotation : session.player.queue.roundRobin = false
  sticky : session.player.queue.sticky? = none
  renewed : SavedTrack.Renewed snapshot.tracks session.player.queue.tracks
  obliging : session.node.Obliging

structure Carries (snapshot : PlayerSnapshot) (session : Session) : Prop where
  paused : session.player.paused = snapshot.paused
  volume : session.player.volume = snapshot.volume
  repeatMode : session.player.queue.repeatMode = snapshot.repeatMode
  channel : session.node.channel = snapshot.channelRef
  tracks : session.player.savedTracks.map SavedTrack.ofTrack = snapshot.tracks

variable {snapshot : PlayerSnapshot} {session : Session}

theorem ready_takeOver {tracks : List Track}
    (htracks : snapshot.tracks = tracks.map SavedTrack.ofTrack)
    (hvolume : Player.validVolume snapshot.volume = true) (hnode : session.node.Obliging)
    (dice : Dice) (volume : Single) :
    (takeOver snapshot true (session.opening dice volume)).2.Ready snapshot := by
  have hrenewed := PlayerSnapshot.renewed_tracksFrom htracks session.services.catalogue.mint
  have hqueue : (takeOver snapshot true (session.opening dice volume)).2.player.queue.tracks =
      (snapshot.tracksFrom session.services.catalogue.mint).1 :=
    TrackQueue.addAll_ordinary _ hrenewed.ordinary true
  refine ⟨rfl, rfl, rfl, Player.clamp_of_valid hvolume, rfl, rfl, rfl, ?_, hqueue ▸ hrenewed, hnode⟩
  unfold TrackQueue.sticky?
  split <;> rfl

theorem takeOver_count {tracks : List Track}
    (htracks : snapshot.tracks = tracks.map SavedTrack.ofTrack) (volumeSupported : Bool)
    (session : Session) :
    (takeOver snapshot volumeSupported session).1 = snapshot.tracks.length := by
  have hrenewed := PlayerSnapshot.renewed_tracksFrom htracks session.services.catalogue.mint
  rw [← hrenewed.same, List.length_map]
  rfl

/-- A command that is carried out leaves the player ready. -/
theorem Ready.perform (h : session.Ready snapshot) (command : Command) :
    (session.perform command).2.Ready snapshot :=
  { h with obliging := h.obliging.perform command }

theorem Ready.carries (h : session.Ready snapshot)
    (hchannel : session.node.channel = snapshot.channelRef) : session.Carries snapshot where
  paused := h.paused
  volume := h.volume
  repeatMode := h.repeatMode
  channel := hchannel
  tracks := by
    rw [Player.savedTracks_idle h.idle]
    exact h.renewed.same

/-- A change of keys and views is not saved. -/
theorem Carries.of_queue {later : Session} (h : session.Carries snapshot)
    (change : TrackQueue → TrackQueue) (hplayer : later.player = session.player.setQueue change)
    (hchannel : later.node.channel = session.node.channel)
    (hmode : (change session.player.queue).repeatMode = session.player.queue.repeatMode)
    (hids : (change session.player.queue).ids = session.player.queue.ids)
    (htracks : (change session.player.queue).tracks.map SavedTrack.ofTrack =
      session.player.queue.tracks.map SavedTrack.ofTrack) : later.Carries snapshot := by
  have hqueue : later.player.queue = change session.player.queue := by rw [hplayer]; rfl
  have hcurrent : later.player.current = session.player.current := by rw [hplayer]; rfl
  refine ⟨?_, ?_, ?_, hchannel.trans h.channel, ?_⟩
  · rw [hplayer]
    exact h.paused
  · rw [hplayer]
    exact h.volume
  · rw [hqueue, hmode]
    exact h.repeatMode
  · rw [← h.tracks]
    exact Player.saved_of_queue hcurrent (hqueue ▸ hmode) (hqueue ▸ hids) (hqueue ▸ htracks)

theorem Carries.publish (h : session.Carries snapshot) : session.publish.Carries snapshot :=
  h.of_queue _ (publish_player session) rfl (TrackQueue.refresh_settings _).repeatMode
    (TrackQueue.ids_refresh _) (TrackQueue.refresh_map _ (fun _ _ => rfl) _)

theorem Carries.setShuffle (h : session.Carries snapshot) (on : Bool) :
    ((setShuffle on).run session).2.Carries snapshot ∧
      ((setShuffle on).run session).2.player.queue.shuffle = on := by
  have hchanged : (session.setPlayer (·.setQueue (·.setShuffle on))).Carries snapshot :=
    h.of_queue (·.setShuffle on) rfl rfl rfl rfl rfl
  have hrun : ((Session.setShuffle on).run session).2 =
      (session.setPlayer (·.setQueue (·.setShuffle on))).publish := rfl
  rw [hrun]
  refine ⟨hchanged.publish, ?_⟩
  rw [publish_player]
  exact (TrackQueue.refresh_settings _).shuffle

theorem run_join {channel : ChannelId} (halive : session.player.destroyed = false)
    (helsewhere : session.node.channel ≠ some channel) :
    ((join channel).run session).2 = (session.perform (.connect channel)).2 := by
  unfold join
  rw [run_bind, run_ensureAlive, halive]
  simp only [Bool.false_eq_true, if_false, run_bind, run_get, helsewhere, run_ask]

/-- An accepted track is saved in front of the others. -/
theorem Ready.accepted (h : session.Ready snapshot)
    (hchannel : session.node.channel = snapshot.channelRef) {track : Track}
    (hgiven : session.player.queue.take.1 = some track) (announce : Bool) :
    (session.accepted track announce).Carries snapshot := by
  obtain ⟨head, rest, hqueue⟩ :=
    List.exists_cons_of_ne_nil (TrackQueue.ne_nil_of_take h.sticky hgiven)
  have hordinary : head.isPriority = false :=
    h.renewed.ordinary head (hqueue ▸ List.mem_cons_self)
  obtain ⟨hfirst, -⟩ :=
    TrackQueue.take_ordinary h.shuffle h.rotation h.sticky hqueue hordinary
  obtain rfl : head = track := Option.some.inj (hfirst.symm.trans hgiven)
  have hsaved := Player.savedTracks_loading h.shuffle h.rotation h.sticky hqueue hordinary
  have hloaded : (((session.setPlayer (·.loading head)).perform head.playing).2.started
      head.fromStart announce).Carries snapshot := by
    refine ⟨?_, ?_, ?_, ?_, ?_⟩
    · rw [started_player]
      exact h.paused
    · rw [started_player]
      exact h.volume
    · rw [started_player]
      exact (TrackQueue.take_modes _).1.trans h.repeatMode
    · have hnode := h.obliging.perform_eq head.playing
      rw [started_node]
      exact (congrArg (·.2.channel) hnode).trans hchannel
    · rw [started_player]
      refine (congrArg (List.map SavedTrack.ofTrack) hsaved).trans ?_
      rw [← h.renewed.same, hqueue]
      rfl
  exact hloaded.publish

/-- An idle player that is not held back finds nothing to play, or its node accepts what it
takes. -/
theorem run_startIfIdle (halive : session.player.destroyed = false)
    (hidle : session.player.current = none) (hpaused : session.player.paused = false)
    (hnode : session.node.Obliging) :
    (session.player.queue.take.1 = none ∧
        ((startIfIdle true).run session).2 = (session.setPlayer Player.exhausted).publish) ∨
      ∃ track announce, session.player.queue.take.1 = some track ∧
        ((startIfIdle true).run session).2 = session.accepted track announce := by
  rw [startIfIdle, run_advance]
  rcases run_tryTracks true true session.player.queue.size none session with
    ⟨hdestroyed, -⟩ | ⟨hbusy, -⟩ | ⟨-, hempty, heq⟩ |
      ⟨-, track, announce, hgiven, ⟨-, heq⟩ | ⟨cause, hrefused, -⟩⟩
  · rw [halive] at hdestroyed
    cases hdestroyed
  · simp [hidle, hpaused] at hbusy
  · exact .inl ⟨hempty, by rw [heq]; rfl⟩
  · exact .inr ⟨track, announce, hgiven, by rw [heq]⟩
  · have hdone := congrArg Prod.fst (hnode.perform_eq track.playing)
    have hcontra : (Except.error cause : Answer) = .ok () := hrefused.symm.trans hdone
    cases hcontra

/-- Once started, the player saves what it took over, the track that plays in front. -/
theorem Ready.start (h : session.Ready snapshot)
    (hchannel : session.node.channel = snapshot.channelRef) (hpaused : snapshot.paused = false) :
    ((startIfIdle true).run session).2.Carries snapshot := by
  obtain ⟨hempty, heq⟩ | ⟨track, announce, hgiven, heq⟩ :=
    run_startIfIdle h.alive h.idle (h.paused.trans hpaused) h.obliging
  · have hplayer : (session.setPlayer Player.exhausted).player =
        session.player.setQueue TrackQueue.refresh := by
      simp only [setPlayer, Player.exhausted, TrackQueue.take_of_none hempty, Player.setQueue,
        ← h.idle]
    have hexhausted : (session.setPlayer Player.exhausted).Carries snapshot :=
      (h.carries hchannel).of_queue TrackQueue.refresh hplayer rfl
        (TrackQueue.refresh_settings _).repeatMode (TrackQueue.ids_refresh _)
        (TrackQueue.refresh_map _ (fun _ _ => rfl) _)
    rw [heq]
    exact hexhausted.publish
  · rw [heq]
    exact h.accepted hchannel hgiven announce

/-- The session in which a restored player may start: settings and tracks are taken over, the
channel is joined, and the node is told the volume. -/
def prepared (snapshot : PlayerSnapshot) (session : Session) : Session :=
  let taken := (takeOver snapshot true session).2
  let joined :=
    match snapshot.channelRef with
    | some channel => ((join channel).run taken).2
    | none => taken
  (joined.perform (.volume joined.player.volume)).2

/-- Restoring goes through its stages, whatever the node refuses. -/
theorem run_restore (snapshot : PlayerSnapshot) (session : Session) :
    (restore snapshot true).run session =
      (.ok (takeOver snapshot true session).1,
        ((setShuffle snapshot.shuffled).run
          (if snapshot.paused then session.prepared snapshot
            else ((startIfIdle true).run (session.prepared snapshot)).2)).2) := by
  unfold restore prepared
  rw [run_bind, run_use]
  cases snapshot.channelRef <;> cases snapshot.paused <;>
    simp only [run_bind, run_pure, run_get, run_ignoring, run_ask, if_true, Bool.not_false,
      Bool.not_true, Bool.false_eq_true, if_false] <;>
    rfl

theorem ready_prepared {tracks : List Track}
    (htracks : snapshot.tracks = tracks.map SavedTrack.ofTrack)
    (hvolume : Player.validVolume snapshot.volume = true) (hnode : session.node.Obliging)
    (hchannel : session.node.channel = none) (dice : Dice) (volume : Single) :
    ((session.opening dice volume).prepared snapshot).Ready snapshot ∧
      ((session.opening dice volume).prepared snapshot).node.channel = snapshot.channelRef := by
  have htaken := ready_takeOver htracks hvolume hnode dice volume
  have hnowhere : (takeOver snapshot true (session.opening dice volume)).2.node.channel = none :=
    hchannel
  unfold prepared
  generalize (takeOver snapshot true (session.opening dice volume)).2 = taken at htaken hnowhere
  cases snapshot.channelRef with
  | none =>
    have hsame := congrArg (·.2.channel) (htaken.obliging.perform_eq (.volume taken.player.volume))
    exact ⟨htaken.perform _, hsame.trans hnowhere⟩
  | some channel =>
    have helsewhere : taken.node.channel ≠ some channel := by simp [hnowhere]
    have hjoin := run_join htaken.alive helsewhere
    have hconnected := htaken.perform (.connect channel)
    dsimp only
    rw [hjoin]
    have hthere := congrArg (·.2.channel) (htaken.obliging.perform_eq (.connect channel))
    have hsame := congrArg (·.2.channel) (hconnected.obliging.perform_eq
      (.volume (taken.perform (.connect channel)).2.player.volume))
    exact ⟨hconnected.perform _, hsame.trans hthere⟩

/-- Restoring what a player saves, into a new player whose node does what it is asked, brings back
as many tracks as there were, and a player that saves the same again; only the position is the
node's. -/
theorem snapshot_restore (before session : Session) (dice : Dice) (volume : Single)
    (hvolume : Player.validVolume before.player.volume = true) (hnode : session.node.Obliging)
    (hchannel : session.node.channel = none) :
    ((restore before.snapshot true).run (session.opening dice volume)).1 =
        .ok before.snapshot.tracks.length ∧
      ((restore before.snapshot true).run (session.opening dice volume)).2.snapshot =
        { before.snapshot with
          positionMillis := ((restore before.snapshot true).run
            (session.opening dice volume)).2.snapshot.positionMillis } := by
  have htracks : before.snapshot.tracks = before.player.savedTracks.map SavedTrack.ofTrack := rfl
  have hvolume' : Player.validVolume before.snapshot.volume = true := hvolume
  have hshuffled : before.snapshot.shuffled = before.player.queue.shuffle := rfl
  obtain ⟨hready, hthere⟩ := ready_prepared htracks hvolume' hnode hchannel dice volume
  have hstarted : (if before.snapshot.paused then
        (session.opening dice volume).prepared before.snapshot
      else ((startIfIdle true).run
        ((session.opening dice volume).prepared before.snapshot)).2).Carries before.snapshot := by
    cases hpaused : before.snapshot.paused with
    | true => exact hready.carries hthere
    | false => exact hready.start hthere hpaused
  obtain ⟨hcarries, hshuffle⟩ := hstarted.setShuffle before.snapshot.shuffled
  rw [run_restore]
  refine ⟨congrArg Except.ok (takeOver_count htracks true _), ?_⟩
  generalize ((setShuffle before.snapshot.shuffled).run _).2 = later at hcarries hshuffle
  simp only [snapshot, PlayerSnapshot.mk.injEq]
  exact ⟨hcarries.paused, hshuffle, hcarries.repeatMode, hcarries.volume, trivial,
    hcarries.channel, hcarries.tracks⟩

def returningSteps : List PlayerStep :=
  [.member (.setRepeat .all),
    .member (.enqueueAll [sampleTrack 1 firstUser false, sampleTrack 2 secondUser false] .user),
    .member (.join ⟨5, by decide⟩), .member (.setPaused true), .member (.setRepeat .off),
    .member (.setShuffle true)]

theorem snapshot_restore_returning :
    let before := (sampleSession.opening (.ofSeed 1) maxVolume).afterAll returningSteps
    Player.validVolume before.player.volume = true ∧ sampleSession.node.Obliging ∧
      sampleSession.node.channel = none ∧ before.snapshot.tracks.length = 3 ∧
      ((restore before.snapshot true).run (sampleSession.opening (.ofSeed 2) .zero)).1 =
        .ok before.snapshot.tracks.length ∧
      ((restore before.snapshot true).run (sampleSession.opening (.ofSeed 2) .zero)).2.snapshot =
        { before.snapshot with
          positionMillis := ((restore before.snapshot true).run
            (sampleSession.opening (.ofSeed 2) .zero)).2.snapshot.positionMillis } := by
  intro before
  have hvolume : Player.validVolume before.player.volume = true := by decide
  have hnode : sampleSession.node.Obliging := ⟨rfl, rfl, fun _ _ => rfl⟩
  exact ⟨hvolume, hnode, rfl, by decide,
    snapshot_restore before sampleSession (.ofSeed 2) .zero hvolume hnode rfl⟩

end Session

end Jukebox
