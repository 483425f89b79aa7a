import Jukebox.Proofs.Player.NowPlaying
import Jukebox.Proofs.Player.SnapshotRoundTrip

/-!
Where a restored player goes on. A player that was playing plays its first track from the saved
position as soon as it is restored, and so it saves that position again, restart after restart. A
player that was paused has no current track until it is told to go on; if it is saved before that,
the position is gone.
-/
namespace Jukebox

/-! ### The tracks that a snapshot gives back -/

namespace SavedTrack

/-- A saved track that can be read comes back with the next id, and with neither priority nor a
position. -/
theorem restoreAll_cons (first : SavedTrack) (rest : List SavedTrack) (mint : Mint) :
    (restoreAll (first :: rest) mint).1 = none :: (restoreAll rest mint).1 ∨
      ∃ track later, track.id.word = mint.next ∧ track.isPriority = false ∧
        track.resumeAt = none ∧ later.next = mint.next + 1 ∧
        (restoreAll (first :: rest) mint).1 = some track :: (restoreAll rest later).1 := by
  rw [restoreAll]
  cases hdecode : Audio.decode first.serializedPayload with
  | error cause =>
    have hrestore : first.restore mint = (.error cause, mint) := by simp only [restore, hdecode]
    rw [hrestore]
    exact .inl rfl
  | ok audio =>
    have hrestore : first.restore mint =
        (.ok { (mint.request audio first.requesterId).1 with chapter := first.chapter? },
          (mint.request audio first.requesterId).2) := by simp only [restore, hdecode]
    rw [hrestore]
    exact .inr ⟨_, _, rfl, rfl, rfl, rfl, rfl⟩

/-- Whatever comes back has neither priority nor a position, and the ids are given out in order. -/
theorem of_mem_restoreAll {saved : List SavedTrack} {mint : Mint} {track : Track}
    (h : some track ∈ (restoreAll saved mint).1) :
    track.isPriority = false ∧ track.resumeAt = none ∧
      ∃ place < saved.length, track.id.word = mint.next + UInt64.ofNat place := by
  induction saved generalizing mint with
  | nil => cases h
  | cons first rest ih =>
    rcases restoreAll_cons first rest mint with
      heq | ⟨head, later, hid, hpriority, hresume, hnext, heq⟩
    · rw [heq] at h
      obtain ⟨hordinary, hnone, place, hplace, hword⟩ :=
        ih ((List.mem_cons.mp h).resolve_left nofun)
      exact ⟨hordinary, hnone, place, Nat.lt_succ_of_lt hplace, hword⟩
    · rw [heq] at h
      rcases List.mem_cons.mp h with hfirst | hrest
      · cases hfirst
        exact ⟨hpriority, hresume, 0, Nat.zero_lt_succ _, hid.trans (UInt64.add_zero _).symm⟩
      · obtain ⟨hordinary, hnone, place, hplace, hword⟩ := ih hrest
        refine ⟨hordinary, hnone, place + 1, Nat.succ_lt_succ hplace, hword.trans ?_⟩
        rw [hnext, UInt64.ofNat_add, UInt64.add_assoc, UInt64.add_comm 1]
        rfl

end SavedTrack

namespace PlayerSnapshot

variable {snapshot : PlayerSnapshot}

/-- A restored track has no priority. -/
theorem isPriority_of_mem_tracksFrom {mint : Mint} {track : Track}
    (h : track ∈ (snapshot.tracksFrom mint).1) : track.isPriority = false := by
  have hsome : some track ∈ SavedTrack.resumeFirst snapshot.positionMillis
      (SavedTrack.restoreAll snapshot.tracks mint).1 := by
    obtain ⟨found, hfound, rfl⟩ := List.mem_filterMap.mp h
    exact hfound
  have hall {track : Track} (h : some track ∈ (SavedTrack.restoreAll snapshot.tracks mint).1) :
      track.isPriority = false := (SavedTrack.of_mem_restoreAll h).1
  unfold SavedTrack.resumeFirst at hsome
  split at hsome
  · next first rest heq =>
    rw [heq] at hall
    rcases List.mem_cons.mp hsome with hfirst | hrest
    · have hkept : track.isPriority = first.isPriority := by
        cases hposition : snapshot.positionMillis <;> simp only [hposition] at hfirst <;>
          cases hfirst <;> rfl
      rw [hkept]
      exact hall List.mem_cons_self
    · exact hall (List.mem_cons_of_mem _ hrest)
  · exact hall hsome

structure Leads (snapshot : PlayerSnapshot) (audio : Audio) (position : Millis) : Prop where
  first : ∃ saved rest, snapshot.tracks = saved :: rest ∧
    Audio.decode saved.serializedPayload = .ok audio
  position : snapshot.positionMillis = some position

/-- The first track comes back first and is to start where it was. -/
theorem Leads.tracksFrom {audio : Audio} {position : Millis} (h : snapshot.Leads audio position)
    (mint : Mint) : ∃ track rest, (snapshot.tracksFrom mint).1 = track :: rest ∧
      track.audio = audio ∧ track.playStart = position := by
  obtain ⟨saved, others, htracks, hdecode⟩ := h.first
  let track := { (mint.request audio saved.requesterId).1 with chapter := saved.chapter? }
  have hrestore : saved.restore mint = (.ok track, (mint.request audio saved.requesterId).2) := by
    simp only [SavedTrack.restore, hdecode, track]
  have hfirst : (snapshot.tracksFrom mint).1 = track.resumingAt position ::
      (SavedTrack.restoreAll others (mint.request audio saved.requesterId).2).1.filterMap id := by
    unfold PlayerSnapshot.tracksFrom
    rw [htracks, h.position, SavedTrack.restoreAll, hrestore]
    rfl
  exact ⟨_, _, hfirst, rfl, rfl⟩

end PlayerSnapshot

/-! ### Ready to start -/

/-- A player with these tracks before it, in plain order, that has nothing to play yet. -/
structure Player.Poised (player : Player) (tracks : List Track) : Prop where
  alive : player.destroyed = false
  idle : player.current = none
  shuffle : player.queue.shuffle = false
  rotation : player.queue.roundRobin = false
  sticky : player.queue.sticky? = none
  queue : player.queue.tracks = tracks
  ordinary : ∀ track ∈ tracks, track.isPriority = false

namespace Session

open Operation

theorem poised_takeOver (snapshot : PlayerSnapshot) (volumeSupported : Bool) (session : Session)
    (dice : Dice) (volume : Single) :
    (takeOver snapshot volumeSupported (session.opening dice volume)).2.player.Poised
      (snapshot.tracksFrom session.services.catalogue.mint).1 where
  alive := rfl
  idle := rfl
  shuffle := rfl
  rotation := rfl
  sticky := by
    unfold TrackQueue.sticky?
    split <;> rfl
  queue := TrackQueue.addAll_ordinary _
    (fun _ htrack => PlayerSnapshot.isPriority_of_mem_tracksFrom htrack) true
  ordinary := fun _ htrack => PlayerSnapshot.isPriority_of_mem_tracksFrom htrack

theorem run_join_player (channel : ChannelId) (session : Session) :
    ((join channel).run session).2.player = session.player := by
  unfold join
  rw [run_bind, run_ensureAlive]
  cases session.player.destroyed with
  | true => rfl
  | false =>
    simp only [Bool.false_eq_true, if_false, run_bind, run_get]
    split
    · rfl
    · rw [run_ask]
      rfl

theorem obliging_join (channel : ChannelId) {session : Session} (h : session.node.Obliging) :
    ((join channel).run session).2.node.Obliging := by
  unfold join
  rw [run_bind, run_ensureAlive]
  cases session.player.destroyed with
  | true => exact h
  | false =>
    simp only [Bool.false_eq_true, if_false, run_bind, run_get]
    split
    · exact h
    · rw [run_ask]
      exact h.perform _

/-- Joining a channel and telling the node the volume leave the player alone. -/
theorem prepared_player (snapshot : PlayerSnapshot) (session : Session) :
    (session.prepared snapshot).player = (takeOver snapshot true session).2.player := by
  unfold prepared
  cases snapshot.channelRef with
  | none => rfl
  | some channel => exact run_join_player channel _

theorem obliging_prepared (snapshot : PlayerSnapshot) {session : Session}
    (h : session.node.Obliging) : (session.prepared snapshot).node.Obliging := by
  have htaken : (takeOver snapshot true session).2.node.Obliging := h
  unfold prepared
  cases snapshot.channelRef with
  | none => exact htaken.perform _
  | some channel => exact (obliging_join channel htaken).perform _

theorem poised_prepared (snapshot : PlayerSnapshot) (session : Session) (dice : Dice)
    (volume : Single) :
    ((session.opening dice volume).prepared snapshot).player.Poised
      (snapshot.tracksFrom session.services.catalogue.mint).1 := by
  rw [prepared_player]
  exact poised_takeOver snapshot true session dice volume

/-- A player that is ready and not held back starts its first track. -/
theorem run_startIfIdle_poised {session : Session} {track : Track} {rest : List Track}
    (h : session.player.Poised (track :: rest)) (hpaused : session.player.paused = false)
    (hnode : session.node.Obliging) :
    ∃ announce, ((startIfIdle true).run session).2 = session.accepted track announce := by
  obtain ⟨hfirst, -⟩ := TrackQueue.take_ordinary h.shuffle h.rotation h.sticky h.queue
    (h.ordinary track List.mem_cons_self)
  obtain ⟨hempty, -⟩ | ⟨given, announce, hgiven, heq⟩ :=
    run_startIfIdle h.alive h.idle hpaused hnode
  · rw [hfirst] at hempty
    cases hempty
  · obtain rfl : track = given := Option.some.inj (hfirst.symm.trans hgiven)
    exact ⟨announce, heq⟩

theorem accepted_node (session : Session) (track : Track) (announce : Bool) :
    (session.accepted track announce).node = (session.node.perform track.playing).2 := by
  rw [accepted]
  exact started_node _ _ _

theorem accepted_player (session : Session) (track : Track) (announce : Bool) :
    (session.accepted track announce).player =
      (session.player.loading track).setQueue TrackQueue.refresh := by
  rw [accepted, publish_player, started_player]
  rfl

end Session

/-! ### Playing on -/

/-- Of what makes a node play something else or nothing, a play of this audio from this position
was asked for last, and it was accepted. -/
def ToldFrom (log : List Asked) (audio : Audio) (start : Millis) : Prop :=
  ∃ stop, (log.filter (·.supersedes)).getLast? =
    some { command := .play audio start stop, done := true }

theorem ToldFrom.append {log : List Asked} {audio : Audio} {start : Millis}
    (h : ToldFrom log audio start) {asked : Asked} (hasked : asked.supersedes = false) :
    ToldFrom (log ++ [asked]) audio start := by
  obtain ⟨stop, hlast⟩ := h
  exact ⟨stop, by simpa [List.filter_append, hasked] using hlast⟩

theorem toldFrom_played (log : List Asked) (track : Track) :
    ToldFrom (log ++ [{ command := track.playing, done := true }]) track.audio track.playStart :=
  ⟨track.endPosition?, by simp [List.filter_append, Track.playing, Asked.supersedes]⟩

namespace Session

open Operation

def GoesOnFrom (session : Session) (audio : Audio) (position : Millis) : Prop :=
  ToldFrom ((setPaused false).run session).2.node.log audio position

/-- The player plays this audio, and the node, which was told to play it from this position, has
not moved on. -/
structure PlaysFrom (session : Session) (audio : Audio) (position : Millis) : Prop where
  alive : session.player.destroyed = false
  unpaused : session.player.paused = false
  current : ∃ track, session.player.current = some track ∧ track.audio = audio
  stands : session.node.position = position
  told : ToldFrom session.node.log audio position

variable {session : Session} {audio : Audio} {position : Millis}

theorem PlaysFrom.accepted {track : Track} {announce : Bool}
    (halive : session.player.destroyed = false)
    (hpaused : session.player.paused = false) (hnode : session.node.Obliging) :
    (session.accepted track announce).PlaysFrom track.audio track.playStart := by
  have hplayed : (session.accepted track announce).node =
      (session.node.carryOut track.playing).record track.playing true := by
    rw [accepted_node, hnode.perform_eq]
  refine ⟨?_, ?_, ⟨track.fromStart, current_accepted _ _ _, rfl⟩, ?_, ?_⟩
  · rw [accepted_player]
    exact halive
  · rw [accepted_player]
    exact hpaused
  · rw [hplayed]
    rfl
  · rw [hplayed]
    exact toldFrom_played session.node.log track

/-- A change of the settings of the queue does not touch what plays. -/
theorem PlaysFrom.setQueue (h : session.PlaysFrom audio position) (f : TrackQueue → TrackQueue) :
    ((Session.setQueue f).run session).2.PlaysFrom audio position := by
  have hplayer : ((Session.setQueue f).run session).2.player =
      (session.player.setQueue f).setQueue TrackQueue.refresh := publish_player _
  refine ⟨?_, ?_, ?_, h.stands, h.told⟩
  · rw [hplayer]
    exact h.alive
  · rw [hplayer]
    exact h.unpaused
  · rw [hplayer]
    exact h.current

/-- What a player saves while it plays. -/
theorem PlaysFrom.leads (h : session.PlaysFrom audio position) :
    session.snapshot.Leads audio position := by
  obtain ⟨track, hcurrent, rfl⟩ := h.current
  refine ⟨⟨.ofTrack track, session.player.otherTracks.map .ofTrack, ?_,
    Audio.decode_encode track.audio⟩, ?_⟩
  · simp only [snapshot, Player.savedTracks, hcurrent]
    rfl
  · simp only [snapshot, hcurrent, h.stands]
    rfl

/-- A player that plays is told to go on in vain. -/
theorem PlaysFrom.goesOnFrom (h : session.PlaysFrom audio position) :
    session.GoesOnFrom audio position := by
  obtain ⟨track, hcurrent, -⟩ := h.current
  have hlog : ((setPaused false).run session).2.node.log = session.node.log ++
      [{ command := .pause false, done := (session.node.refusal? (.pause false)).isNone }] := by
    rw [← AudioNode.log_perform]
    unfold setPaused
    rw [run_bind, run_ensureAlive, h.alive]
    simp only [Bool.false_eq_true, if_false, run_bind, run_use, run_ask, withPlayer, hcurrent]
    cases hanswer : (perform _ (.pause false)).1 <;> rfl
  rw [GoesOnFrom, hlog]
  exact h.told.append rfl

end Session

/-! ### Restarts -/

structure Restart where
  session : Session
  dice : Dice
  volume : Single

namespace Restart

open Session

def restored (restart : Restart) (snapshot : PlayerSnapshot) : Session :=
  ((restore snapshot true).run (restart.session.opening restart.dice restart.volume)).2

/-- What is saved in the end, if each player is restored from what the one before it saved. -/
def savedAfter (restarts : List Restart) (snapshot : PlayerSnapshot) : PlayerSnapshot :=
  restarts.foldl (fun snapshot restart => (restart.restored snapshot).snapshot) snapshot

variable {restart : Restart} {snapshot : PlayerSnapshot} {audio : Audio} {position : Millis}

/-- A player that is restored paused has nothing to save a position of. -/
theorem snapshot_of_paused (restart : Restart) (h : snapshot.paused = true) :
    (restart.restored snapshot).snapshot.paused = true ∧
      (restart.restored snapshot).snapshot.positionMillis = none := by
  have hplayer : (restart.restored snapshot).player =
      (((restart.session.opening restart.dice restart.volume).prepared snapshot).player.setQueue
        (·.setShuffle snapshot.shuffled)).setQueue TrackQueue.refresh := by
    rw [restored, run_restore, h]
    exact publish_player _
  rw [prepared_player] at hplayer
  have hpaused : (restart.restored snapshot).player.paused = true := by
    rw [hplayer]
    exact h
  have hcurrent : (restart.restored snapshot).player.current = none := by
    rw [hplayer]
    rfl
  exact ⟨hpaused, by simp only [Session.snapshot, hcurrent, Option.map_none]⟩

/-- A player that was playing plays on from the saved position. -/
theorem playsFrom_restored (h : snapshot.Leads audio position) (hpaused : snapshot.paused = false)
    (hnode : restart.session.node.Obliging) :
    (restart.restored snapshot).PlaysFrom audio position := by
  have hpoised := poised_prepared snapshot restart.session restart.dice restart.volume
  obtain ⟨track, rest, htracks, rfl, rfl⟩ :=
    h.tracksFrom restart.session.services.catalogue.mint
  rw [htracks] at hpoised
  have hprepared : ((restart.session.opening restart.dice restart.volume).prepared
      snapshot).node.Obliging := obliging_prepared snapshot hnode
  have hunpaused : ((restart.session.opening restart.dice restart.volume).prepared
      snapshot).player.paused = false := by
    rw [prepared_player]
    exact hpaused
  obtain ⟨announce, hstart⟩ := run_startIfIdle_poised hpoised hunpaused hprepared
  rw [restored, run_restore, hpaused, if_neg Bool.false_ne_true, hstart]
  exact (PlaysFrom.accepted hpoised.alive hunpaused hprepared).setQueue _

theorem paused_savedAfter (restarts : List Restart) (h : snapshot.paused = true) :
    (savedAfter restarts snapshot).paused = true := by
  induction restarts generalizing snapshot with
  | nil => exact h
  | cons restart rest ih => exact ih (restart.snapshot_of_paused h).1

theorem leads_savedAfter {restarts : List Restart} (h : snapshot.Leads audio position)
    (hpaused : snapshot.paused = false)
    (hnodes : ∀ restart ∈ restarts, restart.session.node.Obliging) :
    (savedAfter restarts snapshot).Leads audio position ∧
      (savedAfter restarts snapshot).paused = false := by
  induction restarts generalizing snapshot with
  | nil => exact ⟨h, hpaused⟩
  | cons restart rest ih =>
    have hplays := playsFrom_restored h hpaused (hnodes restart List.mem_cons_self)
    exact ih hplays.leads hplays.unpaused fun other hother =>
      hnodes other (List.mem_cons_of_mem restart hother)

/-- After any number of restarts in which the nodes do what they are asked, the saved position is
saved again exactly if the player was not paused, and then the first track is still to be played
from it. -/
theorem position_survives_iff (h : snapshot.Leads audio position) {earlier : List Restart}
    {last : Restart} (hnodes : ∀ restart ∈ earlier, restart.session.node.Obliging)
    (hlast : last.session.node.Obliging) :
    ((last.restored (savedAfter earlier snapshot)).snapshot.positionMillis = some position ↔
      snapshot.paused = false) ∧
    (snapshot.paused = false →
      (last.restored (savedAfter earlier snapshot)).GoesOnFrom audio position) := by
  have hplays (hpaused : snapshot.paused = false) :
      (last.restored (savedAfter earlier snapshot)).PlaysFrom audio position := by
    obtain ⟨hleads, hunpaused⟩ := leads_savedAfter h hpaused hnodes
    exact playsFrom_restored hleads hunpaused hlast
  refine ⟨⟨fun hposition => ?_, fun hpaused => (hplays hpaused).leads.position⟩,
    fun hpaused => (hplays hpaused).goesOnFrom⟩
  cases hpaused : snapshot.paused with
  | false => rfl
  | true =>
    rw [(last.snapshot_of_paused (paused_savedAfter earlier hpaused)).2] at hposition
    cases hposition

def sampleRestart : Restart where
  session := sampleSession
  dice := .ofSeed 1
  volume := maxVolume

def midwaySnapshot (paused : Bool) : PlayerSnapshot where
  paused := paused
  shuffled := true
  repeatMode := .all
  volume := .one
  positionMillis := some 42000
  channelRef := some ⟨9, by decide⟩
  tracks := [.ofTrack (sampleTrack 1 firstUser false),
    { SavedTrack.ofTrack (sampleTrack 2 secondUser false) with serializedPayload := "?" },
    .ofTrack (sampleTrack 3 secondUser false)]

theorem leads_midwaySnapshot (paused : Bool) :
    (midwaySnapshot paused).Leads (sampleTrack 1 firstUser false).audio 42000 :=
  ⟨⟨_, _, rfl, Audio.decode_encode _⟩, rfl⟩

theorem obliging_sampleRestart : sampleRestart.session.node.Obliging :=
  ⟨rfl, rfl, fun _ _ => rfl⟩

theorem position_survives_iff_midway :
    (midwaySnapshot false).Leads (sampleTrack 1 firstUser false).audio 42000 ∧
    (∀ restart ∈ [sampleRestart, sampleRestart], restart.session.node.Obliging) ∧
    (sampleRestart.restored (savedAfter [sampleRestart, sampleRestart]
      (midwaySnapshot false))).snapshot.positionMillis = some 42000 ∧
    (sampleRestart.restored (savedAfter [sampleRestart, sampleRestart]
      (midwaySnapshot false))).GoesOnFrom (sampleTrack 1 firstUser false).audio 42000 := by
  have hnodes : ∀ restart ∈ [sampleRestart, sampleRestart], restart.session.node.Obliging := by
    intro restart hrestart
    obtain rfl : restart = sampleRestart := by simpa using hrestart
    exact obliging_sampleRestart
  have hsurvives :=
    position_survives_iff (leads_midwaySnapshot false) hnodes obliging_sampleRestart
  exact ⟨leads_midwaySnapshot false, hnodes, hsurvives.1.mpr rfl, hsurvives.2 rfl⟩

/-- Restored paused and saved at once, the player forgets where it was. -/
theorem paused_restart_forgets_position :
    (midwaySnapshot true).Leads (sampleTrack 1 firstUser false).audio 42000 ∧
    sampleRestart.session.node.Obliging ∧
    (sampleRestart.restored (midwaySnapshot true)).snapshot.positionMillis ≠ some 42000 := by
  refine ⟨leads_midwaySnapshot true, obliging_sampleRestart, ?_⟩
  rw [(sampleRestart.snapshot_of_paused rfl).2]
  exact nofun

end Restart

end Jukebox
