import Jukebox.Proofs.Player.IdleStart
import Jukebox.Proofs.Player.Stopping

/-!
Restoring a snapshot of which some tracks cannot be read. The others come back in the order in which
they were saved. A player that is not held back starts the first of them, before any shuffling and
without a word, and the others wait. The saved position is that of the very first track of the
snapshot, and is lost with it.
-/
namespace Jukebox

/-! ### The tracks that come back -/

/-- The saved tracks that can be read, each with the position at which it is to resume. -/
def PlayerSnapshot.returning (snapshot : PlayerSnapshot) : List (SavedTrack × Option Millis) :=
  match snapshot.tracks with
  | [] => []
  | first :: rest =>
    ((first, snapshot.positionMillis) :: rest.map (·, none)).filter (·.1.readable)

structure Returns (given : SavedTrack × Option Millis) (track : Track) : Prop where
  audio : Audio.decode given.1.serializedPayload = .ok track.audio
  requester : track.requester = given.1.requesterId
  chapter : track.chapter = given.1.chapter?
  resumeAt : track.resumeAt = given.2

namespace SavedTrack

theorem restore_of_readable {saved : SavedTrack} (h : saved.readable = true) (mint : Mint) :
    ∃ track later, saved.restore mint = (.ok track, later) ∧ Returns (saved, none) track := by
  unfold readable at h
  unfold restore
  cases hdecode : Audio.decode saved.serializedPayload with
  | error cause => rw [hdecode] at h; cases h
  | ok audio => exact ⟨_, _, rfl, hdecode, rfl, rfl, rfl⟩

theorem restore_of_unreadable {saved : SavedTrack} (h : saved.readable = false) (mint : Mint) :
    ∃ cause, saved.restore mint = (.error cause, mint) := by
  unfold readable at h
  unfold restore
  cases hdecode : Audio.decode saved.serializedPayload with
  | error cause => exact ⟨cause, rfl⟩
  | ok audio => rw [hdecode] at h; cases h

theorem returns_restoreAll (tracks : List SavedTrack) (mint : Mint) :
    List.Forall₂ Returns ((tracks.map (·, none)).filter (·.1.readable))
      ((restoreAll tracks mint).1.filterMap id) := by
  induction tracks generalizing mint with
  | nil => exact .nil
  | cons saved rest ih =>
    rw [restoreAll, List.map_cons]
    cases hreadable : saved.readable with
    | false =>
      obtain ⟨cause, heq⟩ := restore_of_unreadable hreadable mint
      rw [heq, List.filter_cons_of_neg (by simp [hreadable])]
      exact ih mint
    | true =>
      obtain ⟨track, later, heq, hreturns⟩ := restore_of_readable hreadable mint
      rw [heq, List.filter_cons_of_pos (by exact hreadable)]
      exact .cons hreturns (ih later)

end SavedTrack

namespace PlayerSnapshot

/-- What can be read comes back in its order. -/
theorem returns_tracksFrom (snapshot : PlayerSnapshot) (mint : Mint) :
    List.Forall₂ Returns snapshot.returning (snapshot.tracksFrom mint).1 := by
  unfold returning tracksFrom
  cases snapshot.tracks with
  | nil => exact .nil
  | cons first rest =>
    dsimp only
    rw [SavedTrack.restoreAll]
    cases hreadable : first.readable with
    | false =>
      obtain ⟨cause, heq⟩ := SavedTrack.restore_of_unreadable hreadable mint
      rw [heq, List.filter_cons_of_neg (by simp [hreadable])]
      exact SavedTrack.returns_restoreAll rest mint
    | true =>
      obtain ⟨track, later, heq, hreturns⟩ := SavedTrack.restore_of_readable hreadable mint
      rw [heq, List.filter_cons_of_pos (by exact hreadable)]
      have hrest := SavedTrack.returns_restoreAll rest later
      cases snapshot.positionMillis with
      | none => exact .cons hreturns hrest
      | some position => exact .cons { hreturns with resumeAt := rfl } hrest

theorem length_returning (snapshot : PlayerSnapshot) :
    snapshot.returning.length = snapshot.tracks.countP SavedTrack.readable := by
  unfold returning
  cases snapshot.tracks with
  | nil => rfl
  | cons first rest =>
    rw [← List.countP_eq_length_filter, List.countP_cons, List.countP_cons, List.countP_map,
      Function.comp_def]

end PlayerSnapshot

/-- Fitting the views changes nothing that is saved of a track. -/
theorem returns_refresh {given : List (SavedTrack × Option Millis)} {queue : TrackQueue}
    (h : List.Forall₂ Returns given queue.tracks) :
    List.Forall₂ Returns given queue.refresh.tracks := by
  let unkeyed (track : Track) : Track := { track with sortKey := prioritySortKey }
  have hold : List.Forall₂ Returns given (queue.tracks.map unkeyed) :=
    List.forall₂_map_right_iff.mpr (h.imp fun _ _ hreturns => { hreturns with })
  rw [← TrackQueue.refresh_map unkeyed fun _ _ => rfl] at hold
  exact (List.forall₂_map_right_iff.mp hold).imp fun _ _ hreturns => { hreturns with }

/-! ### The stages -/

namespace Session

open Operation

def PlaysSince (before later : Session) (plays : List Asked) : Prop :=
  ∃ sent, later.node.log = before.node.log ++ sent ∧
    sent.filter (·.command.kind = .play) = plays

/-- In between, the node was told things that play nothing, and nothing else happened. -/
structure OnlyTold (before later : Session) : Prop where
  player : later.player = before.player
  services : later.services = before.services
  plays : before.PlaysSince later []
  accepts : before.node.Accepts (fun _ => True) → later.node.Accepts fun _ => True

namespace OnlyTold

theorem refl (session : Session) : session.OnlyTold session :=
  ⟨rfl, rfl, ⟨[], (List.append_nil _).symm, rfl⟩, id⟩

theorem perform {before later : Session} (h : before.OnlyTold later) {command : Command}
    (hplay : command.kind ≠ .play) : before.OnlyTold (later.perform command).2 := by
  obtain ⟨sent, hlog, hplays⟩ := h.plays
  have hnow : (later.perform command).2.node.log = before.node.log ++
      (sent ++ [{ command, done := (later.node.refusal? command).isNone }]) := by
    rw [← List.append_assoc, ← hlog]
    exact later.node.log_perform command
  refine ⟨h.player, h.services, ⟨_, hnow, ?_⟩, fun hnode => accepts_perform (h.accepts hnode) _⟩
  rw [List.filter_append, hplays, List.filter_cons_of_neg (by simp [hplay])]
  rfl

theorem join {before later : Session} (h : before.OnlyTold later) (channel : ChannelId) :
    before.OnlyTold ((join channel).run later).2 := by
  unfold Session.join
  rw [run_bind, run_ensureAlive]
  cases later.player.destroyed with
  | true => exact h
  | false =>
    simp only [Bool.false_eq_true, if_false, run_bind, run_get]
    split
    · exact h
    · rw [run_ask]
      exact h.perform nofun

end OnlyTold

/-- Between taking a snapshot over and starting, the node is told the channel and the volume. -/
theorem exists_told_restore (snapshot : PlayerSnapshot) (volumeSupported : Bool)
    (session : Session) :
    ∃ ready, (takeOver snapshot volumeSupported session).2.OnlyTold ready ∧
      (restore snapshot volumeSupported).run session =
        (.ok (takeOver snapshot volumeSupported session).1,
          ((setShuffle snapshot.shuffled).run
            (if snapshot.paused then ready else ((startIfIdle true).run ready).2)).2) := by
  let taken := (takeOver snapshot volumeSupported session).2
  let joined := snapshot.channelRef.elim taken fun channel => ((join channel).run taken).2
  let ready :=
    if volumeSupported then (joined.perform (.volume joined.player.volume)).2 else joined
  have hjoined : taken.OnlyTold joined := by
    unfold joined
    cases snapshot.channelRef with
    | none => exact .refl taken
    | some channel => exact (OnlyTold.refl taken).join channel
  refine ⟨ready, ?_, ?_⟩
  · unfold ready
    split
    · exact hjoined.perform nofun
    · exact hjoined
  · unfold restore ready joined taken
    rw [run_bind, run_use]
    cases snapshot.channelRef <;> cases volumeSupported <;> cases snapshot.paused <;>
      simp only [run_bind, run_pure, run_get, run_ignoring, run_ask, setShuffle, setQueue,
        run_change, Option.elim_none, Option.elim_some, if_true, Bool.not_false, Bool.not_true,
        Bool.false_eq_true, if_false]

/-- A silent start of an idle player whose node accepts everything announces nothing. -/
theorem run_startIfIdle_silent {session : Session} (halive : session.player.destroyed = false)
    (hidle : session.player.isIdle = true) (hnode : session.node.Accepts fun _ => True)
    {given : Track} (hgiven : session.player.queue.take.1 = some given) :
    (startIfIdle true).run session = (.ok (), session.accepted given false) := by
  simp only [Player.isIdle, Bool.and_eq_true, Bool.not_eq_true', Option.isNone_iff_eq_none]
    at hidle
  have hnext : session.player.next true true false session.services.announceTracks =
      (.load given.fromStart given.playStart false, session.player.loading given) := by
    unfold Player.next Player.loading
    cases htake : session.player.queue.take with
    | mk taken queue =>
      rw [htake] at hgiven
      obtain rfl : taken = some given := hgiven
      simp [halive, hidle.1, hidle.2]
  have hdone : ((session.setPlayer (·.loading given)).perform given.playing).1 = .ok () :=
    AudioNode.perform_eq_ok_iff.mpr ((hnode session.node.log given).mpr trivial)
  have hload := run_load given false session
  rw [hdone] at hload
  have hloading : ({ session with player := session.player.loading given } : Session) =
      session.setPlayer (·.loading given) := rfl
  rw [startIfIdle, run_advance, tryTracks, run_bind, run_use]
  simp only [withPlayer, Option.isSome_none, hnext, hloading, run_bind, hload]
  rfl

theorem run_startIfIdle_empty {session : Session} (halive : session.player.destroyed = false)
    (hidle : session.player.isIdle = true) (hempty : session.player.queue.take.1 = none) :
    ((startIfIdle true).run session).2 = (session.setPlayer Player.exhausted).publish := by
  simp only [Player.isIdle, Bool.and_eq_true, Bool.not_eq_true', Option.isNone_iff_eq_none]
    at hidle
  rw [startIfIdle, run_advance]
  rcases run_tryTracks true true session.player.queue.size none session with
    ⟨hdestroyed, -⟩ | ⟨hbusy, -⟩ | ⟨-, -, heq⟩ | ⟨-, track, announce, hgiven, -⟩
  · rw [halive] at hdestroyed
    cases hdestroyed
  · simp [hidle.1, hidle.2] at hbusy
  · rw [heq]
    rfl
  · rw [hempty] at hgiven
    cases hgiven

/-! ### What restoring comes to -/

structure Stands (before : Session) (current : Option Track)
    (waiting : List (SavedTrack × Option Millis)) (plays : List Asked) (later : Session) :
    Prop where
  current : later.player.current = current
  waiting : List.Forall₂ Returns waiting later.player.queue.tracks
  plays : before.PlaysSince later plays
  unannounced : later.services.announcements = before.services.announcements

variable {before session : Session} {current : Option Track}
  {waiting : List (SavedTrack × Option Millis)} {plays : List Asked} {snapshot : PlayerSnapshot}

namespace Stands

theorem publish (h : before.Stands current waiting plays session) :
    before.Stands current waiting plays session.publish := by
  refine ⟨?_, ?_, h.plays, h.unannounced⟩
  · rw [publish_player]
    exact h.current
  · rw [publish_player]
    exact returns_refresh h.waiting

theorem setShuffle (h : before.Stands current waiting plays session) (on : Bool) :
    before.Stands current waiting plays ((setShuffle on).run session).2 := by
  have hchanged : before.Stands current waiting plays
      (session.setPlayer (·.setQueue (·.setShuffle on))) := ⟨h.current, h.waiting, h.plays,
    h.unannounced⟩
  exact hchanged.publish

/-- The node accepts a play, and what is left in the queue waits. -/
theorem accepted {given : Track} {rest : List (SavedTrack × Option Millis)}
    (h : before.Stands current waiting [] session) (hnode : session.node.Accepts fun _ => True)
    (hrest : List.Forall₂ Returns rest session.player.queue.take.2.tracks) :
    before.Stands (some given.fromStart) rest [{ command := given.playing, done := true }]
      (session.accepted given false) := by
  have hrefusal : session.node.refusal? given.playing = none :=
    (hnode session.node.log given).mpr trivial
  obtain ⟨sent, hlog, hplays⟩ := h.plays
  have hnow : (session.accepted given false).node.log =
      before.node.log ++ (sent ++ [{ command := given.playing, done := true }]) := by
    rw [accepted_node, AudioNode.log_perform, hrefusal, hlog, List.append_assoc]
    rfl
  refine ⟨current_accepted _ _ _, ?_, ⟨_, hnow, ?_⟩, h.unannounced⟩
  · rw [accepted_player]
    exact returns_refresh hrest
  · rw [List.filter_append, hplays]
    rfl

/-- What the node is told before a start changes nothing of that. -/
theorem told (h : before.Stands current waiting [] session) {later : Session}
    (htold : session.OnlyTold later) : before.Stands current waiting [] later := by
  obtain ⟨sent, hlog, hplays⟩ := h.plays
  obtain ⟨more, hmore, hnone⟩ := htold.plays
  refine ⟨?_, ?_, ⟨sent ++ more, ?_, ?_⟩, ?_⟩
  · rw [htold.player]
    exact h.current
  · rw [htold.player]
    exact h.waiting
  · rw [hmore, hlog, List.append_assoc]
  · rw [List.filter_append, hplays, hnone]
    rfl
  · rw [htold.services]
    exact h.unannounced

/-- With nothing waiting, a start leaves nothing current. -/
theorem start_nothing (h : before.Stands none [] [] session)
    (hpoised : session.player.Poised session.player.queue.tracks)
    (hpaused : session.player.paused = false) :
    before.Stands none [] [] ((startIfIdle true).run session).2 := by
  have hidle : session.player.isIdle = true := by simp [Player.isIdle, hpoised.idle, hpaused]
  have hempty : session.player.queue.take.1 = none := by
    cases hgiven : session.player.queue.take.1 with
    | none => rfl
    | some track =>
      exact absurd (List.forall₂_nil_left_iff.mp h.waiting)
        (TrackQueue.ne_nil_of_take hpoised.sticky hgiven)
  have hqueue : session.player.exhausted.queue = session.player.queue.refresh :=
    TrackQueue.take_of_none hempty
  have hexhausted : before.Stands none [] [] (session.setPlayer Player.exhausted) := by
    refine ⟨rfl, ?_, h.plays, h.unannounced⟩
    change List.Forall₂ Returns [] session.player.exhausted.queue.tracks
    rw [hqueue]
    exact returns_refresh h.waiting
  rw [run_startIfIdle_empty hpoised.alive hidle hempty]
  exact hexhausted.publish

/-- A player that is held back by nothing starts the first track that waits. -/
theorem start_first {first : SavedTrack × Option Millis} {rest : List (SavedTrack × Option Millis)}
    (h : before.Stands none (first :: rest) [] session)
    (hpoised : session.player.Poised session.player.queue.tracks)
    (hpaused : session.player.paused = false) (hmode : session.player.queue.repeatMode ≠ .all)
    (hnode : session.node.Accepts fun _ => True) :
    ∃ track, Returns first track ∧
      before.Stands (some track.fromStart) rest [{ command := track.playing, done := true }]
        ((startIfIdle true).run session).2 := by
  have hidle : session.player.isIdle = true := by simp [Player.isIdle, hpoised.idle, hpaused]
  obtain ⟨track, others, hreturns, hrest, htracks⟩ := List.forall₂_cons_left_iff.mp h.waiting
  have hordinary := hpoised.ordinary track (htracks ▸ List.mem_cons_self)
  obtain ⟨hgiven, hleft⟩ := TrackQueue.take_ordinary hpoised.shuffle hpoised.rotation
    hpoised.sticky htracks hordinary
  rw [if_neg hmode, List.append_nil] at hleft
  rw [run_startIfIdle_silent hpoised.alive hidle hnode hgiven]
  exact ⟨track, hreturns, h.accepted hnode (hleft ▸ hrest)⟩

end Stands

/-- A new player that takes a snapshot over stands with everything that can be read before it. -/
theorem stands_takeOver (snapshot : PlayerSnapshot) (volumeSupported : Bool) (session : Session)
    (dice : Dice) (volume : Single) :
    session.Stands none snapshot.returning []
      (takeOver snapshot volumeSupported (session.opening dice volume)).2 := by
  refine ⟨rfl, ?_, ⟨[], (List.append_nil _).symm, rfl⟩, rfl⟩
  rw [(poised_takeOver snapshot volumeSupported session dice volume).queue]
  exact snapshot.returns_tracksFrom _

structure Restores (snapshot : PlayerSnapshot) (before : Session)
    (result : Except PlayerError Nat × Session) : Prop where
  count : result.1 = .ok (snapshot.tracks.countP SavedTrack.readable)
  heldBack : snapshot.paused = true → before.Stands none snapshot.returning [] result.2
  nothing : snapshot.paused = false → snapshot.returning = [] →
    before.Stands none [] [] result.2
  starts : ∀ first rest, snapshot.paused = false → snapshot.returning = first :: rest →
    ∃ track, Returns first track ∧
      before.Stands (some track.fromStart) rest [{ command := track.playing, done := true }]
        result.2

/-- Outside repeat all, a new player whose node accepts every play brings back whatever can be read
of a snapshot, be it shuffled or not, and plays the first of it, unless it is paused. -/
theorem restore_skips_unreadable (session : Session) (dice : Dice) (volume : Single)
    (snapshot : PlayerSnapshot) (volumeSupported : Bool) (hmode : snapshot.repeatMode ≠ .all)
    (hnode : session.node.Accepts fun _ => True) :
    Restores snapshot session
      ((restore snapshot volumeSupported).run (session.opening dice volume)) := by
  obtain ⟨ready, htold, hrun⟩ :=
    exists_told_restore snapshot volumeSupported (session.opening dice volume)
  have hready := (stands_takeOver snapshot volumeSupported session dice volume).told htold
  have hpoised := poised_takeOver snapshot volumeSupported session dice volume
  have hpaused : ready.player.paused = snapshot.paused := by rw [htold.player]; rfl
  have hmode' : ready.player.queue.repeatMode ≠ .all := by rw [htold.player]; exact hmode
  have hcount : (takeOver snapshot volumeSupported (session.opening dice volume)).1 =
      snapshot.tracks.countP SavedTrack.readable :=
    (snapshot.returns_tracksFrom _).length_eq.symm.trans snapshot.length_returning
  rw [← hpoised.queue, ← htold.player] at hpoised
  rw [hrun]
  refine ⟨congrArg Except.ok hcount, fun hheld => ?_, fun hplaying hnone => ?_,
    fun first rest hplaying hreturning => ?_⟩
  · rw [if_pos hheld]
    exact hready.setShuffle _
  · rw [hplaying, if_neg Bool.false_ne_true]
    rw [hnone] at hready
    exact (hready.start_nothing hpoised (hpaused.trans hplaying)).setShuffle _
  · rw [hplaying, if_neg Bool.false_ne_true]
    rw [hreturning] at hready
    obtain ⟨track, hreturns, hstands⟩ := hready.start_first hpoised (hpaused.trans hplaying) hmode'
      (htold.accepts hnode)
    exact ⟨track, hreturns, hstands.setShuffle _⟩

def spoiltSnapshot (paused : Bool) : PlayerSnapshot where
  paused := paused
  shuffled := true
  repeatMode := .single
  volume := .one
  positionMillis := some 42000
  channelRef := some ⟨31, by decide⟩
  tracks := [{ SavedTrack.ofTrack (sampleTrack 1 firstUser false) with serializedPayload := "?" },
    .ofTrack sampleChapter,
    { SavedTrack.ofTrack (sampleTrack 3 secondUser false) with serializedPayload := "?" },
    .ofTrack (sampleTrack 4 secondUser false)]

def playingOnly : AudioNode where
  failing := [.connect, .volume]

theorem restore_skips_unreadable_spoilt :
    (spoiltSnapshot false).repeatMode ≠ .all ∧ playingOnly.Accepts (fun _ => True) ∧
      Restores (spoiltSnapshot true) { sampleSession with node := playingOnly }
        ((restore (spoiltSnapshot true) true).run
          (opening { sampleSession with node := playingOnly } (.ofSeed 1) maxVolume)) ∧
      Restores (spoiltSnapshot false) { sampleSession with node := playingOnly }
        ((restore (spoiltSnapshot false) true).run
          (opening { sampleSession with node := playingOnly } (.ofSeed 1) maxVolume)) ∧
      (spoiltSnapshot false).returning =
        [(.ofTrack sampleChapter, none), (.ofTrack (sampleTrack 4 secondUser false), none)] := by
  have hmode : (spoiltSnapshot false).repeatMode ≠ .all := by decide
  have hnode : playingOnly.Accepts fun _ => True := accepts_all (by decide) rfl rfl
  have hreturning : (spoiltSnapshot false).returning =
      [(.ofTrack sampleChapter, none), (.ofTrack (sampleTrack 4 secondUser false), none)] := by
    have hblob (saved : SavedTrack) (hpayload : saved.serializedPayload = "?") :
        saved.readable = false := by
      rw [SavedTrack.readable, hpayload]
      decide
    simp [PlayerSnapshot.returning, spoiltSnapshot, SavedTrack.readable_ofTrack, hblob]
  exact ⟨hmode, hnode, restore_skips_unreadable _ _ _ (spoiltSnapshot true) true hmode hnode,
    restore_skips_unreadable _ _ _ (spoiltSnapshot false) true hmode hnode, hreturning⟩

end Session

end Jukebox
