import Jukebox.Proofs.Player.Retries
import Jukebox.Proofs.Player.Resuming

/-!
Queueing a track while nothing plays. The player starts whatever its queue gives next, and that is
the new track, unless repeat single still holds the track taken last: a track that came to its end
is not forgotten, only one that was skipped, refused or cleared away. Then the old track plays once
more and the new one waits.
-/
namespace Jukebox

namespace Track

/-- What the node is asked does not depend on the place of a track among the others. -/
theorem playing_congr {a b : Track} (hwish : a.wish = b.wish) (hresume : a.resumeAt = b.resumeAt) :
    a.playing = b.playing := by
  have haudio : a.audio = b.audio := congrArg (·.audio) hwish
  have hchapter : a.chapter = b.chapter := congrArg (·.chapter) hwish
  simp only [playing, playStart, startPosition, endPosition?, haudio, hchapter, hresume]

end Track

namespace TrackQueue

/-- What a take gives was queued just so, but for its place among the others. -/
theorem exists_queued_of_take {queue : TrackQueue} (hsticky : queue.sticky? = none) {given : Track}
    (hgiven : queue.take.1 = some given) :
    ∃ track ∈ queue.tracks, given.wish = track.wish ∧ given.resumeAt = track.resumeAt := by
  obtain ⟨position, found, -, hfound, rfl⟩ := exists_takeAt_of_take hsticky hgiven
  obtain ⟨track, htrack, hwish, hresume⟩ := exists_of_mem_refresh (List.mem_of_getElem? hfound)
  obtain ⟨hsameWish, hsameResume, -⟩ := queue.refresh.takeAt_leaves position found
  exact ⟨track, htrack, hsameWish.trans hwish, hsameResume.trans hresume⟩

/-- A queue that gets its only track gives that one next, unless it sticks to the last one. -/
theorem exists_take_add {queue : TrackQueue} (hempty : queue.tracks = []) (track : Track) :
    ∃ given, (queue.add track false).take.1 = some given ∧
      (queue.sticky? = some given ∨
        queue.sticky? = none ∧ given.wish = track.wish ∧ given.resumeAt = track.resumeAt) := by
  have hsame : (queue.add track false).sticky? = queue.sticky? := rfl
  cases hsticky : queue.sticky? with
  | some last => exact ⟨last, by simp only [take, hsame, hsticky], .inl rfl⟩
  | none =>
    have honly : (queue.add track false).tracks = [track] := by
      change (if track.isPriority then track :: queue.tracks else queue.tracks ++ [track]) = _
      rw [hempty]
      split <;> rfl
    have hfree := hsame.trans hsticky
    obtain ⟨position, found, -, -, htake⟩ := take_of_ne_nil hfree (by simp [honly])
    have hgiven := congrArg Prod.fst htake
    obtain ⟨other, hother, hlike⟩ := exists_queued_of_take hfree hgiven
    obtain rfl : other = track := by simpa [honly] using hother
    exact ⟨_, hgiven, .inr ⟨rfl, hlike⟩⟩

theorem sticky?_eq_some {queue : TrackQueue} {last : Track} :
    queue.sticky? = some last ↔ queue.repeatMode = .single ∧ queue.lastTaken = some last := by
  unfold sticky?
  split <;> simp [*]

end TrackQueue

namespace Session

open Operation

/-- Queueing a track plays it: the call succeeds, the node is asked to play that track and no
other, and the track is the current one. -/
structure Starts (session : Session) (track : Track)
    (result : Except PlayerError Unit × Session) : Prop where
  succeeds : result.1 = .ok ()
  plays : ∃ sent, result.2.node.log = session.node.log ++ sent ∧
    sent.filter (·.command.kind = .play) = [{ command := track.playing, done := true }]
  current : ∃ current, result.2.player.current = some current ∧ current.wish = track.wish

/-- An idle player whose node accepts everything loads what its queue gives. -/
theorem run_startIfIdle_of_given {session : Session} (halive : session.player.destroyed = false)
    (hidle : session.player.isIdle = true) (hnode : session.node.Accepts fun _ => True)
    {given : Track} (hgiven : session.player.queue.take.1 = some given) (silent : Bool) :
    ∃ announce, (startIfIdle silent).run session = (.ok (), session.accepted given announce) := by
  simp only [Player.isIdle, Bool.and_eq_true, Bool.not_eq_true', Option.isNone_iff_eq_none]
    at hidle
  rw [startIfIdle, run_advance]
  rcases run_tryTracks silent true session.player.queue.size none session with
    ⟨hdestroyed, -⟩ | ⟨hbusy, -⟩ | ⟨-, hempty, -⟩ |
      ⟨-, track, announce, htrack, ⟨-, heq⟩ | ⟨cause, hrefused, -⟩⟩
  · rw [halive] at hdestroyed
    cases hdestroyed
  · simp [hidle.1, hidle.2] at hbusy
  · rw [hempty] at hgiven
    cases hgiven
  · obtain rfl : track = given := Option.some.inj (htrack.symm.trans hgiven)
    exact ⟨announce, heq⟩
  · exact absurd trivial (not_playable_of_refused hnode hrefused)

/-- A load that the node accepts starts a track exactly if it is that track that was given. -/
theorem starts_accepted_iff {before session : Session} (hlog : session.node.log = before.node.log)
    (hnode : session.node.Accepts fun _ => True) (given track : Track) (announce : Bool) :
    Starts before track (.ok (), session.accepted given announce) ↔
      given.wish = track.wish ∧ given.playing = track.playing := by
  have hrefusal : session.node.refusal? given.playing = none :=
    (hnode session.node.log given).mpr trivial
  have hsent : (session.accepted given announce).node.log =
      before.node.log ++ [{ command := given.playing, done := true }] := by
    rw [accepted_node, AudioNode.log_perform, hrefusal, hlog]
    rfl
  have hcurrent := current_accepted session given announce
  constructor
  · rintro ⟨-, ⟨sent, hsame, hplays⟩, current, hstarted, hwish⟩
    have hone : sent = [{ command := given.playing, done := true }] :=
      List.append_cancel_left (hsame.symm.trans hsent)
    rw [hone, List.filter_cons_of_pos (by rfl)] at hplays
    obtain rfl : given.fromStart = current := Option.some.inj (hcurrent.symm.trans hstarted)
    exact ⟨hwish, congrArg Asked.command (List.cons.inj hplays).1⟩
  · rintro ⟨hwish, hplaying⟩
    refine ⟨rfl, ⟨_, hsent, ?_⟩, given.fromStart, hcurrent, hwish⟩
    rw [hplaying]
    rfl

/-- A track that is let in is queued, and an idle player then starts. -/
theorem run_enqueue_of_allowed {session : Session} {track : Track} {level : PermissionLevel}
    {status : LimitStatus} (halive : session.player.destroyed = false)
    (hstatus : (session.weigh track level).1 = .ok status) (hallowed : status.allowed = true) :
    (enqueue track level).run session = (startOrPublish session.player.isIdle).run
      ((session.weigh track level).2.setPlayer (·.setQueue (·.add track false))) := by
  have hplayer : (session.weigh track level).2.player = session.player := rfl
  rw [run_enqueue halive]
  cases hweigh : session.weigh track level with
  | mk outcome later =>
    rw [hweigh] at hstatus hplayer
    obtain rfl : outcome = .ok status := hstatus
    have hsame : later.player = session.player := hplayer
    simp only [hallowed, if_true, hsame]

/-- Whatever an idle player has done before, a track that is let into its empty queue starts at
once, exactly if repeat single holds no other track. -/
theorem starts_enqueue_iff {session : Session} {track : Track} {level : PermissionLevel}
    {status : LimitStatus} (halive : session.player.destroyed = false)
    (hpaused : session.player.paused = false) (hcurrent : session.player.current = none)
    (hempty : session.player.queue.tracks = [])
    (hstatus : (session.weigh track level).1 = .ok status) (hallowed : status.allowed = true)
    (hnode : session.node.Accepts fun _ => True) :
    Starts session track ((enqueue track level).run session) ↔
      (session.player.queue.repeatMode = .single →
        ∀ last, session.player.queue.lastTaken = some last →
          last.wish = track.wish ∧ last.playing = track.playing) := by
  have hidle : session.player.isIdle = true := by simp [Player.isIdle, hcurrent, hpaused]
  obtain ⟨given, hgiven, hlike⟩ := TrackQueue.exists_take_add hempty track
  rw [run_enqueue_of_allowed halive hstatus hallowed, hidle]
  generalize hqueued : (session.weigh track level).2.setPlayer _ = queued
  have hplayer : queued.player = session.player.setQueue (·.add track false) := hqueued ▸ rfl
  have hsame : queued.node = session.node := hqueued ▸ rfl
  have halive' : queued.player.destroyed = false := by rw [hplayer]; exact halive
  obtain ⟨announce, hstart⟩ := run_startIfIdle_of_given halive' (by rw [hplayer]; exact hidle)
    (hsame ▸ hnode) (by rw [hplayer]; exact hgiven) false
  rw [startOrPublish, if_pos rfl, hstart,
    starts_accepted_iff (congrArg AudioNode.log hsame) (hsame ▸ hnode)]
  rcases hlike with hsticky | ⟨hfree, hwish, hresume⟩
  · obtain ⟨hsingle, hlast⟩ := TrackQueue.sticky?_eq_some.mp hsticky
    simp [hsingle, hlast]
  · refine iff_of_true ⟨hwish, Track.playing_congr hwish hresume⟩ fun hsingle last hlast => ?_
    rw [TrackQueue.sticky?_eq_some.mpr ⟨hsingle, hlast⟩] at hfree
    cases hfree

/-- A node without outages that rejects no title plays everything. -/
theorem accepts_all {node : AudioNode} (hplays : .play ∉ node.failing)
    (hrejected : node.rejected = []) (houtages : node.outages = fun _ _ => none) :
    node.Accepts fun _ => True := by
  have htitles := accepts_titles hplays houtages
  simpa only [hrejected, List.not_mem_nil, not_false_eq_true] using htitles

def skippedForGood : List PlayerStep :=
  [.member (.setRepeat .all), .member (.enqueue (sampleTrack 1 firstUser true) .user),
    .member (.skipTracks [⟨1⟩]), .trackEnded .stopped, .member (.setRepeat .single)]

theorem starts_enqueue_iff_skippedForGood :
    let session := (sampleSession.opening (.ofSeed 1) maxVolume).afterAll skippedForGood
    session.player.queue.repeatMode = .single ∧
    (session.weigh (sampleTrack 2 secondUser true) .user).1 = .ok .success ∧
    session.node.Accepts (fun _ => True) ∧
    Starts session (sampleTrack 2 secondUser true)
      ((enqueue (sampleTrack 2 secondUser true) .user).run session) := by
  intro session
  have hstatus : (session.weigh (sampleTrack 2 secondUser true) .user).1 = .ok .success := by
    decide
  have hnode : session.node.Accepts fun _ => True := accepts_all (by decide) (by decide) rfl
  refine ⟨by decide, hstatus, hnode, ?_⟩
  refine (starts_enqueue_iff (by decide) (by decide) (by decide) (by decide) hstatus rfl
    hnode).mpr fun _ last hlast => ?_
  have hforgotten : session.player.queue.lastTaken = none := by decide
  rw [hforgotten] at hlast
  cases hlast

def playedOut : List PlayerStep :=
  [.member (.enqueue (sampleTrack 1 firstUser false) .user), .trackEnded .finished,
    .member (.setRepeat .single)]

/-- Under repeat single a player at rest may start a track that has ended long ago instead of the
one that is queued. -/
theorem enqueue_starts_ended_track :
    ¬ ∀ (session : Session) (dice : Dice) (volume : Single) (steps : List PlayerStep)
      (track : Track) (level : PermissionLevel) (status : LimitStatus),
      ((session.opening dice volume).afterAll steps).player.destroyed = false →
      ((session.opening dice volume).afterAll steps).player.paused = false →
      ((session.opening dice volume).afterAll steps).player.current = none →
      ((session.opening dice volume).afterAll steps).player.queue.tracks = [] →
      (((session.opening dice volume).afterAll steps).weigh track level).1 = .ok status →
      status.allowed = true →
      ((session.opening dice volume).afterAll steps).node.Accepts (fun _ => True) →
      Starts ((session.opening dice volume).afterAll steps) track
        ((enqueue track level).run ((session.opening dice volume).afterAll steps)) := by
  intro hstarts
  obtain ⟨-, -, current, hcurrent, hwish⟩ := hstarts sampleSession (.ofSeed 1) maxVolume playedOut
    (sampleTrack 2 secondUser false) .user .success (by decide) (by decide) (by decide) (by decide)
    (by decide) rfl (accepts_all (by decide) (by decide) rfl)
  have hid : ((enqueue (sampleTrack 2 secondUser false) .user).run
      ((sampleSession.opening (.ofSeed 1) maxVolume).afterAll playedOut)).2.player.current.map
        (·.id) = some ⟨1⟩ := by decide
  rw [hcurrent, Option.map_some] at hid
  have hsame : current.id = (sampleTrack 2 secondUser false).id := congrArg (·.id) hwish
  rw [hsame] at hid
  cases hid

end Session

end Jukebox
