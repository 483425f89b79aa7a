import Jukebox.Proofs.Player.Stopping
import Jukebox.Proofs.Queue.Listing

/-!
What a status shows: the settings, the current track and the first of the queue as it is once it has
been brought up to date. So publishing, listing, a change of the volume or a command to the node
leave the status as it is, apart from the position.
-/
namespace Jukebox

/-- A status apart from the position. -/
def PlayerInfo.still (info : PlayerInfo) : PlayerInfo := { info with positionMillis := none }

namespace Player

/-- Two players look alike to observers: they differ in nothing that a status shows. -/
structure Resembles (player other : Player) : Prop where
  current : player.current = other.current
  paused : player.paused = other.paused
  destroyed : player.destroyed = other.destroyed
  queue : player.queue.refresh.skipped = other.queue.refresh.skipped

variable {player other : Player}

theorem Resembles.of_queue (hcurrent : player.current = other.current)
    (hpaused : player.paused = other.paused) (hdestroyed : player.destroyed = other.destroyed)
    (hqueue : player.queue = other.queue ∨ player.queue = other.queue.refresh) :
    player.Resembles other := by
  refine ⟨hcurrent, hpaused, hdestroyed, ?_⟩
  rcases hqueue with hsame | hrefreshed
  · rw [hsame]
  · rw [hrefreshed, TrackQueue.refresh_refresh]

theorem Resembles.isPlaying_eq (h : player.Resembles other) :
    player.isPlaying = other.isPlaying := by
  unfold isPlaying state
  rw [h.destroyed, h.current, h.paused]

/-- Of the queue, a status shows what it is once it has been brought up to date. -/
theorem info_eq (player : Player) (position : Millis) :
    (player.info position).1 = {
      playing := player.isPlaying
      paused := player.paused
      shuffled := player.queue.refresh.skipped.shuffle
      repeatMode := player.queue.refresh.skipped.repeatMode
      positionMillis := if player.isPlaying then some position else none
      queue := ((player.current.toList ++
        player.queue.refresh.skipped.lineup.take (statusPreview - player.current.isSome.toNat)).take
          statusPreview).map TrackInfo.ofTrack } := by
  have hroom (current : Bool) : 0 < statusPreview - current.toNat := by
    cases current <;> decide
  have hshown : player.tracksInRange 0 statusPreview =
      ((player.current.toList ++
        player.queue.refresh.lineup.take (statusPreview - player.current.isSome.toNat)).take
          statusPreview, player.setQueue TrackQueue.refresh) := by
    rw [tracksInRange, if_pos (by decide), TrackQueue.range_eq, if_pos (hroom _)]
    rfl
  rw [info, hshown]
  rfl

theorem Resembles.info_eq (h : player.Resembles other) (position : Millis) :
    (player.info position).1 = (other.info position).1 := by
  rw [Player.info_eq, Player.info_eq, h.isPlaying_eq, h.current, h.paused, h.queue]

theorem resembles_tracksInRange (player : Player) (start stop : Nat) :
    (player.tracksInRange start stop).2.Resembles player := by
  have hpaused : (player.tracksInRange start stop).2.paused = player.paused := by
    unfold tracksInRange
    split <;> rfl
  exact .of_queue (Session.tracksInRange_current player start stop) hpaused
    (keeps_tracksInRange player start stop).destroyed (player.queue_tracksInRange start stop)

end Player

namespace Session

/-- Apart from the position, the status is the same as before if the player looks the same. -/
theorem still_info_of_resembles {session later : Session}
    (h : later.player.Resembles session.player) : later.info.1.still = session.info.1.still := by
  change ((later.player.info later.node.position).1).still =
    ((session.player.info session.node.position).1).still
  rw [h.info_eq]
  rfl

/-- Publishing the status does not change it. -/
theorem info_publish (session : Session) : session.publish.info.1 = session.info.1 := by
  have hsame : session.publish.player.Resembles session.player := by
    rw [publish_player]
    exact .of_queue rfl rfl rfl (.inr rfl)
  exact hsame.info_eq session.node.position

theorem playing_still_info (session : Session) :
    session.info.1.still.playing = session.player.isPlaying :=
  congrArg PlayerInfo.playing (session.player.info_eq session.node.position)

theorem repeatMode_still_info (session : Session) :
    session.info.1.still.repeatMode = session.player.queue.repeatMode := by
  have hshown : session.info.1.still.repeatMode = session.player.queue.refresh.repeatMode :=
    congrArg PlayerInfo.repeatMode (session.player.info_eq session.node.position)
  rw [hshown]
  exact (TrackQueue.refresh_settings _).repeatMode

/-- The status has changed if a playing player does not play any more, or the other way round. -/
theorem still_info_ne_of_isPlaying_ne {session later : Session}
    (h : later.player.isPlaying ≠ session.player.isPlaying) :
    later.info.1.still ≠ session.info.1.still := by
  intro hsame
  rw [← playing_still_info, ← playing_still_info, hsame] at h
  exact h rfl

end Session

end Jukebox
