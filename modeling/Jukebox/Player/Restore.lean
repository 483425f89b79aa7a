import Jukebox.Player.Control
import Jukebox.Snapshot

/-!
Saving and restoring a player. A snapshot holds the current track and then the queue; the copy of
the current track that repeat all put back is left out. Restoring skips the tracks whose blobs
cannot be read; the saved position belongs to the first saved track alone.
-/
namespace Jukebox

namespace Player

/-- The queue without the copy of the current track that repeat all put back. -/
def otherTracks (player : Player) : List Track :=
  match player.current with
  | some track =>
    if player.queue.repeatMode = .all then
      match TrackQueue.lastPosition? track.id player.queue.ids with
      | some position => player.queue.tracks.eraseIdx position
      | none => player.queue.tracks
    else player.queue.tracks
  | none => player.queue.tracks

def savedTracks (player : Player) : List Track := player.current.toList ++ player.otherTracks

/-- Take over the settings of a snapshot and put its tracks behind the queue. The order stays
unshuffled until the first track is out. -/
def takeOver (player : Player) (snapshot : PlayerSnapshot) (tracks : List Track)
    (volumeSupported : Bool) : Player :=
  { player with
    paused := snapshot.paused
    volume :=
      if volumeSupported then snapshot.volume.clamp .zero maxVolume else player.volume
    queue := ((player.queue.setRepeat snapshot.repeatMode).setShuffle false).addAll tracks true }

end Player

namespace SavedTrack

/-- Every saved track made into a new one; `none` where the blob cannot be read. -/
def restoreAll : List SavedTrack → Mint → List (Option Track) × Mint
  | [], mint => ([], mint)
  | saved :: rest, mint =>
    let (track, mint) := saved.restore mint
    let (tracks, mint) := restoreAll rest mint
    (track.toOption :: tracks, mint)

def resumeFirst (position : Option Millis) : List (Option Track) → List (Option Track)
  | some track :: rest =>
    (match position with
      | some position => some (track.resumingAt position)
      | none => some track) :: rest
  | tracks => tracks

end SavedTrack

namespace PlayerSnapshot

def tracksFrom (snapshot : PlayerSnapshot) (mint : Mint) : List Track × Mint :=
  let (tracks, mint) := SavedTrack.restoreAll snapshot.tracks mint
  ((SavedTrack.resumeFirst snapshot.positionMillis tracks).filterMap id, mint)

end PlayerSnapshot

namespace Session

open Operation

def snapshot (session : Session) : PlayerSnapshot where
  paused := session.player.paused
  shuffled := session.player.queue.shuffle
  repeatMode := session.player.queue.repeatMode
  volume := session.player.volume
  positionMillis := session.player.current.map fun _ => session.node.position
  channelRef := session.node.channel
  tracks := session.player.savedTracks.map SavedTrack.ofTrack

/-- Make the tracks of a snapshot and take its settings over; gives the number of tracks. -/
def takeOver (snapshot : PlayerSnapshot) (volumeSupported : Bool) (session : Session) :
    Nat × Session :=
  let services := session.services
  let (tracks, mint) := snapshot.tracksFrom services.catalogue.mint
  (tracks.length,
    { session with
      player := session.player.takeOver snapshot tracks volumeSupported
      services := { services with catalogue := { services.catalogue with mint } } })

/-- Rebuild the player from a snapshot. Failures of the node are not minded; the answer tells how
many tracks came back. -/
def restore (snapshot : PlayerSnapshot) (volumeSupported : Bool) : Operation Nat := do
  let count ← use (takeOver snapshot volumeSupported)
  match snapshot.channelRef with
  | some channel => (join channel).ignoring
  | none => pure ()
  if volumeSupported then
    let volume ← get (·.player.volume)
    (ask (.volume volume)).ignoring
  if ! snapshot.paused then (startIfIdle true).ignoring
  setShuffle snapshot.shuffled
  return count

end Session

end Jukebox
