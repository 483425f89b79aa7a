import Jukebox.Queue.Basic
import Jukebox.Limits
import Jukebox.Status
import Jukebox.Number.Single

/-!
The state of a player: its queue, the current track, the track last given to the node, and the
history of the tracks that ended.
-/
namespace Jukebox

def historyLimit : Nat := 20

/-- The greatest volume, 1.5. -/
def maxVolume : Single := ⟨0x3fc00000⟩

inductive PlaybackState
  | idle
  | playing
  | paused
  | destroyed
deriving DecidableEq

structure Player where
  queue : TrackQueue
  current : Option Track := none
  /-- The track that goes to the history when the node reports its end. -/
  lastLoaded : Option Track := none
  /-- The tracks that ended, oldest first. -/
  history : List Track := []
  paused : Bool := false
  volume : Single
  destroyed : Bool := false

namespace Player

def fresh (dice : Dice) (volume : Single) : Player where
  queue := .empty dice
  volume := volume.clamp .zero maxVolume

/-- A volume that may be set: a number from 0 to 1.5. -/
def validVolume (volume : Single) : Bool := Single.zero.le volume && volume.le maxVolume

/-! ### Reading -/

def state (player : Player) : PlaybackState :=
  if player.destroyed then .destroyed
  else if player.current.isNone then .idle
  else if player.paused then .paused
  else .playing

def isPlaying (player : Player) : Bool := player.state = .playing

def isIdle (player : Player) : Bool := player.current.isNone && ! player.paused

def trackCount (player : Player) : Nat := player.queue.size + player.current.isSome.toNat

def countOf (player : Player) (user : UserId) : Nat :=
  player.queue.countOf user + (player.current.any (·.requester = user)).toNat

def held (player : Player) : List Track := player.current.toList ++ player.queue.tracks

def counts (player : Player) : TrackCounts where
  total := player.trackCount
  ofUser := player.countOf

def streamCount (player : Player) : Nat :=
  player.queue.streamCount + (player.current.any (·.isStream)).toNat

/-- The time left of the current track when the node is at a position; a live stream has none. -/
def currentRemaining (player : Player) (position : Millis) : Millis :=
  match player.current with
  | none => 0
  | some track =>
    match track.duration? with
    | none => 0
    | some duration => Millis.between (Millis.between track.startPosition position) duration

def remainingMillis (player : Player) (position : Millis) : Millis :=
  player.currentRemaining position + player.queue.totalMillis

/-- The history from place `start` up to `stop`, newest first. -/
def historyRange (player : Player) (start stop : Nat) : List Track :=
  (player.history.reverse.drop start).take (stop - start)

/-- The current track followed by the queue in the order of playing, from place `start` up to
`stop`. -/
def tracksInRange (player : Player) (start stop : Nat) : List Track × Player :=
  if start < stop then
    let (upcoming, queue) := player.queue.range 0 (stop - player.current.isSome.toNat)
    (((player.current.toList ++ upcoming).drop start).take (stop - start), { player with queue })
  else ([], player)

def remaining (player : Player) : List Track × Player :=
  let (tracks, queue) := player.queue.ordered
  (tracks, { player with queue })

def info (player : Player) (position : Millis) : PlayerInfo × Player :=
  let (tracks, player) := player.tracksInRange 0 statusPreview
  ({ playing := player.isPlaying
     paused := player.paused
     shuffled := player.queue.shuffle
     repeatMode := player.queue.repeatMode
     positionMillis := if player.isPlaying then some position else none
     queue := tracks.map TrackInfo.ofTrack }, player)

/-! ### Changing -/

def setQueue (player : Player) (change : TrackQueue → TrackQueue) : Player :=
  { player with queue := change player.queue }

/-- What the player does next when it is to load a track. -/
inductive Next
  | destroyed
  /-- A track is loaded already, or playback is held back. -/
  | busy
  | empty
  | load (track : Track) (start : Millis) (announce : Bool)

/-- Choose the track to load and make it the current one. A retry, or a start that is meant for an
idle player only, gives way to a track that is current already. -/
def next (player : Player) (silent onlyIfIdle retrying announces : Bool) : Next × Player :=
  if player.destroyed then (.destroyed, player)
  else if onlyIfIdle && (player.current.isSome || player.paused) ||
      retrying && player.current.isSome then (.busy, player)
  else
    match player.queue.take with
    | (none, queue) => (.empty, { player with queue, current := none })
    | (some track, queue) =>
      let loaded := track.fromStart
      let announce :=
        ! silent && announces && queue.repeatMode ≠ .single && ! player.paused
      (.load loaded track.playStart announce,
        { player with queue, current := some loaded, lastLoaded := some loaded })

def discard (player : Player) (id : TrackId) : Player :=
  { player with
    queue := player.queue.skipped
    current := player.current.filter (·.id ≠ id)
    lastLoaded := player.lastLoaded.filter (·.id ≠ id) }

/-- Move the loaded track to the history, which forgets its oldest tracks. -/
def finish (player : Player) : Player :=
  match player.lastLoaded with
  | none => { player with current := none }
  | some track =>
    let history := player.history ++ [track]
    { player with
      current := none
      lastLoaded := none
      history := history.drop (history.length - historyLimit) }

def fail (player : Player) : Option Track × Player :=
  (player.lastLoaded,
    { player with queue := player.queue.skipped, current := none, lastLoaded := none })

def release (player : Player) : Player :=
  { player with queue := player.queue.skipped, current := none }

def emptied (player : Player) : Player :=
  { player with queue := player.queue.clear, current := none }

def close (player : Player) : Player :=
  { player.emptied with destroyed := true, lastLoaded := none }

def removeAll (player : Player) (ids : List TrackId) : List Track × Player :=
  let (removed, queue) := player.queue.removeAll ids false
  (removed, { player with queue })

def isCurrentIn (player : Player) (ids : List TrackId) : Bool := player.current.any (·.id ∈ ids)

/-- Whether a user may skip the listed tracks: the current one only if it is the user's, and only
if all queued tracks of the user are listed. -/
def maySkip (player : Player) (user : UserId) (ids : List TrackId) : Bool :=
  player.current.all (fun track => track.id ∉ ids || track.requester = user) &&
    player.queue.ownsAll user ids

/-- Where a seek to a position within the current track leads. -/
inductive SeekTarget
  | nothingPlaying
  | liveStream
  | notSeekable
  | outOfRange (duration : Millis)
  | position (target : Millis)

def seekTarget (player : Player) (position : Millis) : SeekTarget :=
  match player.current with
  | none => .nothingPlaying
  | some track =>
    if track.isStream then .liveStream
    else if ! track.audio.isSeekable then .notSeekable
    else
      let duration := track.duration?.getD 0
      if duration < position then .outOfRange duration
      else .position (track.startPosition + position)

end Player

end Jukebox
