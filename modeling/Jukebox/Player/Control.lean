import Jukebox.Player.Operation

/-!
What can be done with a player: queueing, playing on when a track ends, skipping, pausing,
seeking, the settings, and the end of the player. Each operation says when it refuses; what a node
failure leaves half done stays as it is.
-/
namespace Jukebox.Session

open Operation

def ensureAlive : Operation Unit := do
  if ← get (·.player.destroyed) then fail .destroyed

theorem run_ensureAlive (session : Session) :
    ensureAlive.run session =
      (if session.player.destroyed then .error .destroyed else .ok (), session) := by
  unfold ensureAlive
  rw [run_bind, run_get]
  cases session.player.destroyed <;> rfl

/-! ### Loading tracks -/

/-- End a try at loading with the last refusal of the node, if there was one. -/
def conclude (lastError : Option PlayerError) : Operation Unit := do
  change publish
  match lastError with
  | some cause => fail cause
  | none => pure ()

/-- Load a chosen track. The failure of the node is the outcome, not a failure of the operation. -/
def load (track : Track) (start : Millis) (announce : Bool) :
    Operation (Except PlayerError Unit) := do
  let outcome ← (ask (.play track.audio start track.endPosition?)).attempt
  match outcome with
  | .ok () =>
    change fun session => (session.started track announce).publish
  | .error _ =>
    change fun session => (session.setPlayer (·.discard track.id)).loadFailed (some track)
  return outcome

/-- Try to load tracks until the node accepts one, at most so many. -/
def tryTracks (silent onlyIfIdle : Bool) : Nat → Option PlayerError → Operation Unit
  | 0, lastError => conclude lastError
  | attempts + 1, lastError => do
    let next ← use fun session => session.withPlayer
      (·.next silent onlyIfIdle lastError.isSome session.services.announceTracks)
    match next with
    | .destroyed => fail .destroyed
    | .busy => pure ()
    | .empty => conclude lastError
    | .load track start announce =>
      match ← load track start announce with
      | .ok () => pure ()
      | .error cause => tryTracks silent onlyIfIdle attempts (some cause)

/-- Take tracks until the node accepts one. Under repeat all a refused track returns to the queue,
so there are no more tries than the queue has tracks, and one. -/
def advance (silent onlyIfIdle : Bool) : Operation Unit := do
  let attempts ← get (·.player.queue.size + 1)
  tryTracks silent onlyIfIdle attempts none

def loadAndPlay (silent : Bool) : Operation Unit := advance silent false

def startIfIdle (silent : Bool) : Operation Unit := advance silent true

def startOrPublish (idle : Bool) : Operation Unit :=
  if idle then startIfIdle false else change publish

/-! ### Queueing -/

/-- Use the limits; a failure of their source is a failure of the operation. -/
def checkLimits {α : Type}
    (check : LimitsAnswer → TrackCounts → Metrics → Except String α × Metrics) :
    Operation α := do
  let outcome ← use fun session =>
    session.setMetrics (check session.services.limits session.player.counts)
  ofExcept (outcome.mapError .backend)

def enqueue (track : Track) (level : PermissionLevel) : Operation Unit := do
  ensureAlive
  let status ← checkLimits fun limits counts =>
    Admission.check limits track level counts 0
  if ! status.allowed then fail (.queueRejected status.code status.message)
  let idle ← use fun session => session.withPlayer fun player =>
    (player.isIdle, player.setQueue (·.add track false))
  startOrPublish idle

/-- Queue the tracks of a batch that the limits allow; the answer tells the status of each. -/
def enqueueAll (tracks : List Track) (level : PermissionLevel) :
    Operation (List LimitStatus) := do
  ensureAlive
  let statuses ← checkLimits fun limits counts =>
    Admission.checkAll limits tracks level counts
  let accepted := ((tracks.zip statuses).filter (·.2.allowed)).map (·.1)
  let idle ← use fun session => session.withPlayer fun player =>
    (player.isIdle, player.setQueue (·.addAll accepted false))
  startOrPublish idle
  return statuses

/-! ### Ends of tracks -/

def trackEnded (reason : EndReason) : Operation Unit := do
  if ← get (·.player.destroyed) then pure ()
  else
    match reason with
    | .finished | .stopped =>
      change (·.setPlayer Player.finish)
      loadAndPlay false
    | .loadFailed =>
      change fun session =>
        let (track, session) := session.withPlayer Player.fail
        session.loadFailed track
      loadAndPlay false
    | .cleanup | .replaced => pure ()

/-! ### Playback -/

/-- Cut the current track; the next one starts when the node reports its end. -/
def skip : Operation Unit := do
  ensureAlive
  change (·.setPlayer Player.release)
  ask .stop

def stop : Operation Unit := do
  ensureAlive
  change (·.setPlayer Player.emptied)
  ask .stop
  change publish

/-- Hold playback back or let it go on; a player with nothing loaded then starts the queue. -/
def setPaused (paused : Bool) : Operation Unit := do
  ensureAlive
  let loadNext ← use fun session => session.withPlayer fun player =>
    (! paused && player.current.isNone && ! player.queue.tracks.isEmpty, { player with paused })
  ask (.pause paused)
  startOrPublish loadNext

def seek (position : Millis) : Operation Unit := do
  match ← get (·.player.seekTarget position) with
  | .nothingPlaying => fail .nothingPlaying
  | .liveStream => fail .liveStream
  | .notSeekable => fail .notSeekable
  | .outOfRange duration => fail (.outOfRange position duration)
  | .position target => ask (.seek target)

def setVolume (volume : Single) : Operation Unit := do
  if ! Player.validVolume volume then fail (.invalidVolume volume)
  ensureAlive
  change (·.setPlayer ({ · with volume }))
  ask (.volume volume)

/-! ### Settings -/

def setQueue (f : TrackQueue → TrackQueue) : Operation Unit :=
  change fun session => (session.setPlayer (·.setQueue f)).publish

def setRepeat (mode : RepeatMode) : Operation Unit := setQueue (·.setRepeat mode)

def setShuffle (on : Bool) : Operation Unit := setQueue (·.setShuffle on)

def setRoundRobin (on : Bool) : Operation Unit := setQueue (·.setRoundRobin on)

def reshuffle : Operation Unit := setQueue (·.reshuffle)

def join (channel : ChannelId) : Operation Unit := do
  ensureAlive
  if (← get (·.node.channel)) = some channel then pure () else ask (.connect channel)

/-! ### Skipping chosen tracks -/

def skipTracks (ids : List TrackId) : Operation Nat := do
  let (removed, skipCurrent) ← use fun session => session.withPlayer fun player =>
    let (removed, player) := player.removeAll ids
    ((removed.length, player.isCurrentIn ids), player)
  if skipCurrent then skip else change publish
  return removed + skipCurrent.toNat

def skipTracksFor (user : UserId) (level : PermissionLevel) (ids : List TrackId) :
    Operation Nat := do
  let allowed ← get (·.player.maySkip user ids)
  if ! level.isElevated && ! allowed then fail .skipDenied
  skipTracks ids

/-! ### The end -/

/-- Empty the queue, cut the current track and let go of the node. A second time does nothing, and
a node that fails is not minded. -/
def destroy : Operation Unit := do
  if ← get (·.player.destroyed) then pure ()
  else
    change (·.setPlayer Player.close)
    if (← get (·.node.state)) = .destroyed then pure ()
    else
      (ask .stop).ignoring
      (ask .destroy).ignoring
    change publishGone

end Jukebox.Session
