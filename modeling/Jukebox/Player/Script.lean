import Jukebox.Player.Restore

/-!
Scripts: what members, node and surroundings do with a player, step by step, and what each step
answers. A script can lay a cut-in for a kind of command: the next time the node is asked for such
a command, before it does anything, the steps of the cut-in are run on the same player.
-/
namespace Jukebox

/-- One step of a script. -/
inductive Step
  | enqueue (source : TrackSource) (level : PermissionLevel)
  | enqueueAll (sources : List TrackSource) (level : PermissionLevel)
  | loadAndPlay (silent : Bool)
  | trackEnded (reason : EndReason)
  | skip
  | stop
  | setPaused (paused : Bool)
  | seek (position : Millis)
  | setVolume (volume : Single)
  | setRepeat (mode : RepeatMode)
  | setShuffle (on : Bool)
  | setRoundRobin (on : Bool)
  | reshuffle
  | join (channel : ChannelId)
  | destroy
  | skipTracks (ids : List TrackId)
  | skipTracksFor (user : UserId) (level : PermissionLevel) (ids : List TrackId)
  | history (start stop : Nat)
  | tracks (start stop : Nat)
  | remaining
  | countOf (user : UserId)
  | guild
  | info
  | snapshot
  /-- Without a snapshot: there was one, but it could not be read. -/
  | restore (snapshot : Option PlayerSnapshot) (volumeSupported : Bool)
  | restoreSelf (volumeSupported : Bool)
  | setPosition (position : Millis)
  | reject (titles : List String)
  | failOn (kinds : List CommandKind)
  | killLink
  | setLimits (limits : LimitsAnswer)
  | cutIn (kind : CommandKind) (steps : List Step)
  /-- Nothing is done. -/
  | pass

/-- What a step answers. -/
inductive Reply
  | done
  | failed (cause : PlayerError)
  | unreadable
  | count (n : Nat)
  | statuses (list : List LimitStatus)
  | tracks (list : List Track)
  | guild (id : GuildId)
  | info (info : PlayerInfo)
  | snapshot (snapshot : PlayerSnapshot)

namespace Step

mutual

def cutInCount : Step → Nat
  | .cutIn _ steps => 1 + cutInCounts steps
  | _ => 0

def cutInCounts : List Step → Nat
  | [] => 0
  | step :: rest => step.cutInCount + cutInCounts rest

end

end Step

end Jukebox
