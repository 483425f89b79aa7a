import Jukebox.Track.Basic
import Jukebox.Number.Single

/-!
What an audio node can be asked to do, what it tells about a track that ended, and the state of
the link to it.
-/
namespace Jukebox

/-- A request to the node. -/
inductive Command
  | play (audio : Audio) (start : Millis) (stop : Option Millis)
  | stop
  | pause (on : Bool)
  | seek (position : Millis)
  | volume (level : Single)
  | connect (channel : ChannelId)
  | destroy
deriving DecidableEq

inductive CommandKind
  | play
  | stop
  | pause
  | seek
  | volume
  | connect
  | destroy
deriving DecidableEq

namespace CommandKind

def name : CommandKind → String
  | play => "play"
  | stop => "stop"
  | pause => "pause"
  | seek => "seek"
  | volume => "volume"
  | connect => "connect"
  | destroy => "destroy"

def ofName? (name : String) : Option CommandKind :=
  [play, stop, pause, seek, volume, connect, destroy].find? (·.name = name)

end CommandKind

def Command.kind : Command → CommandKind
  | play .. => .play
  | stop => .stop
  | pause _ => .pause
  | seek _ => .seek
  | volume _ => .volume
  | connect _ => .connect
  | destroy => .destroy

/-- Why the node reports the end of a track. -/
inductive EndReason
  | finished
  | stopped
  | cleanup
  | loadFailed
  | replaced
deriving DecidableEq

inductive LinkState
  | notConnected
  | connected
  | destroyed
deriving DecidableEq

/-- What a node answers to a command: it was done, or why not. -/
abbrev Answer := Except String Unit

end Jukebox
