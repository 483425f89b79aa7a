import Jukebox.Node.Command
import Jukebox.Text.Digits

/-!
The link of one guild to a node server. It keeps what it was told; without a password it refuses
to connect, and nothing else ever fails. Once destroyed it stays so, even if it is connected again.
-/
namespace Jukebox

/-- Where the node server is and how to log in. -/
structure NodeServer where
  host : String
  port : UInt16
  password : String

def NodeServer.address (server : NodeServer) : String :=
  server.host ++ ":" ++ decimal server.port.toNat

structure NodeLink where
  authorized : Bool
  channel : Option ChannelId := none
  destroyed : Bool := false
  position : Millis := 0

namespace NodeLink

/-- A new link; only an empty password is known to be refused. -/
def toServer (server : NodeServer) : NodeLink := { authorized := ! server.password.isEmpty }

def state (link : NodeLink) : LinkState :=
  if link.destroyed then .destroyed
  else if link.channel.isSome then .connected
  else .notConnected

def perform (link : NodeLink) : Command → Answer × NodeLink
  | .play _ start _ => (.ok (), { link with position := start })
  | .stop => (.ok (), { link with position := 0 })
  | .pause _ => (.ok (), link)
  | .seek position => (.ok (), { link with position })
  | .volume _ => (.ok (), link)
  | .connect channel =>
    if link.authorized then (.ok (), { link with channel := some channel })
    else (.error "Lavalink sin contraseña configurada", link)
  | .destroy => (.ok (), { link with channel := none, destroyed := true })

end NodeLink

end Jukebox
