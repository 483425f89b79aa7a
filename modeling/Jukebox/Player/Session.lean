import Jukebox.Player.State
import Jukebox.Player.Failure
import Jukebox.Node.AudioNode
import Jukebox.Announcement
import Jukebox.Track.Catalogue

/-!
A player in its surroundings: the guild it plays for, the node it commands, and the services that
all players share. The services keep what was announced and published, oldest first.
-/
namespace Jukebox

structure Services where
  metrics : Metrics := {}
  /-- Everything that was announced, with the guild it was announced to. -/
  announcements : List (GuildId × String) := []
  /-- Every status that was published, with the guild it belongs to. -/
  updates : List (GuildId × PlayerInfo) := []
  catalogue : Catalogue
  limits : LimitsAnswer
  announceTracks : Bool := true
  today : Int

namespace Services

def announce (services : Services) (guild : GuildId) (message : String) : Services :=
  { services with announcements := services.announcements ++ [(guild, message)] }

def publish (services : Services) (guild : GuildId) (info : PlayerInfo) : Services :=
  { services with updates := services.updates ++ [(guild, info)] }

end Services

structure Session where
  guild : GuildId
  player : Player
  node : AudioNode
  services : Services

namespace Session

def setPlayer (session : Session) (change : Player → Player) : Session :=
  { session with player := change session.player }

def withPlayer {α : Type} (session : Session) (use : Player → α × Player) : α × Session :=
  let (value, player) := use session.player
  (value, { session with player })

def announce (session : Session) (message : String) : Session :=
  { session with services := session.services.announce session.guild message }

def info (session : Session) : PlayerInfo × Session :=
  session.withPlayer (·.info session.node.position)

/-- Publish the status; making it brings the view of the queue up to date. -/
def publish (session : Session) : Session :=
  let (info, session) := session.info
  { session with services := session.services.publish session.guild info }

theorem publish_player (session : Session) :
    session.publish.player = session.player.setQueue TrackQueue.refresh := by
  have hroom : ∀ playing : Bool, 0 < statusPreview - playing.toNat := by decide
  change (session.player.tracksInRange 0 statusPreview).2 = _
  simp only [Player.tracksInRange, TrackQueue.range, hroom, if_true]
  rfl

def publishGone (session : Session) : Session :=
  { session with services := session.services.publish session.guild .empty }

def started (session : Session) (track : Track) (announce : Bool) : Session :=
  let services := session.services
  let session := { session with
    services := { services with
      metrics := services.metrics.countStarted.logListener track.requester services.today } }
  if announce then session.announce (Announcement.nowPlaying track) else session

theorem started_player (session : Session) (track : Track) (announce : Bool) :
    (session.started track announce).player = session.player := by
  unfold started
  dsimp only
  split <;> rfl

theorem started_node (session : Session) (track : Track) (announce : Bool) :
    (session.started track announce).node = session.node := by
  unfold started
  dsimp only
  split <;> rfl

theorem started_limits (session : Session) (track : Track) (announce : Bool) :
    (session.started track announce).services.limits = session.services.limits := by
  unfold started
  dsimp only
  split <;> rfl

def loadFailed (session : Session) (track : Option Track) : Session :=
  let services := session.services
  { session with
    services := { services with metrics := services.metrics.countFailed } }.announce
      (Announcement.loadFailed track)

def setMetrics {α : Type} (session : Session) (use : Metrics → α × Metrics) : α × Session :=
  let (value, metrics) := use session.services.metrics
  (value, { session with services := { session.services with metrics } })

def perform (session : Session) (command : Command) : Answer × Session :=
  let (answer, node) := session.node.perform command
  (answer, { session with node })

end Session

end Jukebox
