import Jukebox.Track.Basic
import Jukebox.Text.Span
import Jukebox.Text.Digits

/-!
What is told to the listeners of a guild, and the channel where each guild wants to be told.
-/
namespace Jukebox

namespace Announcement

def nowPlaying (track : Track) : String :=
  let requester := "(pedido por <@" ++ decimal track.requester.word.toNat ++ ">)"
  match track.duration? with
  | some millis =>
    "🎵 Reproduciendo **" ++ track.title ++ "** [" ++ Span.ofMillis millis.toNat ++ "] " ++
      requester
  | none => "🔴 Reproduciendo en vivo **" ++ track.title ++ "** " ++ requester

def loadFailed : Option Track → String
  | some track => "❌ No se pudo reproducir **" ++ track.title ++ "**, pasando a la siguiente"
  | none => "❌ No se pudo reproducir la pista, pasando a la siguiente"

end Announcement

abbrev AnnouncementChannels := List (GuildId × ChannelId)

namespace AnnouncementChannels

def set (channels : AnnouncementChannels) (guild : GuildId) (channel : ChannelId) :
    AnnouncementChannels := (guild, channel) :: channels

def get? (channels : AnnouncementChannels) (guild : GuildId) : Option ChannelId :=
  channels.lookup guild

end AnnouncementChannels

end Jukebox
