import Jukebox.Limits
import Jukebox.Number.Decimal

/-!
Why a player refuses a request, and the words it uses.
-/
namespace Jukebox

inductive PlayerError
  | nothingPlaying
  | liveStream
  | notSeekable
  | outOfRange (position duration : Millis)
  | invalidVolume (volume : Single)
  | skipDenied
  | queueRejected (code : LimitCode) (message : String)
  | destroyed
  /-- The node or the source of the limits failed. -/
  | backend (cause : String)
deriving DecidableEq

namespace PlayerError

def message : PlayerError → String
  | nothingPlaying => "No hay nada reproduciéndose"
  | liveStream => "No se puede adelantar una transmisión en vivo"
  | notSeekable => "Esta pista no permite seek"
  | outOfRange position duration =>
    "Posición " ++ decimal position.toNat ++ "ms fuera de la pista (" ++
      decimal duration.toNat ++ "ms)"
  | invalidVolume volume =>
    "Volumen inválido: " ++ volume.text ++ " (debe estar entre 0 y 150%)"
  | skipDenied => "No puedes saltar pistas que no agregaste"
  | queueRejected _ message => message
  | destroyed => "El player de este servidor ya fue destruido"
  | backend cause => "Error del nodo de audio: " ++ cause

end PlayerError

end Jukebox
