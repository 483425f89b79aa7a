import Jukebox.Track.Basic

/-!
Where tracks come from. A request is made into a new track with a fresh id; a track that was
issued before can be had again as a copy with the same id.
-/
namespace Jukebox

/-- What somebody asks to hear. -/
structure TrackRequest where
  audio : Audio
  requester : UserId
  urgent : Bool := false
  fromPlaylist : Bool := false
  chapter : Option Chapter := none

/-- A request for a new track, or for a copy of one issued before. -/
inductive TrackSource
  | fresh (request : TrackRequest)
  | copyOf (id : TrackId)

structure Catalogue where
  mint : Mint
  issued : List Track := []

namespace Catalogue

def issue (catalogue : Catalogue) (request : TrackRequest) : Track × Catalogue :=
  let (track, mint) :=
    if request.urgent then catalogue.mint.urgent request.audio request.requester
    else catalogue.mint.request request.audio request.requester
  let track := { track with fromPlaylist := request.fromPlaylist, chapter := request.chapter }
  (track, { mint, issued := track :: catalogue.issued })

/-- The track of a source; a copy of an id that was never issued is no track. -/
def obtain (catalogue : Catalogue) : TrackSource → Option Track × Catalogue
  | .fresh request =>
    let (track, catalogue) := catalogue.issue request
    (some track, catalogue)
  | .copyOf id => (catalogue.issued.find? (·.id = id), catalogue)

def obtainAll (catalogue : Catalogue) : List TrackSource → List Track × Catalogue
  | [] => ([], catalogue)
  | source :: rest =>
    let (track, catalogue) := catalogue.obtain source
    let (tracks, catalogue) := catalogue.obtainAll rest
    (track.toList ++ tracks, catalogue)

end Catalogue

end Jukebox
