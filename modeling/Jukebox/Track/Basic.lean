import Jukebox.Snowflake
import Jukebox.Millis
import Jukebox.Order.Dice

/-!
Tracks. The audio is what the node is asked to play; the track adds who asked for it, its place
among the others (priority and sort key), and possibly a chapter that narrows the audio to a part
with a title of its own.
-/
namespace Jukebox

/-- The identity of a track. A copy keeps it, a new request gets a fresh one. -/
@[ext]
structure TrackId where
  word : UInt64
deriving DecidableEq

structure Audio where
  identifier : String
  title : String
  author : Option String
  uri : Option String
  lengthMillis : Millis
  isStream : Bool
  isSeekable : Bool
deriving DecidableEq

namespace Audio

def recording (identifier title : String) (lengthMillis : Millis) : Audio where
  identifier := identifier
  title := title
  author := none
  uri := none
  lengthMillis := lengthMillis
  isStream := false
  isSeekable := true

def live (identifier title : String) : Audio where
  identifier := identifier
  title := title
  author := none
  uri := none
  lengthMillis := 0
  isStream := true
  isSeekable := false

end Audio

/-- A part of a longer recording. -/
structure Chapter where
  startMillis : Millis
  endMillis : Millis
  title : String
deriving DecidableEq

structure Track where
  id : TrackId
  audio : Audio
  requester : UserId
  isPriority : Bool
  sortKey : Nat
  fromPlaylist : Bool
  chapter : Option Chapter
  /-- Where the next play starts, if not at the start of the track. -/
  resumeAt : Option Millis
deriving DecidableEq

/-- Priority tracks sort before all drawn keys. -/
def prioritySortKey : Nat := 0

namespace Track

def sameAs (a b : Track) : Bool := a.id = b.id

def resumingAt (track : Track) (position : Millis) : Track :=
  { track with resumeAt := some position }

def fromStart (track : Track) : Track := { track with resumeAt := none }

def isStream (track : Track) : Bool := track.audio.isStream

def title (track : Track) : String :=
  match track.chapter with
  | some chapter => chapter.title
  | none => track.audio.title

/-- How long the track plays; a live stream has no length. -/
def duration? (track : Track) : Option Millis :=
  if track.audio.isStream then none
  else
    match track.chapter with
    | some chapter => some (Millis.between chapter.startMillis chapter.endMillis)
    | none => some track.audio.lengthMillis

def startPosition (track : Track) : Millis :=
  match track.chapter with
  | some chapter => chapter.startMillis
  | none => 0

def endPosition? (track : Track) : Option Millis := track.chapter.map (·.endMillis)

def playStart (track : Track) : Millis := track.resumeAt.getD track.startPosition

/-- Give the track a fresh key; a priority track keeps its own and nothing is drawn. -/
def rekey {m : Type → Type} [Monad m] (draw : m Nat) (track : Track) : m Track :=
  if track.isPriority then pure track
  else do
    let key ← draw
    return { track with sortKey := key }

/-- Take the priority away; the track then gets a drawn key. -/
def demote (track : Track) (dice : Dice) : Track × Dice :=
  if track.isPriority then
    ({ track with isPriority := false, sortKey := dice.roll.1 }, dice.roll.2)
  else (track, dice)

end Track

/-- Issues track ids in order, and a sort key with each. -/
structure Mint where
  next : UInt64 := 1
  dice : Dice

namespace Mint

def request (mint : Mint) (audio : Audio) (requester : UserId) : Track × Mint :=
  let (key, dice) := mint.dice.roll
  ({ id := ⟨mint.next⟩, audio, requester, isPriority := false, sortKey := key,
     fromPlaylist := false, chapter := none, resumeAt := none },
   { next := mint.next + 1, dice })

def urgent (mint : Mint) (audio : Audio) (requester : UserId) : Track × Mint :=
  let (track, mint) := mint.request audio requester
  ({ track with isPriority := true, sortKey := prioritySortKey }, mint)

end Mint

end Jukebox
