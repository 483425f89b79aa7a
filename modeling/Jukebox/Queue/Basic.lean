import Jukebox.Order.Shuffle
import Jukebox.Order.RoundRobin
import Jukebox.Queue.RepeatMode

/-!
The queue of one guild. The base list is the only truth; the shuffled and the round-robin views
are lists of ids made from it, kept until they no longer fit it. The dice say what every later
shuffle draws.
-/
namespace Jukebox

structure TrackQueue where
  tracks : List Track := []
  shuffleView : Option (List TrackId) := none
  roundRobinView : Option (List TrackId) := none
  shuffle : Bool := false
  roundRobin : Bool := false
  repeatMode : RepeatMode := .off
  /-- What a take under repeat single gives again. -/
  lastTaken : Option Track := none
  /-- The requester of the track taken last. -/
  anchor : Option UserId := none
  dice : Dice

namespace TrackQueue

def empty (dice : Dice) : TrackQueue := { dice }

def ids (queue : TrackQueue) : List TrackId := queue.tracks.map (·.id)

def size (queue : TrackQueue) : Nat := queue.tracks.length

/-! ### Views -/

def lastPosition? (id : TrackId) : List TrackId → Option Nat
  | [] => none
  | head :: rest =>
    match lastPosition? id rest with
    | some position => some (position + 1)
    | none => if head = id then some 0 else none

/-- The positions in the base list that a view stands for; `none` if it does not fit the list. -/
def positions? (queue : TrackQueue) (view : List TrackId) : Option (List Nat) :=
  if view.length = queue.size then view.mapM (lastPosition? · queue.ids) else none

def resolve? (queue : TrackQueue) (view : Option (List TrackId)) : Option (List Nat) :=
  view.bind queue.positions?

def basePositions (queue : TrackQueue) : List Nat := List.range queue.size

def dropViews (queue : TrackQueue) : TrackQueue :=
  { queue with shuffleView := none, roundRobinView := none }

/-- Unless told to be silent, a change of the base list drops the views. -/
def dropViewsUnless (silent : Bool) (queue : TrackQueue) : TrackQueue :=
  if silent then queue else queue.dropViews

def forget (queue : TrackQueue) (id : TrackId) : TrackQueue :=
  { queue with
    shuffleView := queue.shuffleView.map (·.filter (· ≠ id))
    roundRobinView := queue.roundRobinView.map (·.filter (· ≠ id)) }

/-- Draw a new shuffled view if the stored one does not fit. The round-robin view is built on the
shuffled one and goes with it. -/
def withShuffleView (queue : TrackQueue) : TrackQueue :=
  match queue.resolve? queue.shuffleView with
  | some _ => queue
  | none =>
    let (tracks, dice) := Shuffle.rekeyFromDice queue.tracks queue.dice
    { queue with
      tracks, dice
      shuffleView := some ((Shuffle.byKey tracks).map (·.id))
      roundRobinView := none }

def dealingPositions (queue : TrackQueue) : List Nat :=
  if queue.shuffle then (queue.resolve? queue.shuffleView).getD queue.basePositions
  else queue.basePositions

def withRoundRobinView (queue : TrackQueue) : TrackQueue :=
  let queue := if queue.shuffle then queue.withShuffleView else queue
  match queue.resolve? queue.roundRobinView with
  | some _ => queue
  | none =>
    let source := queue.dealingPositions.filterMap (queue.tracks[·]?)
    { queue with
      roundRobinView := some ((RoundRobin.order source queue.anchor).map (·.id)) }

def refresh (queue : TrackQueue) : TrackQueue :=
  if queue.roundRobin then queue.withRoundRobinView
  else if queue.shuffle then queue.withShuffleView
  else queue

/-- The positions in the order of the active policy, as far as the stored views tell. -/
def activePositions (queue : TrackQueue) : List Nat :=
  if queue.roundRobin then (queue.resolve? queue.roundRobinView).getD queue.basePositions
  else if queue.shuffle then (queue.resolve? queue.shuffleView).getD queue.basePositions
  else queue.basePositions

/-! ### Reading -/

/-- The track that repeat single keeps giving. -/
def sticky? (queue : TrackQueue) : Option Track :=
  if queue.repeatMode = .single then queue.lastTaken else none

def nextPosition? (queue : TrackQueue) : Option Nat := queue.activePositions.head?

def peek (queue : TrackQueue) : Option Track × TrackQueue :=
  match queue.sticky? with
  | some track => (some track, queue)
  | none =>
    let queue := queue.refresh
    (queue.nextPosition?.bind (queue.tracks[·]?), queue)

/-- The tracks from place `start` up to, not including, place `stop` of the active order. An
empty range leaves the views alone. -/
def range (queue : TrackQueue) (start stop : Nat) : List Track × TrackQueue :=
  if start < stop then
    let queue := queue.refresh
    (((queue.activePositions.drop start).take (stop - start)).filterMap (queue.tracks[·]?), queue)
  else ([], queue)

def ordered (queue : TrackQueue) : List Track × TrackQueue := queue.range 0 queue.size

def ownsAll (queue : TrackQueue) (user : UserId) (ids : List TrackId) : Bool :=
  (queue.tracks.filter (·.requester = user)).all (·.id ∈ ids)

def countOf (queue : TrackQueue) (user : UserId) : Nat :=
  queue.tracks.countP (·.requester = user)

/-- The length of all queued tracks; a live stream counts as nothing. -/
def totalMillis (queue : TrackQueue) : Millis :=
  (queue.tracks.filterMap (·.duration?)).foldl (· + ·) 0

def streamCount (queue : TrackQueue) : Nat := queue.tracks.countP (·.isStream)

/-! ### Changing -/

/-- Put a track without priority at the end and one with priority at the front. -/
def place (queue : TrackQueue) (track : Track) : TrackQueue :=
  { queue with
    tracks := if track.isPriority then track :: queue.tracks else queue.tracks ++ [track] }

def add (queue : TrackQueue) (track : Track) (silent : Bool) : TrackQueue :=
  (queue.place track).dropViewsUnless silent

/-- Add tracks in their own order, those with priority in front of the queue. -/
def addAll (queue : TrackQueue) (tracks : List Track) (silent : Bool) : TrackQueue :=
  let (priority, ordinary) := tracks.partition (·.isPriority)
  { queue with tracks := priority ++ queue.tracks ++ ordinary }.dropViewsUnless silent

/-- Put a taken track back under repeat all: without priority, at the end, from its start. -/
def requeue (queue : TrackQueue) (track : Track) : Track × TrackQueue :=
  if queue.repeatMode = .all then
    let (track, dice) := track.demote queue.dice
    (track, { queue with dice }.add track.fromStart true)
  else (track, queue)

def takeAt (queue : TrackQueue) (position : Nat) (track : Track) : Track × TrackQueue :=
  let queue := { queue with tracks := queue.tracks.eraseIdx position }.forget track.id
  let (track, queue) := queue.requeue track
  (track, { queue with lastTaken := some track.fromStart, anchor := some track.requester })

/-- The next track of the active policy. Repeat single gives the last one again and leaves the
queue alone. -/
def take (queue : TrackQueue) : Option Track × TrackQueue :=
  match queue.sticky? with
  | some track => (some track, queue)
  | none =>
    let queue := queue.refresh
    match queue.nextPosition? with
    | none => (none, queue)
    | some position =>
      match queue.tracks[position]? with
      | none => (none, queue)
      | some track =>
        let (track, queue) := queue.takeAt position track
        (some track, queue)

def remove (queue : TrackQueue) (id : TrackId) (silent : Bool) : Option Track × TrackQueue :=
  match queue.tracks.find? (·.id = id) with
  | none => (none, queue)
  | some track =>
    (some track,
      ({ queue with tracks := queue.tracks.eraseP (·.id = id) }.forget id).dropViewsUnless silent)

def removeAll (queue : TrackQueue) (ids : List TrackId) (silent : Bool) :
    List Track × TrackQueue :=
  let (removed, kept) := queue.tracks.partition (·.id ∈ ids)
  (removed,
    (removed.foldl (fun queue track => TrackQueue.forget queue track.id)
      { queue with tracks := kept }).dropViewsUnless silent)

/-- Empty the queue and end any repetition; the settings stay. -/
def clear (queue : TrackQueue) : TrackQueue :=
  { queue with
    tracks := [], shuffleView := none, roundRobinView := none, lastTaken := none, anchor := none }

/-- The current track was skipped: repeat single must not return to it. -/
def skipped (queue : TrackQueue) : TrackQueue := { queue with lastTaken := none }

def reshuffle (queue : TrackQueue) : TrackQueue := queue.dropViews

def setShuffle (queue : TrackQueue) (on : Bool) : TrackQueue :=
  { queue with shuffle := on }.dropViews

def setRoundRobin (queue : TrackQueue) (on : Bool) : TrackQueue :=
  { queue with roundRobin := on, roundRobinView := none }

def setRepeat (queue : TrackQueue) (mode : RepeatMode) : TrackQueue :=
  { queue with repeatMode := mode }

/-! ### Draining -/

/-- Take up to so many tracks, peeking before each take. The flag tells whether every peek agreed
with the take after it. -/
def drain : Nat → TrackQueue → List Track × Bool × TrackQueue
  | 0, queue => ([], true, queue)
  | fuel + 1, queue =>
    let (next, queue) := queue.peek
    let (taken, queue) := queue.take
    let agree := next.map (·.id) = taken.map (·.id)
    match taken with
    | none => ([], agree, queue)
    | some track =>
      let (rest, restAgree, queue) := drain fuel queue
      (track :: rest, agree && restAgree, queue)

end TrackQueue

end Jukebox
