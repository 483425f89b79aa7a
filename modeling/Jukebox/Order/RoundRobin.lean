import Jukebox.Track.Basic

/-!
The round-robin order. Priority tracks come first as they stand. The others are dealt in rounds:
each round takes one pending track of every requester who still has some, starting with the
requester after the anchor, the one whose track was played last.
-/
namespace Jukebox.RoundRobin

/-- The requesters in the order of their first tracks. -/
def requesters (tracks : List Track) : List UserId := (tracks.map (·.requester)).eraseDups

/-- The requesters from the one after the anchor on; unchanged if the anchor is not among them. -/
def rotated (anchor : Option UserId) (users : List UserId) : List UserId :=
  match anchor.bind fun user => users.idxOf? user with
  | some index => users.rotateLeft (index + 1)
  | none => users

def pendingOf (tracks : List Track) (user : UserId) : List Track :=
  tracks.filter (·.requester = user)

/-- So many rounds, each taking the head of every list that has one. -/
def dealRounds {α : Type} : Nat → List (List α) → List α
  | 0, _ => []
  | rounds + 1, hands => hands.filterMap List.head? ++ dealRounds rounds (hands.map List.tail)

def deal {α : Type} (hands : List (List α)) : List α :=
  dealRounds ((hands.map List.length).foldr max 0) hands

def order (tracks : List Track) (anchor : Option UserId) : List Track :=
  let (priority, ordinary) := tracks.partition (·.isPriority)
  priority ++ deal ((rotated anchor (requesters ordinary)).map (pendingOf ordinary))

/-- Cut the requesters of a play order into rounds: a requester who is already in the round that
is being filled opens the next one. `current` is the round being filled. -/
def cutRounds (current : List UserId) : List UserId → List (List UserId)
  | [] => if current.isEmpty then [] else [current]
  | user :: rest =>
    if user ∈ current then current :: cutRounds [user] rest
    else cutRounds (current ++ [user]) rest

def roundsOf (tracks : List Track) : List (List UserId) :=
  cutRounds [] ((tracks.filter (! ·.isPriority)).map (·.requester))

end Jukebox.RoundRobin
