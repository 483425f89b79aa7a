import Jukebox.Snowflake

/-!
The roster of a registry: which player serves each guild, and which constructions are under way.
Players and constructions go by number. Each of `playerOf?`, `join`, `enlist`, `unmark`, `conclude`
and `dismiss` is one indivisible step; whoever asks for a player looks it up and then joins, and a
construction enlists its player before its mark goes away. So a guild has at most one construction
at a time, and nobody who asks can miss both the mark and the player.
-/
namespace Jukebox

/-- Why a construction gave no player. -/
inductive ConstructionFault
  /-- The snapshot of the guild could not be had. -/
  | unreadable (cause : String)
  | aborted
deriving DecidableEq

structure Construction where
  guild : GuildId
  /-- The number of the player, or why there is none; nothing while it is under way. -/
  outcome : Option (Except ConstructionFault Nat) := none

/-- What somebody who asks for a player is given. -/
inductive Ticket
  | served (player : Nat)
  | awaiting (construction : Nat)
deriving DecidableEq

structure Roster where
  /-- The player of each guild that has one. -/
  registered : List (GuildId × Nat) := []
  /-- The guilds marked as being under construction, in the order of the marks. -/
  pending : List (GuildId × Nat) := []
  /-- All constructions that were ever begun; each has its place as its number. -/
  constructions : List Construction := []

namespace Roster

def playerOf? (roster : Roster) (guild : GuildId) : Option Nat := roster.registered.lookup guild

def begin (roster : Roster) (guild : GuildId) : Nat × Roster :=
  let number := roster.constructions.length
  (number, { roster with
    pending := roster.pending ++ [(guild, number)]
    constructions := roster.constructions ++ [{ guild }] })

/-- Join the construction that is under way. If there is none, one may have ended since the player
was looked up, so look again before beginning another. -/
def join (roster : Roster) (guild : GuildId) : Ticket × Roster :=
  match roster.pending.lookup guild with
  | some number => (.awaiting number, roster)
  | none =>
    match roster.playerOf? guild with
    | some player => (.served player, roster)
    | none =>
      let (number, roster) := roster.begin guild
      (.awaiting number, roster)

def ask (roster : Roster) (guild : GuildId) : Ticket × Roster :=
  match roster.playerOf? guild with
  | some player => (.served player, roster)
  | none => roster.join guild

def enlist (roster : Roster) (guild : GuildId) (player : Nat) : Roster :=
  { roster with
    registered := roster.registered.filter (·.1 ≠ guild) ++ [(guild, player)] }

def enlistIfBuilt (roster : Roster) (guild : GuildId) :
    Except ConstructionFault Nat → Roster
  | .ok player => roster.enlist guild player
  | .error _ => roster

def unmark (roster : Roster) (guild : GuildId) : Roster :=
  { roster with pending := roster.pending.filter (·.1 ≠ guild) }

def conclude (roster : Roster) (number : Nat) (outcome : Except ConstructionFault Nat) : Roster :=
  { roster with
    constructions :=
      roster.constructions.modify number ({ · with outcome := some outcome }) }

/-- The steps at the end of a construction, in their order. -/
def finish (roster : Roster) (guild : GuildId) (number : Nat)
    (outcome : Except ConstructionFault Nat) : Roster :=
  ((roster.enlistIfBuilt guild outcome).unmark guild).conclude number outcome

def dismiss (roster : Roster) (guild : GuildId) : Option Nat × Roster :=
  (roster.playerOf? guild,
    { roster with registered := roster.registered.filter (·.1 ≠ guild) })

/-- What a ticket gives; a construction without an outcome broke off. -/
def redeem (roster : Roster) : Ticket → Except ConstructionFault Nat
  | .served player => .ok player
  | .awaiting number =>
    match roster.constructions[number]?.bind (·.outcome) with
    | some outcome => outcome
    | none => .error .aborted

end Roster

end Jukebox
