import Jukebox.Registry.Roster
import Mathlib.Logic.Function.Basic

/-!
The lobby of a registry. Callers who ask for players, constructions, and dismissals all use the
roster. Each takes its steps one by one, and anything may happen between two of them. Left alone,
callers and constructions do what the roster does in one go.
-/
namespace Jukebox

inductive Progress
  | building
  /-- There is an outcome; the player, if it is one, does not serve the guild yet. -/
  | built (outcome : Except ConstructionFault Nat)
  /-- The player serves the guild; the mark of the construction is still there. -/
  | enlisted (outcome : Except ConstructionFault Nat)
  /-- The mark is gone; nobody has been told the outcome. -/
  | unmarked (outcome : Except ConstructionFault Nat)
  | concluded (outcome : Except ConstructionFault Nat)

namespace Progress

def inFlight : Progress → Bool
  | .building | .built _ | .enlisted _ => true
  | .unmarked _ | .concluded _ => false

def unlisted : Progress → Bool
  | .building | .built _ => true
  | .enlisted _ | .unmarked _ | .concluded _ => false

def told? : Progress → Option (Except ConstructionFault Nat)
  | .concluded outcome => some outcome
  | _ => none

theorem told?_eq_none_of_inFlight {progress : Progress} (h : progress.inFlight = true) :
    progress.told? = none := by
  cases progress with
  | building | built | enlisted => rfl
  | unmarked | concluded => cases h

theorem inFlight_of_unlisted {progress : Progress} (h : progress.unlisted = true) :
    progress.inFlight = true := by
  cases progress with
  | building | built => rfl
  | enlisted | unmarked | concluded => cases h

end Progress

inductive Errand
  | arrived
  /-- The guild had no player when it was looked up. -/
  | missed
  | holding (ticket : Ticket)
  | answered (ticket : Ticket) (answer : Except ConstructionFault Nat)

/-- The construction that a caller waits for or was answered by. -/
def Errand.joined? : Errand → Option Nat
  | .holding (.awaiting number) | .answered (.awaiting number) _ => some number
  | _ => none

structure Caller where
  guild : GuildId
  errand : Errand := .arrived

structure Lobby where
  roster : Roster := {}
  callers : List Caller := []
  /-- The progress of each construction, by its number. -/
  progress : Nat → Progress := fun _ => .building

/-- One indivisible step of somebody who uses the roster. -/
inductive LobbyEvent
  /-- Somebody comes for the player of a guild. -/
  | arrives (guild : GuildId)
  /-- A caller looks the player up. -/
  | looksUp (place : Nat)
  /-- A caller joins the construction that is marked, or looks again and begins one. -/
  | joins (place : Nat)
  /-- A caller is given what its ticket gives. -/
  | receives (place : Nat)
  /-- A construction comes to an outcome. -/
  | builds (number : Nat) (outcome : Except ConstructionFault Nat)
  /-- A construction with an outcome goes on: it enlists the player, takes its mark away, and tells
  the outcome. -/
  | goesOn (number : Nat)
  /-- The player of a guild is made to serve no more. -/
  | dismisses (guild : GuildId)

def LobbyEvent.isOf (number : Nat) : LobbyEvent → Bool
  | .builds other _ | .goesOn other => other = number
  | _ => false

namespace Lobby

def guildOf? (lobby : Lobby) (number : Nat) : Option GuildId :=
  lobby.roster.constructions[number]?.map (·.guild)

/-- A construction of a guild has been begun and is not over. -/
def InFlight (lobby : Lobby) (guild : GuildId) (number : Nat) : Prop :=
  lobby.guildOf? number = some guild ∧ (lobby.progress number).inFlight = true

/-- A ticket for a player gives it at once, and one for a construction once its outcome is told. -/
def ready (lobby : Lobby) : Ticket → Bool
  | .served _ => true
  | .awaiting number => (lobby.progress number).told?.isSome

def setErrand (lobby : Lobby) (place : Nat) (guild : GuildId) (errand : Errand) : Lobby :=
  { lobby with callers := lobby.callers.set place { guild, errand } }

def move (lobby : Lobby) (number : Nat) (progress : Progress) (roster : Roster) : Lobby :=
  { lobby with roster, progress := Function.update lobby.progress number progress }

/-- What an event does; one that cannot happen does nothing. -/
def step (lobby : Lobby) : LobbyEvent → Lobby
  | .arrives guild => { lobby with callers := lobby.callers ++ [{ guild }] }
  | .looksUp place =>
    match lobby.callers[place]? with
    | some ⟨guild, .arrived⟩ =>
      match lobby.roster.playerOf? guild with
      | some player => lobby.setErrand place guild (.holding (.served player))
      | none => lobby.setErrand place guild .missed
    | _ => lobby
  | .joins place =>
    match lobby.callers[place]? with
    | some ⟨guild, .missed⟩ =>
      let (ticket, roster) := lobby.roster.join guild
      { lobby with roster }.setErrand place guild (.holding ticket)
    | _ => lobby
  | .receives place =>
    match lobby.callers[place]? with
    | some ⟨guild, .holding ticket⟩ =>
      if lobby.ready ticket then
        lobby.setErrand place guild (.answered ticket (lobby.roster.redeem ticket))
      else lobby
    | _ => lobby
  | .builds number outcome =>
    match lobby.guildOf? number, lobby.progress number with
    | some _, .building => lobby.move number (.built outcome) lobby.roster
    | _, _ => lobby
  | .goesOn number =>
    match lobby.guildOf? number, lobby.progress number with
    | some guild, .built outcome =>
      lobby.move number (.enlisted outcome) (lobby.roster.enlistIfBuilt guild outcome)
    | some guild, .enlisted outcome =>
      lobby.move number (.unmarked outcome) (lobby.roster.unmark guild)
    | some _, .unmarked outcome =>
      lobby.move number (.concluded outcome) (lobby.roster.conclude number outcome)
    | _, _ => lobby
  | .dismisses guild => { lobby with roster := (lobby.roster.dismiss guild).2 }

def run (lobby : Lobby) (events : List LobbyEvent) : Lobby := events.foldl step lobby

/-! ### Left alone -/

/-- A caller who is not interrupted gets the ticket that asking for the player gives. -/
theorem ask_uninterrupted {lobby : Lobby} {place : Nat} {guild : GuildId}
    (hcaller : lobby.callers[place]? = some { guild }) :
    (lobby.run [.looksUp place, .joins place]).roster = (lobby.roster.ask guild).2 ∧
      (lobby.run [.looksUp place, .joins place]).callers[place]? =
        some ⟨guild, .holding (lobby.roster.ask guild).1⟩ := by
  have hplace := (List.getElem?_eq_some_iff.mp hcaller).1
  simp only [run, List.foldl_cons, List.foldl_nil, Roster.ask, step, hcaller]
  cases lobby.roster.playerOf? guild with
  | some player => simp [setErrand, hplace]
  | none => simp [setErrand, hplace]

/-- The steps of a construction that is not interrupted are those at its end. -/
theorem finish_uninterrupted {lobby : Lobby} {number : Nat} {guild : GuildId}
    {outcome : Except ConstructionFault Nat} (hguild : lobby.guildOf? number = some guild)
    (hbuilt : lobby.progress number = .built outcome) :
    (lobby.run [.goesOn number, .goesOn number, .goesOn number]).roster =
      lobby.roster.finish guild number outcome := by
  have hkept : (lobby.roster.enlistIfBuilt guild outcome).constructions =
      lobby.roster.constructions := by
    cases outcome <;> rfl
  simp only [guildOf?] at hguild
  simp [run, step, move, guildOf?, hguild, hbuilt, hkept, Roster.unmark, Roster.finish]

end Lobby

end Jukebox
