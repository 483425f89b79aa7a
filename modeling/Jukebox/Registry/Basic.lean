import Jukebox.Config.Basic
import Jukebox.Player.Restore
import Jukebox.Registry.Roster
import Jukebox.Registry.SnapshotStore

/-!
The registry of players. Each guild has at most one registered player; it is built when first asked
for, from its snapshot if there is one, and everybody who asks meanwhile waits for the same
construction. A construction that fails destroys its player and registers nothing.
-/
namespace Jukebox

/-- A player with the node that is its own. -/
structure Station where
  guild : GuildId
  player : Player
  node : AudioNode

namespace Station

def session (station : Station) (services : Services) : Session where
  guild := station.guild
  player := station.player
  node := station.node
  services := services

def ofSession (session : Session) : Station where
  guild := session.guild
  player := session.player
  node := session.node

end Station

/-- The text of a failed construction; what broke it off is not part of it. -/
def ConstructionFault.message? (guild : GuildId) : ConstructionFault → Option String
  | unreadable cause =>
    some ("No se pudo crear el player de guild " ++ decimal guild.word.toNat ++
      ": Error leyendo el snapshot de guild " ++ decimal guild.word.toNat ++ ": " ++ cause)
  | aborted => none

structure Registry where
  settings : RegistrySettings := {}
  services : Services
  store : SnapshotStore
  /-- What every new node is like. -/
  newNode : AudioNode := {}
  /-- The dice of each player, by its number. -/
  dice : Nat → Dice
  /-- Every player that was ever built; each has its place as its number. -/
  stations : List Station := []
  roster : Roster := {}

namespace Registry

/-! ### Players by number -/

def session? (registry : Registry) (number : Nat) : Option Session :=
  registry.stations[number]?.map (·.session registry.services)

def putSession (registry : Registry) (number : Nat) (session : Session) : Registry :=
  { registry with
    services := session.services
    stations := registry.stations.set number (.ofSession session) }

/-- Run an operation of a player; without the player nothing is done. -/
def operate (registry : Registry) (number : Nat) (operation : Operation Unit) :
    Except PlayerError Unit × Registry :=
  match registry.session? number with
  | none => (.ok (), registry)
  | some session =>
    let (outcome, session) := operation.run session
    (outcome, registry.putSession number session)

/-! ### Construction -/

def newSession (registry : Registry) (guild : GuildId) : Session where
  guild := guild
  player := .fresh (registry.dice registry.stations.length) registry.settings.defaultVolume
  node := registry.newNode
  services := registry.services

def addSession (registry : Registry) (session : Session) : Registry :=
  { registry with
    services := session.services
    stations := registry.stations ++ [.ofSession session] }

/-- What the answer of the store makes of a new player. -/
def furnish (settings : RegistrySettings) (session : Session) :
    LoadAnswer → Except ConstructionFault Unit × Session
  | .found (some snapshot) =>
    (.ok (), ((Session.restore snapshot settings.volumeSupported).run session).2)
  | .found none => (.ok (), session)
  | .failed cause => (.error (.unreadable cause), (Session.destroy.run session).2)
  | .broken => (.error .aborted, session)

def construct (registry : Registry) (guild : GuildId) :
    Except ConstructionFault Nat × Registry :=
  let number := registry.stations.length
  let (answer, store) := registry.store.load guild
  let (outcome, session) := furnish registry.settings (registry.newSession guild) answer
  (outcome.map fun _ => number, { registry with store }.addSession session)

def complete (registry : Registry) (guild : GuildId) (number : Nat) : Registry :=
  let (outcome, registry) := registry.construct guild
  { registry with roster := registry.roster.finish guild number outcome }

def completeAll (registry : Registry) : Registry :=
  registry.roster.pending.foldl
    (fun registry (guild, number) => registry.complete guild number) registry

/-! ### Requests -/

def playerOf? (registry : Registry) (guild : GuildId) : Option Nat :=
  registry.roster.playerOf? guild

def askAll (registry : Registry) : List GuildId → List Ticket × Registry
  | [] => ([], registry)
  | guild :: rest =>
    let (ticket, roster) := registry.roster.ask guild
    let (tickets, registry) := { registry with roster }.askAll rest
    (ticket :: tickets, registry)

def getOrCreateAll (registry : Registry) (guilds : List GuildId) :
    List (Except ConstructionFault Nat) × Registry :=
  let (tickets, registry) := registry.askAll guilds
  let registry := registry.completeAll
  (tickets.map registry.roster.redeem, registry)

def getOrCreate (registry : Registry) (guild : GuildId) :
    Except ConstructionFault Nat × Registry :=
  let (ticket, roster) := registry.roster.ask guild
  let registry := { registry with roster }.completeAll
  (registry.roster.redeem ticket, registry)

def dismiss (registry : Registry) (guild : GuildId) : Option Nat × Registry :=
  let (player, roster) := registry.roster.dismiss guild
  (player, { registry with roster })

def destroyPlayer (registry : Registry) (guild : GuildId) : Registry :=
  let (player, registry) := registry.dismiss guild
  match player with
  | none => registry
  | some number => (registry.operate number Session.destroy).2

def trackEnded (registry : Registry) (guild : GuildId) (reason : EndReason) :
    Except PlayerError Unit × Registry :=
  match registry.playerOf? guild with
  | none => (.ok (), registry)
  | some number => registry.operate number (Session.trackEnded reason)

/-! ### All players -/

def live (registry : Registry) : List (Nat × Session) :=
  registry.roster.registered.filterMap fun (_, number) =>
    (registry.session? number).map fun session => (number, session)

def playing (registry : Registry) : List (Nat × Session) :=
  registry.live.filter (·.2.player.isPlaying)

def playingCount (registry : Registry) : Nat := registry.playing.length

def totalCount (registry : Registry) : Nat := registry.roster.registered.length

def pushStatus (registry : Registry) : Registry :=
  (registry.playing.map (·.1)).foldl
    (fun registry number => (registry.operate number (.change Session.publish)).2) registry

/-- Save one player; the answer tells whether it was done in time. -/
def saveOne (registry : Registry) (session : Session) : Bool × Registry :=
  let (answer, store) := registry.store.save session.guild session.snapshot
  (answer = .saved, { registry with store })

/-- Save every registered player. One that fails, or has no end before the time is up, does not
keep the others from being saved. The answer tells how many were. -/
def shutdown (registry : Registry) : Nat × Registry :=
  registry.live.foldl
    (fun (saved, registry) (_, session) =>
      let (done, registry) := registry.saveOne session
      (saved + done.toNat, registry))
    (0, registry)

end Registry

end Jukebox
