import Jukebox.Player.Script
import Jukebox.Registry.Basic

/-!
Rehearsals: a registry whose players are taken through a script. Cut-ins stay laid from one step to
the next, until the node they were laid for is asked for their kind of command; it does not matter
whether a step of the script or the registry itself made the player ask. What the steps of a cut-in
answer is kept beside, until somebody collects it. Main statement: without cut-ins, a rehearsal does
to its registry what the registry does alone.
-/
namespace Jukebox

/-- Who takes a step. -/
structure Role where
  /-- The number of the player that the step is done with. -/
  player : Nat
  /-- The number of the player whose node the step is about, if it is about a node. -/
  node : Nat

/-- Steps that wait for a node to be asked for a kind of command. -/
structure CutIn where
  role : Role
  kind : CommandKind
  steps : List Step

def CutIn.awaits (cutIn : CutIn) (node : Nat) (kind : CommandKind) : Bool :=
  cutIn.role.node = node && cutIn.kind = kind

structure Rehearsal where
  registry : Registry
  /-- The cut-ins that wait; a node has at most one for a kind of command. -/
  cutIns : List CutIn := []
  /-- What the steps of cut-ins answered, oldest first, each with the number of its node. -/
  asides : List (Nat × Reply) := []

namespace Rehearsal

def putSession (rehearsal : Rehearsal) (number : Nat) (session : Session) : Rehearsal :=
  { rehearsal with registry := rehearsal.registry.putSession number session }

def release (rehearsal : Rehearsal) (node : Nat) (kind : CommandKind) :
    Option CutIn × Rehearsal :=
  (rehearsal.cutIns.find? (·.awaits node kind),
    { rehearsal with cutIns := rehearsal.cutIns.filter (! ·.awaits node kind) })

/-- Lay a cut-in, in the place of one that waits for the same. -/
def lay (rehearsal : Rehearsal) (cutIn : CutIn) : Rehearsal :=
  let (_, rehearsal) := rehearsal.release cutIn.role.node cutIn.kind
  { rehearsal with cutIns := cutIn :: rehearsal.cutIns }

def collect (rehearsal : Rehearsal) (node : Nat) : List Reply × Rehearsal :=
  let (collected, asides) := rehearsal.asides.partition (·.1 = node)
  (collected.map (·.2), { rehearsal with asides })

/-- A player's node answers a command, after the cut-in that waits for it has run; `cutIn` runs
it. The session is that of the player, and all else may be changed by the cut-in. -/
def answer (cutIn : CutIn → Rehearsal → Rehearsal) (number : Nat) (command : Command) :
    Session × Rehearsal → Answer × Session × Rehearsal
  | (session, rehearsal) =>
    match rehearsal.release number command.kind with
    | (none, _) =>
      let (answer, session) := session.perform command
      (answer, session, rehearsal)
    | (some laid, rehearsal) =>
      let rehearsal := cutIn laid (rehearsal.putSession number session)
      let session := (rehearsal.registry.session? number).getD session
      let (answer, session) := session.perform command
      (answer, session, rehearsal)

def perform {α : Type} (cutIn : CutIn → Rehearsal → Rehearsal) (number : Nat)
    (operation : Operation α) (reply : α → Reply) (rehearsal : Rehearsal) : Reply × Rehearsal :=
  match rehearsal.registry.session? number with
  | none => (.done, rehearsal)
  | some session =>
    let (outcome, session, rehearsal) :=
      (operation session).runWith (answer cutIn number) rehearsal
    (match outcome with
      | .ok value => reply value
      | .error cause => .failed cause,
      rehearsal.putSession number session)

def setNode (rehearsal : Rehearsal) (number : Nat) (change : AudioNode → AudioNode) :
    Reply × Rehearsal :=
  (.done, match rehearsal.registry.session? number with
    | none => rehearsal
    | some session =>
      rehearsal.putSession number { session with node := change session.node })

def setServices (rehearsal : Rehearsal) (change : Services → Services) : Rehearsal :=
  let registry := rehearsal.registry
  { rehearsal with registry := { registry with services := change registry.services } }

/-- Take tracks from their sources; new ones get their ids here. -/
def obtain (rehearsal : Rehearsal) (sources : List TrackSource) : List Track × Rehearsal :=
  let (tracks, catalogue) := rehearsal.registry.services.catalogue.obtainAll sources
  (tracks, rehearsal.setServices ({ · with catalogue }))

def takeStep (cutIn : CutIn → Rehearsal → Rehearsal) (role : Role) (step : Step)
    (rehearsal : Rehearsal) : Reply × Rehearsal :=
  let perform {α : Type} (operation : Operation α) (reply : α → Reply)
      (rehearsal : Rehearsal) : Reply × Rehearsal :=
    rehearsal.perform cutIn role.player operation reply
  let command (operation : Operation Unit) : Reply × Rehearsal :=
    perform operation (fun _ => .done) rehearsal
  let read {α : Type} (reply : α → Reply) (use : Session → α × Session) : Reply × Rehearsal :=
    perform (.use use) reply rehearsal
  match step with
  | .enqueue source level =>
    match rehearsal.obtain [source] with
    | ([], rehearsal) => (.done, rehearsal)
    | (track :: _, rehearsal) =>
      perform (Session.enqueue track level) (fun _ => .done) rehearsal
  | .enqueueAll sources level =>
    let (tracks, rehearsal) := rehearsal.obtain sources
    perform (Session.enqueueAll tracks level) .statuses rehearsal
  | .loadAndPlay silent => command (Session.loadAndPlay silent)
  | .trackEnded reason => command (Session.trackEnded reason)
  | .skip => command Session.skip
  | .stop => command Session.stop
  | .setPaused paused => command (Session.setPaused paused)
  | .seek position => command (Session.seek position)
  | .setVolume volume => command (Session.setVolume volume)
  | .setRepeat mode => command (Session.setRepeat mode)
  | .setShuffle on => command (Session.setShuffle on)
  | .setRoundRobin on => command (Session.setRoundRobin on)
  | .reshuffle => command Session.reshuffle
  | .join channel => command (Session.join channel)
  | .destroy => command Session.destroy
  | .skipTracks ids => perform (Session.skipTracks ids) .count rehearsal
  | .skipTracksFor user level ids =>
    perform (Session.skipTracksFor user level ids) .count rehearsal
  | .history start stop =>
    read .tracks fun session => (session.player.historyRange start stop, session)
  | .tracks start stop =>
    read .tracks fun session => session.withPlayer (·.tracksInRange start stop)
  | .remaining => read .tracks fun session => session.withPlayer (·.remaining)
  | .countOf user => read .count fun session => (session.player.countOf user, session)
  | .guild => read .guild fun session => (session.guild, session)
  | .info => read .info Session.info
  | .snapshot => read .snapshot fun session => (session.snapshot, session)
  | .restore none _ => (.unreadable, rehearsal)
  | .restore (some snapshot) volumeSupported =>
    perform (Session.restore snapshot volumeSupported) .count rehearsal
  | .restoreSelf volumeSupported =>
    perform (fun session => Session.restore session.snapshot volumeSupported session) .count
      rehearsal
  | .setPosition position => rehearsal.setNode role.node ({ · with position })
  | .reject titles => rehearsal.setNode role.node ({ · with rejected := titles })
  | .failOn kinds => rehearsal.setNode role.node ({ · with failing := kinds })
  | .killLink => rehearsal.setNode role.node ({ · with state := .destroyed })
  | .setLimits limits => (.done, rehearsal.setServices ({ · with limits }))
  | .cutIn kind steps => (.done, rehearsal.lay { role, kind, steps })
  | .pass => (.done, rehearsal)

/-- Run the steps of a cut-in and note what they answer. The fuel bounds how deeply cut-ins
nest. -/
def runCutIn : Nat → CutIn → Rehearsal → Rehearsal
  | 0, _, rehearsal => rehearsal
  | fuel + 1, { role, steps, .. }, rehearsal =>
    steps.foldl
      (fun rehearsal step =>
        let (reply, rehearsal) := rehearsal.takeStep (runCutIn fuel) role step
        { rehearsal with asides := rehearsal.asides ++ [(role.node, reply)] })
      rehearsal

def cutInCount (rehearsal : Rehearsal) : Nat :=
  rehearsal.cutIns.foldl (fun n cutIn => n + 1 + Step.cutInCounts cutIn.steps) 0

/-- Do one step. Each cut-in is used once, so they nest no deeper than there are cut-ins. -/
def play (rehearsal : Rehearsal) (role : Role) (step : Step) : Reply × Rehearsal :=
  rehearsal.takeStep (runCutIn (rehearsal.cutInCount + step.cutInCount + 1)) role step

def trackEnded (rehearsal : Rehearsal) (guild : GuildId) (reason : EndReason) :
    Reply × Rehearsal :=
  match rehearsal.registry.playerOf? guild with
  | none => (.done, rehearsal)
  | some number => rehearsal.play ⟨number, number⟩ (.trackEnded reason)

def destroyPlayer (rehearsal : Rehearsal) (guild : GuildId) : Rehearsal :=
  let (player, registry) := rehearsal.registry.dismiss guild
  let rehearsal := { rehearsal with registry }
  match player with
  | none => rehearsal
  | some number => (rehearsal.play ⟨number, number⟩ .destroy).2

/-! ### Without cut-ins -/

theorem answer_of_no_cutIns (cutIn : CutIn → Rehearsal → Rehearsal) (number : Nat)
    (command : Command) (session : Session) {rehearsal : Rehearsal}
    (h : rehearsal.cutIns = []) :
    answer cutIn number command (session, rehearsal) =
      ((session.perform command).1, (session.perform command).2, rehearsal) := by
  simp [answer, release, h]

theorem runWith_of_no_cutIns {α : Type} (cutIn : CutIn → Rehearsal → Rehearsal) (number : Nat)
    (flow : Flow α) {rehearsal : Rehearsal} (h : rehearsal.cutIns = []) :
    flow.runWith (answer cutIn number) rehearsal = (flow.run.1, flow.run.2, rehearsal) := by
  induction flow with
  | ended => rfl
  | waiting session command resume ih =>
    simp only [Flow.runWith, answer_of_no_cutIns cutIn number command session h]
    exact ih _ _

/-- Without cut-ins, an operation does what it does in the registry alone. -/
theorem registry_perform_of_no_cutIns (cutIn : CutIn → Rehearsal → Rehearsal) (number : Nat)
    (operation : Operation Unit) (reply : Unit → Reply) {rehearsal : Rehearsal}
    (h : rehearsal.cutIns = []) :
    (rehearsal.perform cutIn number operation reply).2.registry =
      (rehearsal.registry.operate number operation).2 := by
  cases hs : rehearsal.registry.session? number with
  | none => simp [perform, Registry.operate, hs]
  | some session =>
    simp [perform, Registry.operate, hs, runWith_of_no_cutIns cutIn number _ h, putSession,
      Operation.run]

theorem registry_trackEnded_of_no_cutIns (guild : GuildId) (reason : EndReason)
    {rehearsal : Rehearsal} (h : rehearsal.cutIns = []) :
    (rehearsal.trackEnded guild reason).2.registry =
      (rehearsal.registry.trackEnded guild reason).2 := by
  cases hp : rehearsal.registry.playerOf? guild with
  | none => simp [trackEnded, Registry.trackEnded, hp]
  | some number =>
    simpa [trackEnded, Registry.trackEnded, hp, play, takeStep] using
      registry_perform_of_no_cutIns _ number _ _ h

theorem registry_destroyPlayer_of_no_cutIns (guild : GuildId) {rehearsal : Rehearsal}
    (h : rehearsal.cutIns = []) :
    (rehearsal.destroyPlayer guild).registry = rehearsal.registry.destroyPlayer guild := by
  unfold destroyPlayer Registry.destroyPlayer
  rcases hd : rehearsal.registry.dismiss guild with ⟨_ | number, registry⟩
  · rfl
  · exact registry_perform_of_no_cutIns _ number _ _ h

end Rehearsal

end Jukebox
