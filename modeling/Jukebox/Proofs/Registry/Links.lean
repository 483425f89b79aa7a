import Jukebox.Proofs.Registry.Runs
import Jukebox.Proofs.Player.AfterTheEnd

/-!
Links of a registry. A player has its link from the moment it is built, and the link is let go of
exactly once: when the player is dismissed, or when its construction fails. As long as players are
destroyed through the registry only, whoever is registered is alive and has its link, and nobody
else has one.
-/
namespace Jukebox

namespace AudioNode

def releases (node : AudioNode) : Nat := node.log.countP (·.command = .destroy)

theorem releases_perform (node : AudioNode) (command : Command) :
    (node.perform command).2.releases =
      node.releases + if command = .destroy then 1 else 0 := by
  unfold releases
  rw [log_perform, List.countP_append, List.countP_singleton]
  simp only [decide_eq_true_eq]

/-- No other command gives the link up. -/
theorem linked_perform {node : AudioNode} {command : Command} (h : node.state ≠ .destroyed)
    (hcommand : command ≠ .destroy) : (node.perform command).2.state ≠ .destroyed := by
  unfold perform
  cases node.refusal? command with
  | some cause => exact h
  | none =>
    cases command with
    | destroy => exact absurd rfl hcommand
    | connect => exact nofun
    | play | stop | pause | seek | volume => exact h

end AudioNode

def PlayerStep.sparesLink : PlayerStep → Bool
  | .destroy | .loseLink => false
  | _ => true

namespace Session

open Operation

/-- Between two moments, a player has not come to its end, and its link has been left alone. -/
structure KeepsLink (before later : Session) : Prop where
  destroyed : later.player.destroyed = before.player.destroyed
  releases : later.node.releases = before.node.releases
  linked : before.node.state ≠ .destroyed → later.node.state ≠ .destroyed

namespace KeepsLink

variable {before middle later : Session}

theorem refl (session : Session) : session.KeepsLink session := ⟨rfl, rfl, id⟩

theorem trans (first : before.KeepsLink middle) (second : middle.KeepsLink later) :
    before.KeepsLink later where
  destroyed := second.destroyed.trans first.destroyed
  releases := second.releases.trans first.releases
  linked := second.linked ∘ first.linked

theorem of_node (hdestroyed : later.player.destroyed = before.player.destroyed)
    (hnode : later.node = before.node) : before.KeepsLink later where
  destroyed := hdestroyed
  releases := by rw [hnode]
  linked := by
    rw [hnode]
    exact id

theorem perform (h : before.KeepsLink later) {command : Command} (hcommand : command ≠ .destroy) :
    before.KeepsLink (later.perform command).2 where
  destroyed := h.destroyed
  releases := by
    refine (later.node.releases_perform command).trans ?_
    rw [if_neg hcommand]
    exact h.releases
  linked := fun hlinked => AudioNode.linked_perform (h.linked hlinked) hcommand

theorem act {step : PlayerStep} (hstep : step.sparesLink = true) (hact : Act step before later) :
    before.KeepsLink later := by
  have hplayer {change : Player → Player}
      (h : (change before.player).destroyed = before.player.destroyed) :
      before.KeepsLink (before.setPlayer change) := of_node h rfl
  have hplayed (track : Track) :
      before.KeepsLink ((before.setPlayer (·.loading track)).perform track.playing).2 :=
    (hplayer rfl).perform nofun
  cases hact with
  | publishes => exact of_node (keeps_publish before).destroyed rfl
  | @loads _ _ track announce =>
    refine (hplayed track).trans (of_node ?_ (started_node _ _ _))
    exact (keeps_publish _).destroyed.trans (congrArg Player.destroyed (started_player _ _ _))
  | @rejects _ _ track => exact (hplayed track).trans (of_node rfl rfl)
  | cuts | stops | pauses | setsVolume => exact (hplayer rfl).perform nofun
  | seeks | connects | resumesVolume => exact (refl before).perform nofun
  | finishes => exact hplayer (Stage.finish_destroyed before.player)
  | lists => exact of_node (Player.keeps_tracksInRange before.player _ _).destroyed rfl
  | closes | letsGo | publishesGone | losesLink => cases hstep
  | weighs | queues | weighsAll | queuesAll | exhausts | givesUp | repeats | shuffles | rotates
  | reshuffles | strikes | takesOver | listsRemaining => exact of_node rfl rfl
  | elapses => exact ⟨rfl, rfl, id⟩

theorem chain {step : PlayerStep} (hstep : step.sparesLink = true)
    (hchain : Relation.ReflTransGen (Act step) before later) : before.KeepsLink later :=
  holds_of_chain (fun _ _ hact hbefore => hbefore.trans (act hstep hact)) hchain (refl before)

end KeepsLink

/-- Destroying a player that has its link makes the node let go of it, whatever the node answers. -/
theorem released_of_destroy {session : Session} (halive : session.player.destroyed = false)
    (hlinked : session.node.state ≠ .destroyed) :
    (destroy.run session).2.player.destroyed = true ∧
      (destroy.run session).2.node.releases = session.node.releases + 1 := by
  have hstop : ((session.setPlayer Player.close).perform .stop).2.node.releases =
      (session.setPlayer Player.close).node.releases :=
    ((KeepsLink.refl _).perform (show Command.stop ≠ .destroy from nofun)).releases
  have hrelease := AudioNode.releases_perform
    ((session.setPlayer Player.close).perform .stop).2.node .destroy
  rw [if_pos rfl, hstop] at hrelease
  unfold destroy
  rw [run_bind, run_get, halive]
  simp only [Bool.false_eq_true, if_false, run_bind, run_change, run_get]
  rw [if_neg (show (session.setPlayer Player.close).node.state ≠ .destroyed from hlinked)]
  simp only [run_bind, run_ignoring, run_ask, run_change]
  exact ⟨rfl, hrelease⟩

end Session

namespace Station

/-- The player of a station lives and has its link, which it was never told to let go of. -/
structure InService (station : Station) : Prop where
  alive : station.player.destroyed = false
  linked : station.node.state ≠ .destroyed
  kept : station.node.releases = 0

structure Retired (station : Station) : Prop where
  ended : station.player.destroyed = true
  released : station.node.releases = 1

variable {station : Station} {session later : Session}

theorem InService.keepsLink (h : (Station.ofSession session).InService)
    (hkept : session.KeepsLink later) : (Station.ofSession later).InService where
  alive := hkept.destroyed.trans h.alive
  linked := hkept.linked h.linked
  kept := hkept.releases.trans h.kept

theorem Retired.keepsLink (h : (Station.ofSession session).Retired)
    (hkept : session.KeepsLink later) : (Station.ofSession later).Retired where
  ended := hkept.destroyed.trans h.ended
  released := hkept.releases.trans h.released

theorem InService.destroy (h : (Station.ofSession session).InService) :
    (Station.ofSession (Session.destroy.run session).2).Retired where
  ended := (Session.released_of_destroy h.alive h.linked).1
  released := by
    refine (Session.released_of_destroy h.alive h.linked).2.trans ?_
    rw [show session.node.releases = 0 from h.kept]

end Station

/-- Every request for a snapshot is answered, if only by a failure. -/
def SnapshotStore.answers : SnapshotStore → Bool
  | memory store => store.faults.breakingLoads.isEmpty
  | disk _ => true

def AudioNode.untouched (node : AudioNode) : Bool := node.log.isEmpty && node.state ≠ .destroyed

/-- A step that destroys players through the registry only, and keeps stores that answer and new
nodes that have their links. -/
def RegistryStep.proper : RegistryStep → Bool
  | .player _ step => step.sparesLink
  | .restock store => store.answers
  | .equip newNode => newNode.untouched
  | _ => true

namespace SnapshotStore

variable {store : SnapshotStore}

theorem load_answers (h : store.answers = true) (guild : GuildId) :
    (store.load guild).1 ≠ .broken ∧ (store.load guild).2.answers = true := by
  cases store with
  | memory store =>
    have hnone : store.faults.breakingLoads = [] := List.isEmpty_iff.mp h
    simp only [load, MemoryStore.load, hnone, List.not_mem_nil, if_false]
    split <;> exact ⟨nofun, h⟩
  | disk storage =>
    simp only [load]
    cases storage.loadSnapshot guild <;> exact ⟨nofun, rfl⟩

theorem save_answers (h : store.answers = true) (guild : GuildId) (snapshot : PlayerSnapshot) :
    (store.save guild snapshot).2.answers = true := by
  cases store with
  | memory store =>
    simp only [save, MemoryStore.save]
    split
    · exact h
    · split <;> exact h
  | disk storage =>
    simp only [save]
    split <;> rfl

theorem saveAll_answers (h : store.answers = true) (sessions : List Session) :
    (store.saveAll sessions).2.answers = true := by
  induction sessions generalizing store with
  | nil => exact h
  | cons session rest ih => exact ih (save_answers h session.guild session.snapshot)

end SnapshotStore

namespace Registry

variable {registry : Registry} {guild : GuildId} {number : Nat}

/-- Whoever is registered is in service, and everybody else is retired. -/
structure Accounted (registry : Registry) : Prop extends registry.Settled where
  registered : ∀ {guild : GuildId} {number : Nat} {station : Station},
    registry.playerOf? guild = some number → registry.stations[number]? = some station →
      station.InService
  dismissed : ∀ {number : Nat} {station : Station},
    (∀ guild, registry.playerOf? guild ≠ some number) →
      registry.stations[number]? = some station → station.Retired
  answers : registry.store.answers = true
  untouched : registry.newNode.untouched = true

theorem station_of_session {session : Session} (h : registry.session? number = some session) :
    registry.stations[number]? = some (.ofSession session) := by
  obtain ⟨station, hstation, rfl⟩ := Option.map_eq_some_iff.mp h
  exact hstation

namespace Accounted

/-- A player has changed and is accounted for as before. -/
theorem putSession (h : registry.Accounted) {session later : Session}
    (hsession : registry.session? number = some session)
    (hsettled : (registry.putSession number later).Settled)
    (hregistered : ∀ guild, registry.playerOf? guild = some number →
      (Station.ofSession session).InService → (Station.ofSession later).InService)
    (hdismissed : (Station.ofSession session).Retired → (Station.ofSession later).Retired) :
    (registry.putSession number later).Accounted := by
  have hstation := station_of_session hsession
  have hlt := (List.getElem?_eq_some_iff.mp hstation).1
  have hself : (registry.putSession number later).stations[number]? = some (.ofSession later) :=
    List.getElem?_set_self hlt
  refine { hsettled with
    registered := ?_, dismissed := ?_, answers := h.answers, untouched := h.untouched }
  · intro guild other station hplayer hother
    by_cases hsame : number = other
    · subst hsame
      obtain rfl := Option.some.inj (hself.symm.trans hother)
      exact hregistered guild hplayer (h.registered hplayer hstation)
    · exact h.registered hplayer ((List.getElem?_set_ne hsame).symm.trans hother)
  · intro other station hnobody hother
    by_cases hsame : number = other
    · subst hsame
      obtain rfl := Option.some.inj (hself.symm.trans hother)
      exact hdismissed (h.dismissed hnobody hstation)
    · exact h.dismissed hnobody ((List.getElem?_set_ne hsame).symm.trans hother)

theorem player (h : registry.Accounted) (number : Nat) {step : PlayerStep}
    (hstep : step.sparesLink = true) : (registry.after (.player number step)).Accounted := by
  have hsettled := h.toSettled.player number step
  rw [after_player] at hsettled ⊢
  cases hsession : registry.session? number with
  | none => exact h
  | some session =>
    rw [hsession] at hsettled
    have hkept := Session.KeepsLink.chain hstep (Session.chain_after session step)
    exact h.putSession hsession hsettled (fun _ _ hservice => hservice.keepsLink hkept)
      fun hretired => hretired.keepsLink hkept

/-- A player that is dismissed is retired. -/
theorem destroyPlayer (h : registry.Accounted) (guild : GuildId) :
    (registry.after (.destroyPlayer guild)).Accounted := by
  have hsettled := h.toSettled.after (.destroyPlayer guild)
  have hlater : ∀ other, (registry.dismiss guild).2.playerOf? other =
      if other = guild then none else registry.playerOf? other :=
    registry.roster.playerOf?_dismiss guild
  rw [after_destroyPlayer] at hsettled ⊢
  cases hplayer : registry.playerOf? guild with
  | none =>
    have hsame : ∀ other,
        (registry.dismiss guild).2.playerOf? other = registry.playerOf? other := by
      intro other
      rw [hlater]
      split
      · next heq => rw [heq, hplayer]
      · rfl
    rw [hplayer] at hsettled
    refine { hsettled with
      registered := ?_, dismissed := ?_, answers := h.answers, untouched := h.untouched }
    · intro other number station hother
      exact h.registered ((hsame other).symm.trans hother)
    · intro number station hnobody
      exact h.dismissed fun other hother => hnobody other ((hsame other).trans hother)
  | some number =>
    obtain ⟨station, hstation, -⟩ := h.own hplayer
    have hsession : (registry.dismiss guild).2.session? number =
        some (station.session registry.services) :=
      congrArg (Option.map (Station.session · registry.services)) hstation
    have hservice : (Station.ofSession (station.session registry.services)).InService :=
      h.registered hplayer hstation
    have hlt := (List.getElem?_eq_some_iff.mp hstation).1
    simp only [hplayer, after_player, hsession] at hsettled ⊢
    refine { hsettled with
      registered := ?_, dismissed := ?_, answers := h.answers, untouched := h.untouched }
    · intro other found place hother hplace
      have hregistered := (hlater other).symm.trans hother
      split at hregistered
      · cases hregistered
      · next hne =>
        have hfound : number ≠ found := by
          rintro rfl
          exact hne (h.guild_unique hregistered hplayer)
        exact h.registered hregistered ((List.getElem?_set_ne hfound).symm.trans hplace)
    · intro found place hnobody hplace
      by_cases hfound : number = found
      · subst hfound
        obtain rfl := Option.some.inj ((List.getElem?_set_self hlt).symm.trans hplace)
        exact hservice.destroy
      · refine h.dismissed (fun other hother => ?_)
          ((List.getElem?_set_ne hfound).symm.trans hplace)
        refine hnobody other ((hlater other).trans ?_)
        rw [if_neg ?_]
        · exact hother
        · rintro rfl
          exact hfound (Option.some.inj (hplayer.symm.trans hother))

/-- A player that has been built is in service, and one whose construction failed is retired. -/
theorem built (h : registry.Accounted) (guild : GuildId) :
    match (registry.construct guild).1 with
    | .ok _ => (Station.ofSession (registry.built guild)).InService
    | .error _ => (Station.ofSession (registry.built guild)).Retired := by
  have huntouched := Bool.and_eq_true_iff.mp h.untouched
  have hservice : (Station.ofSession (registry.newSession guild)).InService := by
    refine ⟨rfl, of_decide_eq_true huntouched.2, ?_⟩
    change registry.newNode.log.countP _ = 0
    rw [List.isEmpty_iff.mp huntouched.1]
    rfl
  have hbuilt : registry.built guild = (furnish registry.settings (registry.newSession guild)
      (registry.store.load guild).1).2 := rfl
  have hconstruct : (registry.construct guild).1 = (furnish registry.settings
      (registry.newSession guild) (registry.store.load guild).1).1.map
        fun _ => registry.stations.length := rfl
  have hanswer := (SnapshotStore.load_answers h.answers guild).1
  rw [hconstruct, hbuilt]
  cases hload : (registry.store.load guild).1 with
  | found snapshot =>
    cases snapshot with
    | none => exact hservice
    | some snapshot =>
      exact hservice.keepsLink
        (Session.KeepsLink.chain rfl (Session.within_restore snapshot _ _))
  | failed cause => exact hservice.destroy
  | broken => exact absurd hload hanswer

/-- Who was registered before a construction is in service after it. -/
theorem registered_of_construct (h : registry.Accounted) {other : GuildId} {station : Station}
    (hother : registry.playerOf? other = some number)
    (hplace : (registry.construct guild).2.stations[number]? = some station) :
    station.InService := by
  obtain ⟨old, hold, -⟩ := h.own hother
  have hlt := (List.getElem?_eq_some_iff.mp hold).1
  exact h.registered hother ((List.getElem?_append_left hlt).symm.trans hplace)

/-- A construction that failed leaves a retired player that nobody has. -/
theorem discarded (h : registry.Accounted) {cause : ConstructionFault}
    (houtcome : (registry.construct guild).1 = .error cause)
    (constructions : List Construction) :
    ({ (registry.construct guild).2 with
      roster := { registry.roster with constructions } } : Registry).Accounted := by
  have hsettled := h.toSettled.construct guild constructions
  have hbuilt := h.built guild
  rw [houtcome] at hsettled hbuilt
  refine { hsettled with
    registered := h.registered_of_construct, dismissed := ?_, answers := ?_
    untouched := h.untouched }
  · intro number station hnobody hplace
    rcases place_of_construct hplace with hold | ⟨-, rfl⟩
    · exact h.dismissed hnobody hold
    · exact hbuilt
  · exact (SnapshotStore.load_answers h.answers guild).2

/-- A construction that ended well puts a player in service that its guild has. -/
theorem enlisted (h : registry.Accounted) (hvacant : registry.playerOf? guild = none)
    (houtcome : (registry.construct guild).1 = .ok number) (constructions : List Construction) :
    ({ (registry.construct guild).2 with
      roster := { registry.roster.enlist guild number with constructions } } :
        Registry).Accounted := by
  have hsettled := h.toSettled.construct guild constructions
  have hbuilt := h.built guild
  have hnumber := number_of_construct houtcome
  have hlater : ∀ other, (registry.roster.enlist guild number).playerOf? other =
      if other = guild then some number else registry.playerOf? other :=
    fun other => registry.roster.playerOf?_enlist guild other number
  rw [houtcome] at hsettled hbuilt
  refine { hsettled with
    registered := ?_, dismissed := ?_, answers := ?_, untouched := h.untouched }
  · intro other found station hother hplace
    have hother := (hlater other).symm.trans hother
    split at hother
    · obtain rfl := Option.some.inj hother
      rcases place_of_construct hplace with hold | ⟨-, rfl⟩
      · have hlt := (List.getElem?_eq_some_iff.mp hold).1
        exact absurd (hnumber ▸ hlt) (Nat.lt_irrefl _)
      · exact hbuilt
    · exact h.registered_of_construct hother hplace
  · intro found station hnobody hplace
    rcases place_of_construct hplace with hold | ⟨hfound, -⟩
    · refine h.dismissed (fun other hother => hnobody other ((hlater other).trans ?_)) hold
      rw [if_neg ?_]
      · exact hother
      · rintro rfl
        rw [hvacant] at hother
        cases hother
    · refine absurd ((hlater guild).trans ?_) (hnobody guild)
      rw [if_pos rfl, hfound, hnumber]
  · exact (SnapshotStore.load_answers h.answers guild).2

theorem getOrCreate (h : registry.Accounted) (guild : GuildId) :
    (registry.after (.getOrCreate guild)).Accounted := by
  change (registry.getOrCreate guild).2.Accounted
  cases hplayer : registry.playerOf? guild with
  | some number =>
    rw [getOrCreate_of_registered hplayer h.idle]
    exact h
  | none =>
    obtain ⟨constructions, hcreate⟩ := getOrCreate_of_vacant hplayer h.idle
    rw [hcreate]
    cases houtcome : (registry.construct guild).1 with
    | error cause => exact h.discarded houtcome constructions
    | ok number => exact h.enlisted hplayer houtcome constructions

theorem after (h : registry.Accounted) {step : RegistryStep} (hstep : step.proper = true) :
    (registry.after step).Accounted := by
  cases step with
  | getOrCreate guild => exact h.getOrCreate guild
  | destroyPlayer guild => exact h.destroyPlayer guild
  | trackEnded guild reason =>
    rw [after_trackEnded]
    cases registry.playerOf? guild with
    | none => exact h
    | some number => exact h.player number rfl
  | shutdown =>
    change registry.shutdown.2.Accounted
    rw [shutdown_eq]
    exact { h with answers := SnapshotStore.saveAll_answers h.answers _ }
  | player number step => exact h.player number hstep
  | restock => exact { h with answers := hstep }
  | equip => exact { h with untouched := hstep }
  | refit => exact { h with }

end Accounted

/-- Every guild has at most one player, which lives and is found again whenever it is asked for. A
link belongs to a registered player and was never let go of, or it was let go of once. A request
that fails leaves the registered players as they were. -/
structure NoneLeaked (registry : Registry) : Prop where
  one_each : (registry.roster.registered.map (·.1)).Nodup
  alive : ∀ {guild : GuildId} {number : Nat}, registry.playerOf? guild = some number →
    ∃ station, registry.stations[number]? = some station ∧ station.guild = guild ∧
      station.player.state ≠ .destroyed ∧ station.node.releases = 0
  found_again : ∀ {guild : GuildId} {number : Nat}, registry.playerOf? guild = some number →
    registry.getOrCreate guild = (.ok number, registry)
  released : ∀ {number : Nat} {station : Station}, registry.stations[number]? = some station →
    (∀ guild, registry.playerOf? guild ≠ some number) → station.node.releases = 1
  failure : ∀ {guild : GuildId} {cause : ConstructionFault},
    (registry.getOrCreate guild).1 = .error cause →
      (registry.getOrCreate guild).2.roster.registered = registry.roster.registered

theorem Accounted.noneLeaked (h : registry.Accounted) : registry.NoneLeaked where
  one_each := h.distinct
  alive := by
    intro guild number hplayer
    obtain ⟨station, hstation, hown⟩ := h.own hplayer
    have hservice := h.registered hplayer hstation
    refine ⟨station, hstation, hown, fun hended => ?_, hservice.kept⟩
    exact absurd ((Session.state_eq_destroyed_iff.mp hended).symm.trans hservice.alive) nofun
  found_again := fun hplayer => getOrCreate_of_registered hplayer h.idle
  released := fun hstation hnobody => (h.dismissed hnobody hstation).released
  failure := by
    intro guild cause hfailed
    cases hplayer : registry.playerOf? guild with
    | some number => rw [getOrCreate_of_registered hplayer h.idle]
    | none =>
      obtain ⟨constructions, hcreate⟩ := getOrCreate_of_vacant hplayer h.idle
      rw [hcreate] at hfailed ⊢
      rw [show (registry.construct guild).1 = .error cause from hfailed]
      rfl

/-- Whatever happens to a registry that starts without players, no player and no link is lost track
of, as long as players are destroyed through the registry. -/
theorem noneLeaked_afterAll (hstations : registry.stations = []) (hroster : registry.roster = {})
    (hstore : registry.store.answers = true) (hnode : registry.newNode.untouched = true)
    {steps : List RegistryStep} (hsteps : ∀ step ∈ steps, step.proper = true) :
    (registry.afterAll steps).NoneLeaked := by
  have hstart : registry.Accounted := { Settled.empty hroster with
    registered := fun _ hstation => by simp [hstations] at hstation
    dismissed := fun _ hstation => by simp [hstations] at hstation
    answers := hstore
    untouched := hnode }
  exact (afterAll_induction (fun _ _ hstep h => h.after hstep) hsteps hstart).noneLeaked

def failingStore : SnapshotStore :=
  .memory { faults := { failingLoads := [sampleSession.guild] } }

def rebuiltPlayer : List RegistryStep :=
  [.getOrCreate sampleSession.guild, .restock (.memory {}), .getOrCreate sampleSession.guild,
    .player 1 (.member (.enqueue (sampleTrack 1 firstUser false) .user)),
    .destroyPlayer sampleSession.guild, .player 1 (.loadAndPlay false),
    .getOrCreate sampleSession.guild, .shutdown]

theorem noneLeaked_afterAll_rebuiltPlayer :
    (∀ step ∈ rebuiltPlayer, step.proper = true) ∧
      ((sampleRegistry failingStore).afterAll rebuiltPlayer).NoneLeaked := by
  have hsteps : ∀ step ∈ rebuiltPlayer, step.proper = true := by decide
  exact ⟨hsteps, noneLeaked_afterAll rfl rfl rfl rfl hsteps⟩

end Registry

end Jukebox
