import Jukebox.Registry.Basic
import Jukebox.Entries
import Jukebox.Proofs.Player.Acts
import Mathlib.Data.List.Nodup

/-!
Runs of a registry: players are asked for, told of ends and dismissed, all of them are saved,
members use them, and the store, the services and the nodes that are yet to come may change
meanwhile. Between two steps nothing is under construction, and a guild that has a player has its
own.
-/
namespace Jukebox

/-- What happens to a registry. Each step is carried to its end before the next one. -/
inductive RegistryStep
  | getOrCreate (guild : GuildId)
  | destroyPlayer (guild : GuildId)
  | trackEnded (guild : GuildId) (reason : EndReason)
  | shutdown
  /-- Something happens to a player, which need not be registered any more. -/
  | player (number : Nat) (step : PlayerStep)
  | restock (store : SnapshotStore)
  /-- New nodes are like this one from now on. -/
  | equip (newNode : AudioNode)
  | refit (services : Services)

namespace Roster

variable {roster : Roster} {guild : GuildId}

theorem playerOf?_enlist (roster : Roster) (guild other : GuildId) (player : Nat) :
    (roster.enlist guild player).playerOf? other =
      if other = guild then some player else roster.playerOf? other := by
  unfold playerOf? enlist
  rw [List.lookup_append]
  split
  · next hsame =>
    rw [hsame, Entries.lookup_filter_self, Option.none_or, List.lookup_cons_self]
  · next hother =>
    have hlast : [(guild, player)].lookup other = none := by
      rw [List.lookup_cons, beq_eq_false_iff_ne.mpr hother]
      rfl
    rw [Entries.lookup_filter_ne _ hother, hlast, Option.or_none]

theorem playerOf?_dismiss (roster : Roster) (guild other : GuildId) :
    (roster.dismiss guild).2.playerOf? other =
      if other = guild then none else roster.playerOf? other := by
  unfold playerOf? dismiss
  split
  · next hsame => rw [hsame, Entries.lookup_filter_self]
  · next hother => rw [Entries.lookup_filter_ne _ hother]

theorem nodup_enlist (h : (roster.registered.map (·.1)).Nodup) (guild : GuildId) (player : Nat) :
    ((roster.enlist guild player).registered.map (·.1)).Nodup := by
  unfold enlist
  rw [List.map_append]
  refine List.nodup_append'.mpr ⟨Entries.nodup_filter h guild, List.nodup_singleton _, ?_⟩
  rw [List.map_singleton, List.disjoint_singleton]
  exact Entries.key_not_mem_filter roster.registered guild

/-- A construction that ends before anything else happens leaves its outcome, and its player in
place if there is one. -/
theorem finish_begin (h : roster.pending = []) (guild : GuildId)
    (outcome : Except ConstructionFault Nat) :
    ∃ constructions, (roster.begin guild).2.finish guild roster.constructions.length outcome =
        { roster.enlistIfBuilt guild outcome with constructions } ∧
      ({ roster.enlistIfBuilt guild outcome with constructions } : Roster).redeem
        (.awaiting roster.constructions.length) = outcome := by
  refine ⟨(roster.begin guild).2.constructions.modify roster.constructions.length
    ({ · with outcome := some outcome }), ?_, ?_⟩
  · cases outcome with
    | ok player => simp [finish, begin, enlistIfBuilt, enlist, unmark, conclude, h]
    | error cause => simp [finish, begin, enlistIfBuilt, unmark, conclude, h]
  · simp [redeem, begin]

end Roster

def SnapshotStore.saveAll : SnapshotStore → List Session → List SaveAnswer × SnapshotStore
  | store, [] => ([], store)
  | store, session :: rest =>
    let (answer, store) := store.save session.guild session.snapshot
    let (answers, store) := store.saveAll rest
    (answer :: answers, store)

namespace Registry

variable {registry : Registry} {guild : GuildId} {number : Nat}

def after (registry : Registry) : RegistryStep → Registry
  | .getOrCreate guild => (registry.getOrCreate guild).2
  | .destroyPlayer guild => registry.destroyPlayer guild
  | .trackEnded guild reason => (registry.trackEnded guild reason).2
  | .shutdown => registry.shutdown.2
  | .player number step => (registry.operate number step.operation).2
  | .restock store => { registry with store }
  | .equip newNode => { registry with newNode }
  | .refit services => { registry with services }

def afterAll (registry : Registry) (steps : List RegistryStep) : Registry :=
  steps.foldl after registry

/-- What every allowed step keeps, a run of such steps keeps. -/
theorem afterAll_induction {holds : Registry → Prop} {allowed : RegistryStep → Prop}
    (hstep : ∀ registry step, allowed step → holds registry → holds (registry.after step))
    {steps : List RegistryStep} (hsteps : ∀ step ∈ steps, allowed step) (hstart : holds registry) :
    holds (registry.afterAll steps) := by
  induction steps generalizing registry with
  | nil => exact hstart
  | cons step rest ih =>
    have hfirst := hstep registry step (hsteps step List.mem_cons_self) hstart
    exact ih (fun later hlater => hsteps later (List.mem_cons_of_mem step hlater)) hfirst

/-! ### What the steps come to -/

def built (registry : Registry) (guild : GuildId) : Session :=
  (furnish registry.settings (registry.newSession guild) (registry.store.load guild).1).2

theorem getOrCreate_of_registered (h : registry.playerOf? guild = some number)
    (hidle : registry.roster.pending = []) :
    registry.getOrCreate guild = (.ok number, registry) := by
  have hask : registry.roster.ask guild = (.served number, registry.roster) := by
    unfold Roster.ask
    rw [show registry.roster.playerOf? guild = some number from h]
  unfold getOrCreate completeAll
  rw [hask]
  dsimp only
  rw [hidle]
  rfl

/-- A player that is asked for and not there is built, and serves the guild unless the
construction fails. -/
theorem getOrCreate_of_vacant (hvacant : registry.playerOf? guild = none)
    (hidle : registry.roster.pending = []) :
    ∃ constructions, registry.getOrCreate guild =
      ((registry.construct guild).1, { (registry.construct guild).2 with
        roster := { registry.roster.enlistIfBuilt guild (registry.construct guild).1 with
          constructions } }) := by
  let begun : Roster := (registry.roster.begin guild).2
  have hask : registry.roster.ask guild =
      (.awaiting registry.roster.constructions.length, begun) := by
    unfold Roster.ask Roster.join
    rw [show registry.roster.playerOf? guild = none from hvacant, hidle]
    rfl
  have hbegun : begun.pending = [(guild, registry.roster.constructions.length)] :=
    congrArg (· ++ [(guild, registry.roster.constructions.length)]) hidle
  have hcomplete : ({ registry with roster := begun } : Registry).complete guild
      registry.roster.constructions.length = { (registry.construct guild).2 with
        roster := begun.finish guild registry.roster.constructions.length
          (registry.construct guild).1 } := rfl
  obtain ⟨constructions, hfinish, hredeem⟩ :=
    Roster.finish_begin hidle guild (registry.construct guild).1
  refine ⟨constructions, ?_⟩
  unfold getOrCreate completeAll
  rw [hask]
  dsimp only
  rw [hbegun]
  simp only [List.foldl_cons, List.foldl_nil, hcomplete]
  rw [hfinish, hredeem]

/-- The player of a guild is told of an end as if it were told directly. -/
theorem after_trackEnded (registry : Registry) (guild : GuildId) (reason : EndReason) :
    registry.after (.trackEnded guild reason) =
      match registry.playerOf? guild with
      | none => registry
      | some number => registry.after (.player number (.trackEnded reason)) := by
  have hrun : ∀ session : Session, ((Session.trackEnded reason).run session).2 =
      ((PlayerStep.trackEnded reason).operation.run session).2 :=
    fun session => (congrArg Prod.snd (Operation.run_ignoring _ session)).symm
  simp only [after, trackEnded]
  cases registry.playerOf? guild with
  | none => rfl
  | some number =>
    simp only [operate]
    cases registry.session? number with
    | none => rfl
    | some session => simp only [hrun]

theorem after_destroyPlayer (registry : Registry) (guild : GuildId) :
    registry.after (.destroyPlayer guild) =
      match registry.playerOf? guild with
      | none => (registry.dismiss guild).2
      | some number => (registry.dismiss guild).2.after (.player number .destroy) := rfl

theorem after_player (registry : Registry) (number : Nat) (step : PlayerStep) :
    registry.after (.player number step) =
      match registry.session? number with
      | none => registry
      | some session => registry.putSession number (session.after step) := by
  simp only [after, operate]
  cases registry.session? number <;> rfl

/-- A shutdown saves the registered players one after another and changes nothing but the store. -/
theorem shutdown_eq (registry : Registry) :
    registry.shutdown =
      ((registry.store.saveAll (registry.live.map (·.2))).1.countP (· = .saved),
        { registry with store := (registry.store.saveAll (registry.live.map (·.2))).2 }) := by
  have hone : ∀ answer : SaveAnswer, (decide (answer = .saved)).toNat =
      if answer = .saved then 1 else 0 := fun answer => by cases answer <;> rfl
  have hfold : ∀ (live : List (Nat × Session)) (saved : Nat) (store : SnapshotStore),
      live.foldl (fun state player =>
        (state.1 + (state.2.saveOne player.2).1.toNat, (state.2.saveOne player.2).2))
          (saved, { registry with store }) =
          (saved + (store.saveAll (live.map (·.2))).1.countP (· = .saved),
            { registry with store := (store.saveAll (live.map (·.2))).2 }) := by
    intro live
    induction live with
    | nil => exact fun saved store => rfl
    | cons player rest ih =>
      intro saved store
      have hrest := ih (saved + (decide ((store.save player.2.guild player.2.snapshot).1 =
        .saved)).toNat) (store.save player.2.guild player.2.snapshot).2
      refine hrest.trans ?_
      simp only [List.map_cons, SnapshotStore.saveAll, List.countP_cons, decide_eq_true_eq,
        hone, Nat.add_assoc, Nat.add_comm]
  have hshutdown := hfold registry.live 0 registry.store
  rwa [Nat.zero_add] at hshutdown

/-! ### Between two steps -/

/-- Nothing is under construction, and a guild that has a player has one, which is its own. -/
structure Settled (registry : Registry) : Prop where
  idle : registry.roster.pending = []
  distinct : (registry.roster.registered.map (·.1)).Nodup
  own : ∀ {guild : GuildId} {number : Nat}, registry.playerOf? guild = some number →
    ∃ station, registry.stations[number]? = some station ∧ station.guild = guild

namespace Settled

theorem empty (hroster : registry.roster = {}) :
    registry.Settled where
  idle := hroster ▸ rfl
  distinct := hroster ▸ List.nodup_nil
  own := by
    intro guild number hplayer
    rw [playerOf?, hroster] at hplayer
    cases hplayer

/-- A guild's player is registered for no other guild. -/
theorem guild_unique (h : registry.Settled) {other : GuildId}
    (hguild : registry.playerOf? guild = some number)
    (hother : registry.playerOf? other = some number) : guild = other := by
  obtain ⟨station, hstation, rfl⟩ := h.own hguild
  obtain ⟨same, hsame, rfl⟩ := h.own hother
  rw [Option.some.inj (hstation.symm.trans hsame)]

theorem putSession (h : registry.Settled) {session later : Session}
    (hsession : registry.session? number = some session) (hguild : later.guild = session.guild) :
    (registry.putSession number later).Settled where
  idle := h.idle
  distinct := h.distinct
  own := by
    intro guild other hplayer
    obtain ⟨station, hstation, hown⟩ := h.own hplayer
    by_cases hother : number = other
    · subst hother
      have hlt := (List.getElem?_eq_some_iff.mp hstation).1
      rw [session?, hstation] at hsession
      obtain rfl := Option.some.inj hsession
      exact ⟨_, List.getElem?_set_self hlt, hguild.trans hown⟩
    · exact ⟨station, (List.getElem?_set_ne hother).trans hstation, hown⟩

theorem player (h : registry.Settled) (number : Nat) (step : PlayerStep) :
    (registry.after (.player number step)).Settled := by
  rw [after_player]
  cases hsession : registry.session? number with
  | none => exact h
  | some session =>
    exact h.putSession hsession (Session.guild_chain (Session.chain_after session step))

theorem dismiss (h : registry.Settled) (guild : GuildId) :
    (registry.dismiss guild).2.Settled where
  idle := h.idle
  distinct := Entries.nodup_filter h.distinct guild
  own := by
    intro other number hplayer
    change (registry.roster.dismiss guild).2.playerOf? other = some number at hplayer
    rw [Roster.playerOf?_dismiss] at hplayer
    split at hplayer
    · cases hplayer
    · exact h.own hplayer

end Settled

theorem guild_furnish (settings : RegistrySettings) (session : Session) (answer : LoadAnswer) :
    (furnish settings session answer).2.guild = session.guild := by
  match answer with
  | .found (some snapshot) =>
    exact Session.guild_chain (Session.within_restore snapshot settings.volumeSupported session)
  | .found none | .broken => rfl
  | .failed cause => exact Session.guild_chain (Session.within_destroy session)

/-- A construction that ends well gives the player that it has added. -/
theorem number_of_construct (h : (registry.construct guild).1 = .ok number) :
    number = registry.stations.length := by
  have hfurnish : (registry.construct guild).1 = (furnish registry.settings
      (registry.newSession guild) (registry.store.load guild).1).1.map
        fun _ => registry.stations.length := rfl
  rw [hfurnish] at h
  cases hdone : (furnish registry.settings (registry.newSession guild)
      (registry.store.load guild).1).1 with
  | ok value =>
    rw [hdone] at h
    exact (Except.ok.inj h).symm
  | error cause =>
    rw [hdone] at h
    cases h

/-- Who is there after a construction was there before, or has just been built. -/
theorem place_of_construct {station : Station}
    (hplace : (registry.construct guild).2.stations[number]? = some station) :
    registry.stations[number]? = some station ∨
      number = registry.stations.length ∧ station = .ofSession (registry.built guild) := by
  change (registry.stations ++ [Station.ofSession (registry.built guild)])[number]? =
    some station at hplace
  rcases Nat.lt_trichotomy number registry.stations.length with hlt | heq | hgt
  · rw [List.getElem?_append_left hlt] at hplace
    exact .inl hplace
  · rw [heq, List.getElem?_concat_length] at hplace
    exact .inr ⟨heq, (Option.some.inj hplace).symm⟩
  · rw [List.getElem?_eq_none (by simpa [Nat.succ_le_iff] using hgt)] at hplace
    cases hplace

theorem Settled.construct (h : registry.Settled) (guild : GuildId)
    (constructions : List Construction) :
    ({ (registry.construct guild).2 with
      roster := { registry.roster.enlistIfBuilt guild (registry.construct guild).1 with
        constructions } } : Registry).Settled := by
  have hold : ∀ {other : GuildId} {number : Nat}, registry.playerOf? other = some number →
      ∃ station, (registry.construct guild).2.stations[number]? = some station ∧
        station.guild = other := by
    intro other number hplayer
    obtain ⟨station, hstation, hown⟩ := h.own hplayer
    have hlt := (List.getElem?_eq_some_iff.mp hstation).1
    exact ⟨station, (List.getElem?_append_left hlt).trans hstation, hown⟩
  have hnew : (registry.construct guild).2.stations[registry.stations.length]? =
      some (.ofSession (registry.built guild)) := List.getElem?_concat_length
  cases houtcome : (registry.construct guild).1 with
  | error cause => exact ⟨h.idle, h.distinct, hold⟩
  | ok number =>
    refine ⟨h.idle, Roster.nodup_enlist h.distinct guild number, ?_⟩
    intro other found hplayer
    change (registry.roster.enlist guild number).playerOf? other = some found at hplayer
    rw [Roster.playerOf?_enlist] at hplayer
    split at hplayer
    · next hsame =>
      obtain rfl := Option.some.inj hplayer
      rw [number_of_construct houtcome]
      exact ⟨_, hnew, (guild_furnish _ _ _).trans hsame.symm⟩
    · exact hold hplayer

theorem Settled.after (h : registry.Settled) (step : RegistryStep) :
    (registry.after step).Settled := by
  cases step with
  | getOrCreate guild =>
    change (registry.getOrCreate guild).2.Settled
    cases hplayer : registry.playerOf? guild with
    | some number =>
      rw [getOrCreate_of_registered hplayer h.idle]
      exact h
    | none =>
      obtain ⟨constructions, hcreate⟩ := getOrCreate_of_vacant hplayer h.idle
      rw [hcreate]
      exact h.construct guild constructions
  | destroyPlayer guild =>
    rw [after_destroyPlayer]
    cases registry.playerOf? guild with
    | none => exact h.dismiss guild
    | some number => exact (h.dismiss guild).player number .destroy
  | trackEnded guild reason =>
    rw [after_trackEnded]
    cases registry.playerOf? guild with
    | none => exact h
    | some number => exact h.player number (.trackEnded reason)
  | shutdown =>
    change registry.shutdown.2.Settled
    rw [shutdown_eq]
    exact { h with }
  | player number step => exact h.player number step
  | restock | equip | refit => exact { h with }

theorem Settled.afterAll (h : registry.Settled) (steps : List RegistryStep) :
    (registry.afterAll steps).Settled :=
  afterAll_induction (fun _ step _ h => h.after step) (fun _ _ => trivial) h

def sampleRegistry (store : SnapshotStore) : Registry where
  services := { catalogue := { mint := { dice := .ofSeed 1 } }, limits := .ok {}, today := 0 }
  store := store
  dice := fun _ => .ofSeed 1

end Registry

end Jukebox
