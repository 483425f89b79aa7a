import Jukebox.Proofs.Player.Acts
import Jukebox.Proofs.Limits.Admission

/-!
The limits of a guild over whole runs. As long as members without elevated rights do the queueing,
what the player holds keeps the limits: the other steps let go of tracks, move them, and put copies
of them back, but bring none.
-/
namespace Jukebox

/-- Steps that elevated rights have no part in. Nothing is restored, and no track is repeated on its
own. -/
def PlayerStep.isOrdinary : PlayerStep → Bool
  | .member (.enqueue _ level) => ! level.isElevated
  | .member (.enqueueAll _ level) => ! level.isElevated
  | .member (.setRepeat mode) => mode ≠ .single
  | .restore _ _ => false
  | _ => true

/-! ### What a player holds -/

namespace Player

structure BringsNothing (player later : Player) : Prop where
  repeatMode : later.queue.repeatMode = player.queue.repeatMode
  wishes : later.held.map Track.wish ⊆ player.held.map Track.wish

variable {player : Player}

theorem BringsNothing.rfl : player.BringsNothing player := ⟨Eq.refl _, List.Subset.refl _⟩

theorem BringsNothing.of_held {later : Player}
    (hmode : later.queue.repeatMode = player.queue.repeatMode) (hheld : later.held ⊆ player.held) :
    player.BringsNothing later := ⟨hmode, List.map_subset _ hheld⟩

theorem queue_subset_held (player : Player) : player.queue.tracks ⊆ player.held :=
  List.subset_append_right _ _

theorem bringsNothing_refresh (player : Player) :
    player.BringsNothing (player.setQueue TrackQueue.refresh) := by
  refine ⟨(TrackQueue.refresh_settings player.queue).repeatMode, ?_⟩
  simp only [held, setQueue, List.map_append]
  rw [TrackQueue.refresh_map Track.wish (fun _ _ => rfl)]
  exact List.Subset.refl _

/-- What a take gives and leaves was in the queue. -/
theorem wishes_take (h : player.queue.repeatMode ≠ .single) :
    (player.queue.take.1.toList ++ player.queue.take.2.tracks).map Track.wish ⊆
      player.held.map Track.wish :=
  List.Subset.trans (TrackQueue.wishes_take h) (List.map_subset _ player.queue_subset_held)

theorem bringsNothing_loading (h : player.queue.repeatMode ≠ .single) {track : Track}
    (hgiven : player.queue.take.1 = some track) : player.BringsNothing (player.loading track) := by
  have htake := wishes_take h
  rw [hgiven] at htake
  exact ⟨(TrackQueue.take_modes _).1, htake⟩

theorem bringsNothing_exhausted (h : player.queue.repeatMode ≠ .single)
    (hempty : player.queue.take.1 = none) : player.BringsNothing player.exhausted := by
  have htake := wishes_take h
  rw [hempty] at htake
  exact ⟨(TrackQueue.take_modes _).1, htake⟩

theorem bringsNothing_discard (player : Player) (id : TrackId) :
    player.BringsNothing (player.discard id) := by
  have hcurrent : (player.current.filter (·.id ≠ id)).toList ⊆ player.current.toList := by
    intro track htrack
    rw [Option.mem_toList, Option.filter_eq_some_iff] at htrack
    exact Option.mem_toList.mpr htrack.1
  refine .of_held rfl (List.append_subset.mpr ⟨?_, player.queue_subset_held⟩)
  exact fun _ htrack => List.mem_append_left _ (hcurrent htrack)

theorem bringsNothing_finish (player : Player) : player.BringsNothing player.finish := by
  unfold finish
  split <;> exact .of_held rfl player.queue_subset_held

theorem bringsNothing_removeAll (player : Player) (ids : List TrackId) :
    player.BringsNothing (player.removeAll ids).2 := by
  simp only [removeAll, TrackQueue.removeAll_eq]
  refine .of_held rfl (List.append_subset.mpr ⟨List.subset_append_left _ _, ?_⟩)
  exact fun _ htrack => player.queue_subset_held (List.filter_sublist.subset htrack)

/-- Listing tracks may bring the views of the queue up to date, and does nothing else. -/
theorem bringsNothing_tracksInRange (player : Player) (start stop : Nat) :
    player.BringsNothing (player.tracksInRange start stop).2 := by
  simp only [tracksInRange, TrackQueue.range]
  split
  · split
    · exact player.bringsNothing_refresh
    · exact .rfl
  · exact .rfl

theorem bringsNothing_remaining (player : Player) : player.BringsNothing player.remaining.2 := by
  simp only [remaining, TrackQueue.ordered_eq]
  split
  · exact player.bringsNothing_refresh
  · exact .rfl

/-- The limits are checked against no less than what is held. -/
theorem length_held (player : Player) : player.held.length ≤ player.counts.total := by
  simp only [held, counts, trackCount, TrackQueue.size, List.length_append]
  cases player.current <;> simp [Nat.add_comm]

theorem countP_held (player : Player) (user : UserId) :
    player.held.countP (·.requester = user) ≤ player.counts.ofUser user := by
  simp only [held, counts, countOf, TrackQueue.countOf, List.countP_append]
  cases hcurrent : player.current with
  | none => simp
  | some track =>
    by_cases hrequester : track.requester = user <;> simp [hrequester, Nat.add_comm]

/-- What is queued stands somewhere among what was held. -/
theorem wishes_addAll (player : Player) (tracks : List Track) (silent : Bool) :
    (player.setQueue (·.addAll tracks silent)).held.map Track.wish ⊆
      (tracks ++ player.held).map Track.wish := by
  have hheld : (player.setQueue (·.addAll tracks silent)).held =
      player.current.toList ++ ((tracks.partition (·.isPriority)).1 ++ player.queue.tracks ++
        (tracks.partition (·.isPriority)).2) := by
    cases silent <;> rfl
  rw [hheld, List.partition_eq_filter_filter]
  refine List.map_subset _ fun track htrack => ?_
  simp only [held, List.mem_append, List.mem_filter] at htrack ⊢
  rcases htrack with hcurrent | (hpriority | hqueued) | hordinary
  · exact .inr (.inl hcurrent)
  · exact .inl hpriority.1
  · exact .inr (.inr hqueued)
  · exact .inl hordinary.1

theorem wishes_add (player : Player) (track : Track) (silent : Bool) :
    (player.setQueue (·.add track silent)).held.map Track.wish ⊆
      ([track] ++ player.held).map Track.wish := by
  have hheld : (player.setQueue (·.add track silent)).held =
      player.current.toList ++ (player.queue.place track).tracks := by
    cases silent <;> rfl
  rw [hheld, TrackQueue.place]
  refine List.map_subset _ fun other hother => ?_
  simp only [held, List.mem_append, List.mem_singleton] at hother ⊢
  rcases hother with hcurrent | hqueued
  · exact .inr (.inl hcurrent)
  · split at hqueued
    · rcases List.mem_cons.mp hqueued with hnew | hold
      · exact .inl hnew
      · exact .inr (.inr hold)
    · rcases List.mem_append.mp hqueued with hold | hnew
      · exact .inr (.inr hold)
      · exact .inl (List.mem_singleton.mp hnew)

end Player

/-! ### What the steps bring -/

namespace Session

structure Admitting (limits : GuildLimits) (session : Session) : Prop where
  fixed : session.services.limits = .ok limits
  not_single : session.player.queue.repeatMode ≠ .single
  kept : limits.KeptBy session.player.held

/-- A track that passes the check without elevated rights breaks no rule. -/
theorem unbroken_of_weigh {session : Session} {limits : GuildLimits}
    (hfixed : session.services.limits = .ok limits) {track : Track} {level : PermissionLevel}
    (hlevel : level.isElevated = false) {status : LimitStatus}
    (hstatus : (session.weigh track level).1 = .ok status) (hallowed : status.allowed = true) :
    limits.brokenRule? track session.player.counts 0 = none := by
  have houtcome : limits.statusOf (limits.brokenRule? track session.player.counts 0) = status := by
    simpa [weigh, setMetrics, Admission.check, hfixed, hlevel] using hstatus
  cases hrule : limits.brokenRule? track session.player.counts 0 with
  | none => rfl
  | some rule =>
    rw [hrule] at houtcome
    rw [← houtcome] at hallowed
    cases hallowed

theorem statuses_of_weighAll {session : Session} {limits : GuildLimits}
    (hfixed : session.services.limits = .ok limits) {tracks : List Track} {level : PermissionLevel}
    (hlevel : level.isElevated = false) {statuses : List LimitStatus}
    (hstatuses : (session.weighAll tracks level).1 = .ok statuses) :
    statuses = (limits.brokenRules session.player.counts 0 tracks).map limits.statusOf := by
  simpa [weighAll, setMetrics, Admission.checkAll, hfixed, hlevel] using hstatuses.symm

namespace Admitting

variable {limits : GuildLimits} {session later : Session}

theorem of_bringsNothing (h : session.Admitting limits)
    (hlimits : later.services.limits = session.services.limits)
    (hplayer : session.player.BringsNothing later.player) : later.Admitting limits where
  fixed := hlimits.trans h.fixed
  not_single := hplayer.repeatMode ▸ h.not_single
  kept := h.kept.of_subset hplayer.wishes

/-- What the limits admit may be queued. -/
theorem queueing (h : session.Admitting limits) {tracks : List Track}
    (hlimits : later.services.limits = session.services.limits)
    (hmode : later.player.queue.repeatMode = session.player.queue.repeatMode)
    (hheld : later.player.held.map Track.wish ⊆
      (limits.admitted session.player.counts 0 tracks ++ session.player.held).map Track.wish) :
    later.Admitting limits where
  fixed := hlimits.trans h.fixed
  not_single := hmode ▸ h.not_single
  kept := by
    have htogether :=
      h.kept.with_admitted session.player.length_held session.player.countP_held tracks
    exact htogether.of_subset hheld

theorem publish (h : session.Admitting limits) : session.publish.Admitting limits := by
  refine h.of_bringsNothing rfl ?_
  rw [publish_player]
  exact session.player.bringsNothing_refresh

theorem started (h : session.Admitting limits) (track : Track) (announce : Bool) :
    (session.started track announce).Admitting limits := by
  refine h.of_bringsNothing (started_limits session track announce) ?_
  rw [started_player]
  exact .rfl

theorem loading (h : session.Admitting limits) {track : Track}
    (hgiven : session.player.queue.take.1 = some track) (command : Command) :
    ((session.setPlayer (·.loading track)).perform command).2.Admitting limits :=
  h.of_bringsNothing rfl (Player.bringsNothing_loading h.not_single hgiven)

/-- Every act of an ordinary step keeps the limits. -/
theorem act (h : session.Admitting limits) {step : PlayerStep} (hstep : step.isOrdinary = true)
    (hact : Act step session later) : later.Admitting limits := by
  cases hact with
  | publishes => exact h.publish
  | @queues _ track level _ halive hstatus hallowed =>
    have hlevel : level.isElevated = false := by simpa [PlayerStep.isOrdinary] using hstep
    have hunbroken := unbroken_of_weigh h.fixed hlevel hstatus hallowed
    have hadmitted : limits.admitted session.player.counts 0 [track] = [track] := by
      simp only [GuildLimits.admitted, hunbroken]
    have hheld := session.player.wishes_add track false
    rw [← hadmitted] at hheld
    exact h.queueing rfl rfl hheld
  | @queuesAll _ _ level _ halive hstatuses =>
    have hlevel : level.isElevated = false := by simpa [PlayerStep.isOrdinary] using hstep
    rw [statuses_of_weighAll h.fixed hlevel hstatuses, GuildLimits.allowed_eq_admitted]
    exact h.queueing rfl rfl (session.player.wishes_addAll _ _)
  | loads halive hgiven hdone => exact ((h.loading hgiven _).started _ _).publish
  | rejects halive hgiven hrefused =>
    exact (h.loading hgiven _).of_bringsNothing rfl (Player.bringsNothing_discard _ _)
  | exhausts halive hempty =>
    exact h.of_bringsNothing rfl (Player.bringsNothing_exhausted h.not_single hempty)
  | finishes => exact h.of_bringsNothing rfl session.player.bringsNothing_finish
  | givesUp | cuts =>
    exact h.of_bringsNothing rfl (.of_held rfl session.player.queue_subset_held)
  | stops | closes | letsGo => exact h.of_bringsNothing rfl (.of_held rfl (List.nil_subset _))
  | repeats => exact ⟨h.fixed, of_decide_eq_true hstep, h.kept⟩
  | strikes => exact h.of_bringsNothing rfl (session.player.bringsNothing_removeAll _)
  | takesOver | resumesVolume => cases hstep
  | lists => exact h.of_bringsNothing rfl (session.player.bringsNothing_tracksInRange _ _)
  | listsRemaining => exact h.of_bringsNothing rfl session.player.bringsNothing_remaining
  | weighs | weighsAll | pauses | setsVolume | seeks | connects | shuffles | rotates | reshuffles
  | publishesGone | elapses | losesLink =>
    exact h.of_bringsNothing rfl (.of_held rfl (List.Subset.refl _))

end Admitting

/-- After any ordinary steps of a new player, with whatever failures of the node, the current and
the queued tracks keep every limit that is set. -/
theorem keptBy_held (session : Session) (dice : Dice) (volume : Single) (limits : GuildLimits)
    (hfixed : session.services.limits = .ok limits) (steps : List PlayerStep)
    (hsteps : ∀ step ∈ steps, step.isOrdinary = true) :
    limits.KeptBy ((session.opening dice volume).afterAll steps).player.held := by
  have hopening : (session.opening dice volume).Admitting limits := {
    fixed := hfixed
    not_single := by simp [opening, setPlayer, Player.fresh, TrackQueue.empty]
    kept := limits.keptBy_nil }
  have hact : ∀ step : PlayerStep, step.isOrdinary = true → ∀ before later, Act step before later →
      before.Admitting limits → later.Admitting limits :=
    fun _ hstep _ _ hact hbefore => hbefore.act hstep hact
  exact (afterAll_of_act hact hopening hsteps).kept

def narrowLimits : GuildLimits where
  playlistAllowed := false
  userMaxTracks := some 2
  maxTracks := some 3
  maxTrackLengthMillis := some 200000

def narrowSession : Session :=
  { sampleSession with services := { sampleSession.services with limits := .ok narrowLimits } }

def crowdingSteps : List PlayerStep :=
  [.member (.enqueueAll [sampleTrack 1 firstUser false, sampleTrack 2 firstUser true,
      sampleTrack 3 firstUser false] .user),
    .member (.setRepeat .all), .member (.enqueue (sampleTrack 4 secondUser false) .base),
    .trackEnded .finished, .member (.enqueue (sampleTrack 5 secondUser false) .user)]

theorem keptBy_held_crowded :
    narrowSession.services.limits = .ok narrowLimits ∧
      (∀ step ∈ crowdingSteps, step.isOrdinary = true) ∧
      ((narrowSession.opening (.ofSeed 1) maxVolume).afterAll crowdingSteps).player.held.map
        (·.id) = [⟨1⟩, ⟨4⟩, ⟨1⟩] ∧
      narrowLimits.KeptBy
        ((narrowSession.opening (.ofSeed 1) maxVolume).afterAll crowdingSteps).player.held := by
  have hsteps : ∀ step ∈ crowdingSteps, step.isOrdinary = true := by decide
  exact ⟨rfl, hsteps, by decide,
    keptBy_held narrowSession (.ofSeed 1) maxVolume narrowLimits rfl crowdingSteps hsteps⟩

end Session

end Jukebox
