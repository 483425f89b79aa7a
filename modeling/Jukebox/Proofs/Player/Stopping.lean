import Jukebox.Proofs.Player.AfterTheEnd
import Jukebox.Proofs.Track.Codec

/-!
After a stop. A player that was stopped has nothing left to play, whether or not its node carried
the stop out: nothing is queued, nothing is to be repeated, and no report of an end, no request and
no setting brings a track back. Only queueing and restoring do. A destroyed player refuses to stop,
so that what a snapshot has put into its queue stays there.
-/
namespace Jukebox

def PlayerStep.bringsTracks : PlayerStep → Bool
  | .member (.enqueue _ _) | .member (.enqueueAll _ _) | .restore _ _ => true
  | _ => false

namespace TrackQueue

structure Spent (queue : TrackQueue) : Prop where
  empty : queue.tracks = []
  forgotten : queue.lastTaken = none

theorem tracks_refresh_of_empty {queue : TrackQueue} (h : queue.tracks = []) :
    queue.refresh.tracks = [] := by
  have hids : queue.refresh.tracks.map (·.id) = queue.tracks.map (·.id) := ids_refresh queue
  rw [h, List.map_nil] at hids
  exact List.map_eq_nil_iff.mp hids

/-- A take from a queue that is spent gives nothing. -/
theorem Spent.take_eq_none {queue : TrackQueue} (h : queue.Spent) : queue.take.1 = none := by
  have hsticky : queue.sticky? = none := by
    unfold sticky?
    rw [h.forgotten, ite_self]
  cases htake : queue.take.1 with
  | none => rfl
  | some track => exact absurd h.empty (ne_nil_of_take hsticky htake)

end TrackQueue

namespace Player

theorem finish_queue (player : Player) : player.finish.queue = player.queue := by
  unfold finish
  split <;> rfl

/-- Listing tracks brings the views of the queue up to date, at most. -/
theorem queue_tracksInRange (player : Player) (start stop : Nat) :
    (player.tracksInRange start stop).2.queue = player.queue ∨
      (player.tracksInRange start stop).2.queue = player.queue.refresh := by
  simp only [tracksInRange, TrackQueue.range]
  split
  · split
    · exact .inr rfl
    · exact .inl rfl
  · exact .inl rfl

theorem queue_remaining (player : Player) : player.remaining.2.queue = player.queue ∨
    player.remaining.2.queue = player.queue.refresh := by
  simp only [remaining, TrackQueue.ordered_eq]
  split
  · exact .inr rfl
  · exact .inl rfl

end Player

/-- What was saved can be read. -/
theorem SavedTrack.readable_ofTrack (track : Track) : (ofTrack track).readable = true := by
  unfold readable ofTrack
  rw [Audio.decode_encode]
  rfl

namespace Session

open Operation

structure SilentSince (base session : Session) : Prop where
  idle : session.player.current = none
  empty : session.player.queue.tracks = []
  unplayed : ∃ notes, session.node.log = base.node.log ++ notes ∧
    ∀ note ∈ notes, note.command.kind ≠ .play

/-- Since some time, the player has been silent, and it has nothing to repeat as long as it is not
destroyed. -/
structure SpentSince (base session : Session) : Prop extends base.SilentSince session where
  forgotten : session.player.destroyed = false → session.player.queue.lastTaken = none

namespace SpentSince

variable {base session later : Session}

theorem take_eq_none (h : base.SpentSince session) (halive : session.player.destroyed = false) :
    session.player.queue.take.1 = none :=
  TrackQueue.Spent.take_eq_none ⟨h.empty, h.forgotten halive⟩

/-- What asks the node for nothing leaves the player spent if it brings nothing. -/
theorem of_player (h : base.SpentSince session) (hlog : later.node.log = session.node.log)
    (hidle : later.player.current = none) (hempty : later.player.queue.tracks = [])
    (hforgotten : later.player.destroyed = false → later.player.queue.lastTaken = none) :
    base.SpentSince later :=
  ⟨⟨hidle, hempty, hlog ▸ h.unplayed⟩, hforgotten⟩

/-- The queue has been brought up to date, at most. -/
theorem refreshed (h : base.SpentSince session) (hlog : later.node.log = session.node.log)
    (hcurrent : later.player.current = session.player.current)
    (hdestroyed : later.player.destroyed = session.player.destroyed)
    (hqueue : later.player.queue = session.player.queue ∨
      later.player.queue = session.player.queue.refresh) : base.SpentSince later := by
  have hlast := (TrackQueue.refresh_settings session.player.queue).lastTaken
  rcases hqueue with hsame | hrefreshed
  · refine h.of_player hlog (hcurrent.trans h.idle) (hsame ▸ h.empty) fun halive => ?_
    rw [hsame]
    exact h.forgotten (hdestroyed ▸ halive)
  · refine h.of_player hlog (hcurrent.trans h.idle) ?_ fun halive => ?_
    · rw [hrefreshed]
      exact TrackQueue.tracks_refresh_of_empty h.empty
    · rw [hrefreshed, hlast]
      exact h.forgotten (hdestroyed ▸ halive)

/-- A command that is no play leaves the player spent. -/
theorem perform (h : base.SpentSince session) {command : Command}
    (hcommand : command.kind ≠ .play) : base.SpentSince (session.perform command).2 := by
  obtain ⟨notes, hlog, hnotes⟩ := h.unplayed
  have hperform : (session.perform command).2.node.log = _ := session.node.log_perform command
  rw [hlog, List.append_assoc] at hperform
  refine ⟨⟨h.idle, h.empty, _, hperform, ?_⟩, h.forgotten⟩
  intro note hnote
  rcases List.mem_append.mp hnote with hold | hnew
  · exact hnotes note hold
  · rw [List.mem_singleton.mp hnew]
    exact hcommand

/-- A spent player stays so as long as no step brings tracks. -/
theorem act (h : base.SpentSince session) (step : PlayerStep) (hstep : step.bringsTracks = false)
    (hact : Act step session later) : base.SpentSince later := by
  cases hact with
  | publishes =>
    refine h.refreshed rfl (current_publish session) (keeps_publish session).destroyed (.inr ?_)
    rw [publish_player]
    rfl
  | weighs | weighsAll | queues | queuesAll | takesOver | resumesVolume => cases hstep
  | loads halive hgiven | rejects halive hgiven =>
    rw [h.take_eq_none halive] at hgiven
    cases hgiven
  | exhausts halive hempty =>
    exact h.refreshed rfl h.idle.symm rfl (.inr (TrackQueue.take_of_none hempty))
  | finishes =>
    exact h.refreshed rfl ((finish_current session.player).trans h.idle.symm)
      (Stage.finish_destroyed session.player) (.inl session.player.finish_queue)
  | givesUp => exact h.of_player rfl rfl h.empty fun _ => rfl
  | cuts =>
    have hreleased : base.SpentSince (session.setPlayer Player.release) :=
      h.of_player rfl rfl h.empty fun _ => rfl
    exact hreleased.perform (by simp [Command.kind])
  | stops =>
    have hemptied : base.SpentSince (session.setPlayer Player.emptied) :=
      h.of_player rfl rfl rfl fun _ => rfl
    exact hemptied.perform (by simp [Command.kind])
  | pauses | setsVolume =>
    refine SpentSince.perform (?_ : base.SpentSince (session.setPlayer _))
      (by simp [Command.kind])
    exact h.refreshed rfl rfl rfl (.inl rfl)
  | seeks | connects => exact h.perform (by simp [Command.kind])
  | repeats | shuffles | rotates | reshuffles => exact h.of_player rfl h.idle h.empty h.forgotten
  | strikes =>
    refine h.of_player rfl h.idle ?_ ?_
    · simp [setPlayer, Player.removeAll, TrackQueue.removeAll_eq, TrackQueue.strike,
        TrackQueue.dropViewsUnless, TrackQueue.dropViews, h.empty]
    · simpa [setPlayer, Player.removeAll, TrackQueue.removeAll_eq, TrackQueue.strike,
        TrackQueue.dropViewsUnless, TrackQueue.dropViews] using h.forgotten
  | closes => exact h.of_player rfl rfl rfl fun _ => rfl
  | letsGo =>
    have hclosed : base.SpentSince (session.setPlayer Player.close) :=
      h.of_player rfl rfl rfl fun _ => rfl
    have hstopped : base.SpentSince ((session.setPlayer Player.close).perform .stop).2 :=
      hclosed.perform (by simp [Command.kind])
    exact hstopped.perform (by simp [Command.kind])
  | lists =>
    exact h.refreshed rfl (tracksInRange_current session.player _ _)
      (Player.keeps_tracksInRange session.player _ _).destroyed
      (session.player.queue_tracksInRange _ _)
  | listsRemaining => exact h.refreshed rfl rfl rfl session.player.queue_remaining
  | publishesGone | elapses | losesLink => exact h.refreshed rfl rfl rfl (.inl rfl)

theorem afterAll (h : base.SpentSince session) {steps : List PlayerStep}
    (hsteps : ∀ step ∈ steps, step.bringsTracks = false) :
    base.SpentSince (session.afterAll steps) :=
  afterAll_of_act (fun _ hstep _ _ hact hbefore => hbefore.act _ hstep hact) h hsteps

end SpentSince

/-- What a stop comes to. A node that refuses it is only not followed by a status. -/
theorem run_stop (session : Session) :
    session.after (.member .stop) =
      if session.player.destroyed then session
      else
        match ((session.setPlayer Player.emptied).perform .stop).1 with
        | .ok () => ((session.setPlayer Player.emptied).perform .stop).2.publish
        | .error _ => ((session.setPlayer Player.emptied).perform .stop).2 := by
  change (stop.ignoring.run session).2 = _
  rw [run_ignoring]
  unfold stop
  rw [run_bind, run_ensureAlive]
  cases session.player.destroyed with
  | true => rfl
  | false =>
    simp only [Bool.false_eq_true, if_false, run_bind, run_change, run_ask]
    cases ((session.setPlayer Player.emptied).perform .stop).1 <;> rfl

/-- A stop leaves the player spent unless it is destroyed and has something queued. -/
theorem spentSince_stop {session : Session} (hidle : session.EndsIdle)
    (hempty : session.player.destroyed = true → session.player.queue.tracks = []) :
    session.SpentSince (session.after (.member .stop)) := by
  rw [run_stop]
  cases hdestroyed : session.player.destroyed with
  | true =>
    refine ⟨⟨hidle hdestroyed, hempty hdestroyed, [], (List.append_nil _).symm, nofun⟩, ?_⟩
    intro halive
    rw [if_pos rfl, hdestroyed] at halive
    cases halive
  | false =>
    have hemptied : session.SpentSince (session.setPlayer Player.emptied) :=
      ⟨⟨rfl, rfl, [], (List.append_nil _).symm, nofun⟩, fun _ => rfl⟩
    have hasked : session.SpentSince ((session.setPlayer Player.emptied).perform .stop).2 :=
      hemptied.perform nofun
    rw [if_neg Bool.false_ne_true]
    cases ((session.setPlayer Player.emptied).perform .stop).1 with
    | ok value => exact hasked.act (.member .stop) rfl .publishes
    | error cause => exact hasked

/-- A destroyed player that is asked to stop keeps what is in its queue. -/
theorem not_silentSince_stop {session : Session} (hdestroyed : session.player.destroyed = true)
    (hqueued : session.player.queue.tracks ≠ []) :
    ¬ session.SilentSince (session.after (.member .stop)) := by
  intro hsilent
  rw [run_stop, if_pos hdestroyed] at hsilent
  exact hqueued hsilent.empty

/-- After a stop, whatever the past and whatever the node makes of it, nothing is played, nothing is
current and nothing is queued at any time before tracks are queued or restored, exactly if the
player was not destroyed with something in its queue. -/
theorem silent_after_stop_iff (session : Session) (dice : Dice) (volume : Single)
    (past later : List PlayerStep) (hlater : ∀ step ∈ later, step.bringsTracks = false) :
    (∀ done : List PlayerStep, done <+: later →
        ((session.opening dice volume).afterAll past).SilentSince
          ((((session.opening dice volume).afterAll past).after (.member .stop)).afterAll done)) ↔
      (((session.opening dice volume).afterAll past).player.destroyed = true →
        ((session.opening dice volume).afterAll past).player.queue.tracks = []) := by
  have hidle := endsIdle_afterAll session dice volume past
  constructor
  · intro hrun hdestroyed
    by_contra hqueued
    exact not_silentSince_stop hdestroyed hqueued (hrun [] List.nil_prefix)
  · intro hempty done hdone
    have hdoneBrings : ∀ step ∈ done, step.bringsTracks = false :=
      fun step hstep => hlater step (hdone.subset hstep)
    exact ((spentSince_stop hidle hempty).afterAll hdoneBrings).toSilentSince

def restlessSession : Session :=
  { sampleSession with
    node := { outages := fun _ command => if command = .stop then some "gone" else none } }

def restlessSteps : List PlayerStep :=
  [.member (.setRepeat .single), .member (.enqueueAll [sampleTrack 1 firstUser false,
    sampleTrack 2 secondUser false] .user), .trackEnded .finished]

theorem silent_after_stop_iff_restless :
    (∀ step ∈ [PlayerStep.trackEnded .finished, .member (.setRepeat .all), .loadAndPlay false,
      .trackEnded .stopped], step.bringsTracks = false) ∧
    ∀ done : List PlayerStep, done <+: [PlayerStep.trackEnded .finished,
        .member (.setRepeat .all), .loadAndPlay false, .trackEnded .stopped] →
      ((restlessSession.opening (.ofSeed 1) maxVolume).afterAll restlessSteps).SilentSince
        ((((restlessSession.opening (.ofSeed 1) maxVolume).afterAll restlessSteps).after
          (.member .stop)).afterAll done) := by
  have hlater : ∀ step ∈ [PlayerStep.trackEnded .finished, .member (.setRepeat .all),
      .loadAndPlay false, .trackEnded .stopped], step.bringsTracks = false := by decide
  exact ⟨hlater, (silent_after_stop_iff restlessSession (.ofSeed 1) maxVolume restlessSteps _
    hlater).mpr (by decide)⟩

/-- A track that is restored into a destroyed player is still queued after a stop. -/
theorem not_silentSince_stop_restored {session : Session} {snapshot : PlayerSnapshot}
    (hclosed : (session.after .destroy).player.destroyed = true)
    (hreadable : snapshot.tracks.any SavedTrack.readable = true) :
    ¬ (session.afterAll [.destroy, .restore snapshot false]).SilentSince
      ((session.afterAll [.destroy, .restore snapshot false]).after (.member .stop)) :=
  not_silentSince_stop (destroyed_after_restore_of_destroyed hclosed snapshot false)
    (queued_after_restore_of_destroyed hclosed false hreadable)

def leftSnapshot : PlayerSnapshot :=
  { emptySnapshot with tracks := [.ofTrack (sampleTrack 1 firstUser false)] }

theorem stop_spares_restored_track :
    ¬ ∀ done : List PlayerStep, done <+: [] →
      ((sampleSession.opening (.ofSeed 1) maxVolume).afterAll
          [.destroy, .restore leftSnapshot false]).SilentSince
        ((((sampleSession.opening (.ofSeed 1) maxVolume).afterAll
          [.destroy, .restore leftSnapshot false]).after (.member .stop)).afterAll done) := by
  intro hrun
  have hclosed : ((sampleSession.opening (.ofSeed 1) maxVolume).after .destroy).player.destroyed =
      true := by decide
  have hreadable : leftSnapshot.tracks.any SavedTrack.readable = true := by
    rw [leftSnapshot, List.any_cons, SavedTrack.readable_ofTrack, Bool.true_or]
  have hsilent := hrun [] List.nil_prefix
  have hnil (session : Session) : session.afterAll [] = session := rfl
  rw [hnil] at hsilent
  exact not_silentSince_stop_restored hclosed hreadable hsilent

end Session

end Jukebox
