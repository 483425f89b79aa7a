import Jukebox.Proofs.Player.Holdings
import Jukebox.Proofs.Player.NowPlaying
import Jukebox.Proofs.Player.SkipPermission

/-!
After the end of a player. A destroyed player refuses to load, to play and to be joined to a
channel, so that nothing it is asked reaches the node or is announced, and it holds nothing. The
exception is restoring a snapshot, which does not ask whether the player is at its end: it queues
the tracks of the snapshot and tells the node the volume.
-/
namespace Jukebox

/-! ### Saved tracks that can be read -/

namespace SavedTrack

/-- Whether the blob of a saved track gives audio. -/
def readable (saved : SavedTrack) : Bool :=
  (Audio.decode saved.serializedPayload).toOption.isSome

theorem isSome_restore (saved : SavedTrack) (mint : Mint) :
    (saved.restore mint).1.toOption.isSome = saved.readable := by
  unfold restore readable
  cases Audio.decode saved.serializedPayload <;> rfl

theorem isSome_restoreAll (tracks : List SavedTrack) (mint : Mint) :
    (restoreAll tracks mint).1.map Option.isSome = tracks.map readable := by
  induction tracks generalizing mint with
  | nil => rfl
  | cons saved rest ih =>
    simp only [restoreAll, List.map_cons, isSome_restore, ih]

theorem isSome_resumeFirst (position : Option Millis) (tracks : List (Option Track)) :
    (resumeFirst position tracks).map Option.isSome = tracks.map Option.isSome := by
  cases tracks with
  | nil => rfl
  | cons track rest =>
    cases track with
    | none => rfl
    | some track => cases position <;> rfl

end SavedTrack

/-- A snapshot gives no track back exactly if none of its blobs can be read. -/
theorem PlayerSnapshot.tracksFrom_eq_nil_iff (snapshot : PlayerSnapshot) (mint : Mint) :
    (snapshot.tracksFrom mint).1 = [] ↔ snapshot.tracks.any SavedTrack.readable = false := by
  let tracks := SavedTrack.resumeFirst snapshot.positionMillis
    (SavedTrack.restoreAll snapshot.tracks mint).1
  have hsome : tracks.map Option.isSome = snapshot.tracks.map SavedTrack.readable :=
    (SavedTrack.isSome_resumeFirst _ _).trans (SavedTrack.isSome_restoreAll _ _)
  have hany : tracks.any Option.isSome = snapshot.tracks.any SavedTrack.readable := by
    have h := congrArg (List.any · id) hsome
    simpa only [List.any_map, Function.id_comp] using h
  change tracks.filterMap id = [] ↔ _
  rw [← hany, List.filterMap_eq_nil_iff, List.any_eq_false]
  exact forall_congr' fun track => forall_congr' fun _ => by cases track <;> simp

/-- A step that a destroyed player does not let pass without effect: restoring a snapshot that
brings tracks, or with the volume. -/
def PlayerStep.stirs : PlayerStep → Bool
  | .restore snapshot volumeSupported =>
    volumeSupported || snapshot.tracks.any SavedTrack.readable
  | _ => false

namespace Session

open Operation

/-- Since some time, a destroyed player has held nothing, asked its node for nothing and announced
nothing. -/
structure AtRestSince (base session : Session) : Prop where
  state : session.player.state = .destroyed
  idle : session.player.current = none
  empty : session.player.queue.tracks = []
  silent : session.node.log = base.node.log
  unannounced : session.services.announcements = base.services.announcements

theorem state_eq_destroyed_iff {player : Player} :
    player.state = .destroyed ↔ player.destroyed = true := by
  unfold Player.state
  cases player.destroyed with
  | true => simp
  | false =>
    simp only [Bool.false_eq_true, if_false, iff_false]
    split
    · simp
    · split <;> simp

/-! ### What the end leaves -/

def EndsIdle (session : Session) : Prop :=
  session.player.destroyed = true → session.player.current = none

namespace EndsIdle

variable {session later : Session}

theorem of_alive (h : session.player.destroyed = false) : session.EndsIdle := by
  intro hdestroyed
  rw [h] at hdestroyed
  cases hdestroyed

theorem of_same (h : session.EndsIdle)
    (hdestroyed : later.player.destroyed = session.player.destroyed)
    (hcurrent : later.player.current = session.player.current) : later.EndsIdle := by
  intro hlater
  rw [hcurrent]
  exact h (hdestroyed ▸ hlater)

theorem act (h : session.EndsIdle) {step : PlayerStep} (hact : Act step session later) :
    later.EndsIdle := by
  cases hact with
  | publishes =>
    exact h.of_same (keeps_publish session).destroyed (current_publish session)
  | loads halive =>
    refine of_alive ?_
    rw [accepted, publish_player]
    exact (congrArg Player.destroyed (started_player _ _ _)).trans halive
  | finishes halive => exact of_alive ((Stage.finish_destroyed session.player).trans halive)
  | queues halive | queuesAll halive | rejects halive | exhausts halive | givesUp halive
  | cuts halive | stops halive | pauses halive | setsVolume halive | connects halive =>
    exact of_alive halive
  | closes | letsGo => exact fun _ => rfl
  | lists =>
    refine h.of_same ?_ (tracksInRange_current session.player _ _)
    exact (Player.keeps_tracksInRange session.player _ _).destroyed
  | weighs | weighsAll | seeks | repeats | shuffles | rotates | reshuffles | strikes
  | publishesGone | takesOver | resumesVolume | listsRemaining | elapses | losesLink =>
    exact h.of_same rfl rfl

end EndsIdle

theorem endsIdle_afterAll (session : Session) (dice : Dice) (volume : Single)
    (steps : List PlayerStep) : ((session.opening dice volume).afterAll steps).EndsIdle := by
  have hact : ∀ step, True → ∀ before later, Act step before later → before.EndsIdle →
      later.EndsIdle := fun _ _ _ _ hact hbefore => hbefore.act hact
  exact afterAll_of_act hact (.of_alive rfl) fun _ _ => trivial

/-- Destroying a player closes it, unless it is closed already. -/
theorem player_after_destroy (session : Session) : (session.after .destroy).player =
    if session.player.destroyed then session.player else session.player.close := by
  change ((destroy.run session).2).player = _
  unfold destroy
  rw [run_bind, run_get]
  cases session.player.destroyed with
  | true => rfl
  | false =>
    simp only [Bool.false_eq_true, if_false, run_bind, run_change, run_get]
    split
    · rfl
    · simp only [run_bind, run_ignoring, run_ask, run_change]
      rfl

namespace AtRestSince

variable {base session later : Session}

theorem destroyed (h : base.AtRestSince session) : session.player.destroyed = true :=
  state_eq_destroyed_iff.mp h.state

theorem held (h : base.AtRestSince session) : session.player.held = [] := by
  rw [Player.held, h.idle, h.empty]
  rfl

/-- What brings no track, no command and no announcement leaves the player at rest. -/
theorem of_wishes (h : base.AtRestSince session)
    (hheld : later.player.held.map Track.wish ⊆ session.player.held.map Track.wish)
    (hdestroyed : later.player.destroyed = session.player.destroyed)
    (hlog : later.node.log = session.node.log)
    (hannounced : later.services.announcements = session.services.announcements) :
    base.AtRestSince later := by
  rw [h.held] at hheld
  have hnothing := List.map_eq_nil_iff.mp (List.subset_nil.mp hheld)
  rw [Player.held, List.append_eq_nil_iff, Option.toList_eq_nil_iff] at hnothing
  exact ⟨state_eq_destroyed_iff.mpr (hdestroyed.trans h.destroyed), hnothing.1, hnothing.2,
    hlog.trans h.silent, hannounced.trans h.unannounced⟩

/-- A destroyed player is at rest as long as no step stirs it. -/
theorem act (h : base.AtRestSince session) {step : PlayerStep} (hstep : step.stirs = false)
    (hact : Act step session later) : base.AtRestSince later := by
  have hended : session.player.destroyed ≠ false := by simp [h.destroyed]
  cases hact with
  | publishes =>
    refine h.of_wishes ?_ (keeps_publish session).destroyed rfl rfl
    rw [publish_player]
    exact session.player.bringsNothing_refresh.wishes
  | queues halive | queuesAll halive | loads halive | rejects halive | exhausts halive
  | finishes halive | givesUp halive | cuts halive | stops halive | pauses halive
  | setsVolume halive | connects halive | closes halive | letsGo halive =>
    exact absurd halive hended
  | seeks htarget => simp [Player.seekTarget, h.idle] at htarget
  | strikes => exact h.of_wishes (session.player.bringsNothing_removeAll _).wishes rfl rfl rfl
  | @takesOver _ snapshot volumeSupported =>
    have hnone : (snapshot.tracksFrom session.services.catalogue.mint).1 = [] := by
      rw [PlayerStep.stirs, Bool.or_eq_false_iff] at hstep
      exact (snapshot.tracksFrom_eq_nil_iff _).mpr hstep.2
    refine h.of_wishes ?_ rfl rfl rfl
    simp [takeOver, hnone, Player.takeOver, Player.held, TrackQueue.addAll,
      TrackQueue.dropViewsUnless, TrackQueue.setRepeat, TrackQueue.setShuffle,
      TrackQueue.dropViews]
  | resumesVolume => simp [PlayerStep.stirs] at hstep
  | lists =>
    exact h.of_wishes (session.player.bringsNothing_tracksInRange _ _).wishes
      (Player.keeps_tracksInRange session.player _ _).destroyed rfl rfl
  | listsRemaining => exact h.of_wishes session.player.bringsNothing_remaining.wishes rfl rfl rfl
  | weighs | weighsAll | repeats | shuffles | rotates | reshuffles | publishesGone | elapses
  | losesLink => exact h.of_wishes (List.Subset.refl _) rfl rfl rfl

theorem after (h : base.AtRestSince session) {step : PlayerStep} (hstep : step.stirs = false) :
    base.AtRestSince (session.after step) :=
  holds_of_chain (fun _ _ hact hbefore => hbefore.act hstep hact) (chain_after session step) h

end AtRestSince

/-! ### Restoring a destroyed player -/

section Restoring

variable {session : Session}

theorem run_join_of_destroyed (h : session.player.destroyed = true) (channel : ChannelId) :
    (join channel).run session = (.error .destroyed, session) := by
  unfold join
  rw [run_bind, run_ensureAlive, h]
  rfl

theorem run_advance_of_destroyed (h : session.player.destroyed = true) (silent onlyIfIdle : Bool) :
    (advance silent onlyIfIdle).run session = (.error .destroyed, session) := by
  rw [run_advance, tryTracks, run_bind, run_use]
  simp only [withPlayer, Player.next, h, if_true]
  rfl

theorem run_startIfIdle_of_destroyed (h : session.player.destroyed = true) (silent : Bool) :
    (startIfIdle silent).run session = (.error .destroyed, session) :=
  run_advance_of_destroyed h silent true

/-- Restoring a destroyed player takes the snapshot over and tells the node the volume. -/
theorem after_restore_of_destroyed (h : session.player.destroyed = true)
    (snapshot : PlayerSnapshot) (volumeSupported : Bool) :
    session.after (.restore snapshot volumeSupported) =
      let taken := (session.takeOver snapshot volumeSupported).2
      let told :=
        if volumeSupported then (taken.perform (.volume taken.player.volume)).2 else taken
      (told.setPlayer (·.setQueue (·.setShuffle snapshot.shuffled))).publish := by
  have hstart (count : Nat) {told : Session} (htold : told.player.destroyed = true) : ((do
      if ! snapshot.paused then (startIfIdle true).ignoring
      setShuffle snapshot.shuffled
      return count : Operation Nat).run told).2 =
      (told.setPlayer (·.setQueue (·.setShuffle snapshot.shuffled))).publish := by
    cases snapshot.paused <;>
      simp [run_bind, run_pure, run_ignoring, run_startIfIdle_of_destroyed htold, setShuffle,
        setQueue, run_change]
  have hvolume (count : Nat) {taken : Session} (htaken : taken.player.destroyed = true) : ((do
      if volumeSupported then
        let volume ← get (·.player.volume)
        (ask (.volume volume)).ignoring
      if ! snapshot.paused then (startIfIdle true).ignoring
      setShuffle snapshot.shuffled
      return count : Operation Nat).run taken).2 =
      ((if volumeSupported then (taken.perform (.volume taken.player.volume)).2
        else taken).setPlayer (·.setQueue (·.setShuffle snapshot.shuffled))).publish := by
    cases volumeSupported with
    | false => exact hstart count htaken
    | true =>
      simp only [if_true, run_bind, run_get, run_ignoring, run_ask]
      exact hstart count htaken
  have htaken : (session.takeOver snapshot volumeSupported).2.player.destroyed = true := h
  change ((restore snapshot volumeSupported).ignoring.run session).2 = _
  rw [run_ignoring]
  unfold restore
  rw [run_bind, run_use]
  cases snapshot.channelRef with
  | none => exact hvolume _ htaken
  | some channel =>
    simp only [run_bind, run_ignoring, run_join_of_destroyed htaken]
    exact hvolume _ htaken

/-- What a restored snapshot does to a destroyed player with nothing in its queue. -/
theorem log_after_restore_of_destroyed (h : session.player.destroyed = true)
    (snapshot : PlayerSnapshot) (volumeSupported : Bool) :
    (session.after (.restore snapshot volumeSupported)).node.log.length =
      session.node.log.length + volumeSupported.toNat := by
  rw [after_restore_of_destroyed h]
  cases volumeSupported with
  | false => rfl
  | true =>
    have hlog := (session.takeOver snapshot true).2.node.log_perform
      (.volume (session.takeOver snapshot true).2.player.volume)
    have hlength := congrArg List.length hlog
    rwa [List.length_append] at hlength

theorem ids_after_restore_of_destroyed (h : session.player.destroyed = true)
    (snapshot : PlayerSnapshot) (volumeSupported : Bool) :
    (session.after (.restore snapshot volumeSupported)).player.queue.ids =
      (session.takeOver snapshot volumeSupported).2.player.queue.ids := by
  rw [after_restore_of_destroyed h, ids_publish]
  cases volumeSupported <;> rfl

/-- The tracks that a snapshot brings are queued. -/
theorem queued_after_restore_of_destroyed (h : session.player.destroyed = true)
    {snapshot : PlayerSnapshot} (volumeSupported : Bool)
    (hreadable : snapshot.tracks.any SavedTrack.readable = true) :
    (session.after (.restore snapshot volumeSupported)).player.queue.tracks ≠ [] := by
  intro hempty
  have hids := ids_after_restore_of_destroyed h snapshot volumeSupported
  rw [TrackQueue.ids, hempty] at hids
  have hperm := TrackQueue.ids_addAll_perm
    ((session.player.queue.setRepeat snapshot.repeatMode).setShuffle false)
    (snapshot.tracksFrom session.services.catalogue.mint).1 true
  have hnothing := List.append_eq_nil_iff.mp (List.nil_perm.mp (hids ▸ hperm))
  have hnone := List.map_eq_nil_iff.mp hnothing.1
  rw [(snapshot.tracksFrom_eq_nil_iff _).mp hnone] at hreadable
  cases hreadable

theorem destroyed_after_restore_of_destroyed (h : session.player.destroyed = true)
    (snapshot : PlayerSnapshot) (volumeSupported : Bool) :
    (session.after (.restore snapshot volumeSupported)).player.destroyed = true := by
  rw [after_restore_of_destroyed h]
  refine (keeps_publish _).destroyed.trans ?_
  cases volumeSupported <;> exact h

/-- A destroyed player at rest is at rest no more once it is stirred. -/
theorem AtRestSince.not_after_of_stirs {base : Session} (h : base.AtRestSince session)
    {step : PlayerStep} (hstep : step.stirs = true) :
    ¬ base.AtRestSince (session.after step) := by
  intro hrest
  cases step with
  | restore snapshot volumeSupported =>
    have hlength := log_after_restore_of_destroyed h.destroyed snapshot volumeSupported
    rw [hrest.silent, h.silent] at hlength
    cases volumeSupported with
    | true => simp at hlength
    | false =>
      rw [PlayerStep.stirs, Bool.false_or] at hstep
      exact queued_after_restore_of_destroyed h.destroyed false hstep hrest.empty
  | member | loadAndPlay | trackEnded | destroy | list | listRemaining | elapse | loseLink =>
    cases hstep

end Restoring

/-! ### Whole runs -/

/-- A player at rest stays so throughout a run exactly if no step stirs it. -/
theorem AtRestSince.throughout_iff {base session : Session} (h : base.AtRestSince session)
    (steps : List PlayerStep) :
    (∀ done : List PlayerStep, done <+: steps → base.AtRestSince (session.afterAll done)) ↔
      ∀ step ∈ steps, step.stirs = false := by
  induction steps generalizing session with
  | nil =>
    refine iff_of_true ?_ (by simp)
    intro done hdone
    rw [List.prefix_nil.mp hdone]
    exact h
  | cons step rest ih =>
    constructor
    · intro hrun
      have hnext : base.AtRestSince (session.after step) :=
        hrun [step] (List.cons_prefix_cons.mpr ⟨rfl, List.nil_prefix⟩)
      have hstep : step.stirs = false := by
        by_contra hstirs
        exact h.not_after_of_stirs (by simpa using hstirs) hnext
      have hrest := (ih hnext).mp fun done hdone =>
        hrun (step :: done) (List.cons_prefix_cons.mpr ⟨rfl, hdone⟩)
      exact List.forall_mem_cons.mpr ⟨hstep, hrest⟩
    · intro hcalm done hdone
      obtain ⟨hstep, hrest⟩ := List.forall_mem_cons.mp hcalm
      cases done with
      | nil => exact h
      | cons first later =>
        obtain ⟨rfl, hlater⟩ := List.cons_prefix_cons.mp hdone
        exact (ih (h.after hstep)).mpr hrest later hlater

/-- After a player was destroyed, whatever its past, no command reaches the node, nothing is
announced, nothing is current, the queue is empty and the player stays destroyed, exactly if no step
stirs it, and nothing was queued since if it had been destroyed before. -/
theorem destroyed_throughout_iff (session : Session) (dice : Dice) (volume : Single)
    (past later : List PlayerStep) :
    (∀ done : List PlayerStep, done <+: later →
        (((session.opening dice volume).afterAll past).after .destroy).AtRestSince
          ((((session.opening dice volume).afterAll past).after .destroy).afterAll done)) ↔
      (((session.opening dice volume).afterAll past).player.destroyed = true →
        ((session.opening dice volume).afterAll past).player.queue.tracks = []) ∧
      ∀ step ∈ later, step.stirs = false := by
  have hended := endsIdle_afterAll session dice volume past
  generalize (session.opening dice volume).afterAll past = before at hended
  have hplayer := player_after_destroy before
  constructor
  · intro hrun
    have hrest : (before.after .destroy).AtRestSince (before.after .destroy) :=
      hrun [] List.nil_prefix
    refine ⟨?_, (hrest.throughout_iff later).mp hrun⟩
    intro hdestroyed
    rw [hdestroyed, if_pos rfl] at hplayer
    rw [← hplayer]
    exact hrest.empty
  · rintro ⟨hempty, hcalm⟩
    have hrest : (before.after .destroy).AtRestSince (before.after .destroy) := by
      cases hdestroyed : before.player.destroyed with
      | true =>
        rw [hdestroyed, if_pos rfl] at hplayer
        refine ⟨?_, ?_, ?_, rfl, rfl⟩
        · rw [hplayer]
          exact state_eq_destroyed_iff.mpr hdestroyed
        · rw [hplayer]
          exact hended hdestroyed
        · rw [hplayer]
          exact hempty hdestroyed
      | false =>
        rw [hdestroyed, if_neg Bool.false_ne_true] at hplayer
        refine ⟨?_, ?_, ?_, rfl, rfl⟩ <;> rw [hplayer]
        · exact state_eq_destroyed_iff.mpr rfl
        · rfl
        · rfl
    exact (hrest.throughout_iff later).mpr hcalm

def emptySnapshot : PlayerSnapshot where
  paused := true
  shuffled := false
  repeatMode := .off
  volume := maxVolume
  positionMillis := none
  channelRef := none
  tracks := []

/-- A snapshot that is restored into a destroyed player makes it command its node. -/
theorem restore_commands_destroyed_player :
    ¬ ∀ done : List PlayerStep, done <+: [.restore emptySnapshot true] →
      ((sampleSession.opening (.ofSeed 1) maxVolume).after .destroy).AtRestSince
        (((sampleSession.opening (.ofSeed 1) maxVolume).after .destroy).afterAll done) := by
  intro hrun
  have hsilent := (hrun [.restore emptySnapshot true] (List.prefix_refl _)).silent
  exact absurd hsilent (by decide)

end Session

end Jukebox
