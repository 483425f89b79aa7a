import Jukebox.Proofs.Player.Feed
import Jukebox.Proofs.Player.Restoring
import Jukebox.Proofs.Player.Traffic

/-!
Refused requests. A player finds out whether it is to refuse a request before it changes anything,
and once it has set out, nothing but its node can make it fail. Skipping chosen tracks is no
exception, although it takes the tracks out before it asks whether the player is at its end: a
player that is has no current track to cut.
-/
namespace Jukebox

/-- Whether a request was refused; it may also fail because somebody else did. -/
def PlayerError.isRefusal : PlayerError → Bool
  | .backend _ => false
  | _ => true

/-- Once destroyed, a player has no current track, whatever else is going on. -/
theorem Player.robust_endsIdle :
    Player.Robust fun player => player.destroyed = true → player.current = none where
  queue := fun _ h => h
  past := fun _ _ h => h
  idle := fun _ _ => rfl
  chosen := fun _ halive _ hdestroyed => absurd (halive.symm.trans hdestroyed) Bool.false_ne_true
  paused := fun _ h => h
  volume := fun _ h => h
  clamped := fun _ h => h
  closed := fun hidle _ _ => hidle

namespace Session

structure Unmoved (before later : Session) : Prop where
  player : later.player = before.player
  node : later.node = before.node
  announcements : later.services.announcements = before.services.announcements
  updates : later.services.updates = before.services.updates

namespace Unmoved

variable {before between later : Session}

theorem refl (session : Session) : session.Unmoved session := ⟨rfl, rfl, rfl, rfl⟩

theorem trans (first : before.Unmoved between) (second : between.Unmoved later) :
    before.Unmoved later :=
  ⟨second.player.trans first.player, second.node.trans first.node,
    second.announcements.trans first.announcements, second.updates.trans first.updates⟩

end Unmoved

end Session

/-! ### Setting out -/

namespace Operation

variable {α β : Type}

def Unrefused (operation : Operation α) : Prop :=
  ∀ session, session.player.destroyed = false →
    (operation.run session).2.player.destroyed = false ∧
      ∀ cause, (operation.run session).1 = .error cause → cause.isRefusal = false

theorem unrefused_pure (value : α) : (pure value : Operation α).Unrefused :=
  fun _ halive => ⟨halive, nofun⟩

theorem unrefused_change {f : Session → Session}
    (hf : ∀ session, session.player.destroyed = false → (f session).player.destroyed = false) :
    (change f).Unrefused := fun session halive => ⟨hf session halive, nofun⟩

theorem unrefused_use {f : Session → α × Session}
    (hf : ∀ session, session.player.destroyed = false → (f session).2.player.destroyed = false) :
    (use f).Unrefused := fun session halive => ⟨hf session halive, nofun⟩

theorem unrefused_get (read : Session → α) : (get read).Unrefused := fun _ halive => ⟨halive, nofun⟩

/-- The node does not refuse in the player's name. -/
theorem isRefusal_of_ask {command : Command} {session : Session} {cause : PlayerError}
    (h : ((ask command).run session).1 = .error cause) : cause.isRefusal = false := by
  rw [run_ask] at h
  cases hanswer : (session.perform command).1 with
  | ok => rw [hanswer] at h; cases h
  | error text => rw [hanswer] at h; cases h; rfl

theorem unrefused_ask (command : Command) : (ask command).Unrefused := by
  refine fun session halive => ⟨?_, fun _ => isRefusal_of_ask⟩
  rw [run_ask]
  exact halive

theorem Unrefused.bind {operation : Operation α} (h : operation.Unrefused)
    {next : α → Operation β} (hnext : ∀ value, (next value).Unrefused) :
    (operation >>= next).Unrefused := by
  intro session halive
  obtain ⟨hlives, hcauses⟩ := h session halive
  rw [run_bind]
  cases hrun : operation.run session with
  | mk outcome later =>
    rw [hrun] at hlives hcauses
    cases outcome with
    | ok value => exact hnext value later hlives
    | error cause => exact ⟨hlives, fun other hother => hcauses other (by cases hother; rfl)⟩

def RefusesFirst (operation : Operation α) (session : Session) : Prop :=
  ∀ cause, (operation.run session).1 = .error cause → cause.isRefusal = true →
    session.Unmoved (operation.run session).2

variable {session : Session}

theorem Unrefused.refusesFirst {operation : Operation α} (h : operation.Unrefused)
    (halive : session.player.destroyed = false) : operation.RefusesFirst session := by
  intro cause hcause hrefusal
  rw [(h session halive).2 cause hcause] at hrefusal
  cases hrefusal

theorem refusesFirst_ask (command : Command) : (ask command).RefusesFirst session := by
  intro cause hcause hrefusal
  rw [isRefusal_of_ask hcause] at hrefusal
  cases hrefusal

theorem refusesFirst_of_ok {operation : Operation α} {value : α}
    (h : (operation.run session).1 = .ok value) : operation.RefusesFirst session := by
  intro cause hcause
  rw [h] at hcause
  cases hcause

theorem refusesFirst_fail (cause : PlayerError) :
    (fail cause : Operation α).RefusesFirst session := fun _ _ _ => .refl session

/-- What comes first leaves everything as it is. -/
theorem refusesFirst_bind {operation : Operation α} {next : α → Operation β}
    (hfirst : session.Unmoved (operation.run session).2)
    (hnext : ∀ value, (operation.run session).1 = .ok value →
      (next value).RefusesFirst (operation.run session).2) :
    (operation >>= next).RefusesFirst session := by
  intro cause hcause hrefusal
  rw [run_bind] at hcause ⊢
  cases hrun : operation.run session with
  | mk outcome later =>
    rw [hrun] at hfirst hnext hcause
    cases outcome with
    | ok value => exact hfirst.trans (hnext value rfl cause hcause hrefusal)
    | error other => exact hfirst

theorem RefusesFirst.toUnit {operation : Operation α} (h : operation.RefusesFirst session) :
    operation.toUnit.RefusesFirst session := by
  intro cause hcause hrefusal
  rw [run_toUnit] at hcause ⊢
  refine h cause ?_ hrefusal
  cases hrun : (operation.run session).1 with
  | ok value => rw [hrun] at hcause; cases hcause
  | error other => rw [hrun] at hcause; cases hcause; rfl

end Operation

namespace Session

open Operation

theorem unrefused_publish : (change publish).Unrefused :=
  unrefused_change fun session halive => (keeps_publish session).destroyed.trans halive

theorem unrefused_ensureAlive : ensureAlive.Unrefused := by
  intro session halive
  rw [run_ensureAlive]
  refine ⟨halive, ?_⟩
  rw [halive]
  exact nofun

/-- After a try the player fails with what the node said. -/
theorem unrefused_conclude {lastError : Option PlayerError}
    (hlast : ∀ cause, lastError = some cause → cause.isRefusal = false) :
    (conclude lastError).Unrefused := by
  refine unrefused_publish.bind fun _ session halive => ?_
  cases lastError with
  | none => exact ⟨halive, nofun⟩
  | some cause =>
    refine ⟨halive, fun other hother => ?_⟩
    cases hother
    exact hlast cause rfl

theorem unrefused_tryTracks (silent onlyIfIdle : Bool) (attempts : Nat)
    {lastError : Option PlayerError}
    (hlast : ∀ cause, lastError = some cause → cause.isRefusal = false) :
    (tryTracks silent onlyIfIdle attempts lastError).Unrefused := by
  induction attempts generalizing lastError with
  | zero => exact unrefused_conclude hlast
  | succ attempts ih =>
    intro session halive
    rcases run_tryTracks silent onlyIfIdle attempts lastError session with
      ⟨hdestroyed, -⟩ | ⟨-, heq⟩ | ⟨-, -, heq⟩ | ⟨-, track, announce, -, ⟨-, heq⟩ | ⟨cause, -, heq⟩⟩
    · rw [halive] at hdestroyed
      cases hdestroyed
    · rw [heq]
      exact ⟨halive, nofun⟩
    · rw [heq]
      exact unrefused_conclude hlast _ halive
    · rw [heq]
      refine ⟨?_, nofun⟩
      rw [accepted, publish_player]
      exact (congrArg Player.destroyed (started_player _ _ _)).trans halive
    · rw [heq]
      refine ih (fun other hother => ?_) _ halive
      cases hother
      rfl

theorem unrefused_advance (silent onlyIfIdle : Bool) : (advance silent onlyIfIdle).Unrefused :=
  (unrefused_get _).bind fun attempts => unrefused_tryTracks silent onlyIfIdle attempts nofun

theorem unrefused_startOrPublish (idle : Bool) : (startOrPublish idle).Unrefused := by
  cases idle with
  | true => exact unrefused_advance false true
  | false => exact unrefused_publish

theorem unrefused_cut : (do
    change (·.setPlayer Player.release)
    ask .stop : Operation Unit).Unrefused := by
  refine Unrefused.bind (unrefused_change fun session => ?_) fun _ => unrefused_ask _
  exact id

theorem unrefused_skipTracks (ids : List TrackId) : (skipTracks ids).Unrefused := by
  refine Unrefused.bind (unrefused_use fun _ halive => halive) fun outcome => ?_
  obtain ⟨removed, skipCurrent⟩ := outcome
  cases skipCurrent with
  | true => exact (unrefused_ensureAlive.bind fun _ => unrefused_cut).bind fun _ => unrefused_pure _
  | false => exact unrefused_publish.bind fun _ => unrefused_pure _

/-! ### Operations -/

variable {session : Session}

/-- A player that is at its end refuses at once. -/
theorem refusesFirst_ensureAlive {α : Type} {operation : Operation α}
    (h : session.player.destroyed = false → operation.RefusesFirst session) :
    (ensureAlive >>= fun _ => operation).RefusesFirst session := by
  have hrun := run_ensureAlive session
  refine refusesFirst_bind (by rw [hrun]; exact .refl session) fun _ hok => ?_
  rw [hrun] at hok ⊢
  cases halive : session.player.destroyed with
  | true => rw [halive] at hok; cases hok
  | false => exact h halive

/-- A living player that has set out refuses no more. -/
theorem refusesFirst_of_unrefused {operation : Operation Unit} (h : operation.Unrefused) :
    (ensureAlive >>= fun _ => operation).RefusesFirst session :=
  refusesFirst_ensureAlive h.refusesFirst

/-- Asking for the limits moves nothing. -/
theorem refusesFirst_checkLimits {α β : Type}
    {check : LimitsAnswer → TrackCounts → Metrics → Except String α × Metrics}
    {next : α → Operation β}
    (h : ∀ value later, later.player = session.player → (next value).RefusesFirst later) :
    (checkLimits check >>= next).RefusesFirst session := by
  have hrun := run_checkLimits check session
  refine refusesFirst_bind ?_ fun value _ => h value _ ?_
  · rw [hrun]
    exact ⟨rfl, rfl, rfl, rfl⟩
  · rw [hrun]
    rfl

theorem refusesFirst_enqueue (track : Track) (level : PermissionLevel) :
    (enqueue track level).RefusesFirst session := by
  have hqueue : (do
      let idle ← use fun session => session.withPlayer fun player =>
        (player.isIdle, player.setQueue (·.add track false))
      startOrPublish idle : Operation Unit).Unrefused :=
    Unrefused.bind (unrefused_use fun _ halive => halive) unrefused_startOrPublish
  refine refusesFirst_ensureAlive fun halive =>
    refusesFirst_checkLimits fun status later hsame => ?_
  split
  · exact refusesFirst_bind (.refl later) fun _ hok => nomatch hok
  · exact hqueue.refusesFirst (hsame ▸ halive)

theorem refusesFirst_enqueueAll (tracks : List Track) (level : PermissionLevel) :
    (enqueueAll tracks level).RefusesFirst session := by
  refine refusesFirst_ensureAlive fun halive =>
    refusesFirst_checkLimits fun statuses later hsame => ?_
  refine Unrefused.refusesFirst ?_ (hsame ▸ halive)
  refine Unrefused.bind (unrefused_use fun _ halive => halive) fun idle => ?_
  exact (unrefused_startOrPublish idle).bind fun _ => unrefused_pure statuses

theorem refusesFirst_setPaused (paused : Bool) : (setPaused paused).RefusesFirst session := by
  refine refusesFirst_of_unrefused ?_
  refine Unrefused.bind (unrefused_use fun _ halive => halive) fun idle => ?_
  exact (unrefused_ask _).bind fun _ => unrefused_startOrPublish idle

theorem refusesFirst_stop : stop.RefusesFirst session := by
  refine refusesFirst_of_unrefused ?_
  refine Unrefused.bind (unrefused_change fun session => ?_) fun _ => ?_
  · exact id
  · exact (unrefused_ask _).bind fun _ => unrefused_publish

theorem refusesFirst_skip : skip.RefusesFirst session := refusesFirst_of_unrefused unrefused_cut

theorem refusesFirst_seek (position : Millis) : (seek position).RefusesFirst session := by
  refine refusesFirst_bind (.refl session) fun target _ => ?_
  cases target with
  | nothingPlaying | liveStream | notSeekable | outOfRange => exact refusesFirst_fail _
  | position target => exact refusesFirst_ask _

theorem refusesFirst_setVolume (volume : Single) : (setVolume volume).RefusesFirst session := by
  have hset : (do
      change (·.setPlayer ({ · with volume }))
      ask (.volume volume) : Operation Unit).Unrefused := by
    refine Unrefused.bind (unrefused_change fun session => ?_) fun _ => unrefused_ask _
    exact id
  unfold setVolume
  split
  · exact refusesFirst_bind (.refl session) fun _ hok => nomatch hok
  · exact refusesFirst_of_unrefused hset

theorem refusesFirst_join (channel : ChannelId) : (join channel).RefusesFirst session := by
  refine refusesFirst_of_unrefused ((unrefused_get _).bind fun current => ?_)
  split
  · exact unrefused_pure ()
  · exact unrefused_ask _

theorem refusesFirst_advance (silent onlyIfIdle : Bool) :
    (advance silent onlyIfIdle).RefusesFirst session := by
  cases halive : session.player.destroyed with
  | false => exact (unrefused_advance silent onlyIfIdle).refusesFirst halive
  | true =>
    intro cause _ _
    rw [run_advance_of_destroyed halive]
    exact .refl session

theorem refusesFirst_trackEnded (reason : EndReason) :
    (trackEnded reason).RefusesFirst session := by
  refine refusesFirst_bind (.refl session) fun destroyed hread => ?_
  obtain rfl : session.player.destroyed = destroyed := Except.ok.inj hread
  cases halive : session.player.destroyed with
  | true => exact refusesFirst_of_ok rfl
  | false =>
    refine Unrefused.refusesFirst ?_ halive
    cases reason with
    | finished | stopped =>
      refine Unrefused.bind (unrefused_change fun session halive => ?_) fun _ =>
        unrefused_advance false false
      exact (Stage.finish_destroyed session.player).trans halive
    | loadFailed =>
      refine Unrefused.bind (unrefused_change fun session => ?_) fun _ =>
        unrefused_advance false false
      exact id
    | cleanup | replaced => exact unrefused_pure ()

/-- A player at its end has nothing current, so it is not asked to cut it. -/
theorem refusesFirst_skipTracks (h : session.EndsIdle) (ids : List TrackId) :
    (skipTracks ids).RefusesFirst session := by
  cases halive : session.player.destroyed with
  | false => exact (unrefused_skipTracks ids).refusesFirst halive
  | true =>
    have hlisted : (session.player.removeAll ids).2.isCurrentIn ids = false := by
      have hidle : (session.player.removeAll ids).2.current = none := h halive
      simp [Player.isCurrentIn, hidle]
    have hok : ((skipTracks ids).run session).1 =
        .ok ((session.player.removeAll ids).1.length + 0) := by
      unfold skipTracks
      rw [run_bind, run_use]
      simp only [withPlayer, hlisted, run_bind, run_change, run_pure, Bool.false_eq_true, if_false]
      rfl
    exact refusesFirst_of_ok hok

theorem refusesFirst_skipTracksFor (h : session.EndsIdle) (user : UserId) (level : PermissionLevel)
    (ids : List TrackId) : (skipTracksFor user level ids).RefusesFirst session := by
  refine refusesFirst_bind (.refl session) fun allowed _ => ?_
  split
  · exact refusesFirst_bind (.refl session) fun _ hok => nomatch hok
  · exact refusesFirst_skipTracks h ids

theorem run_destroy_ok (session : Session) : (destroy.run session).1 = .ok () := by
  unfold destroy
  rw [run_bind, run_get]
  cases session.player.destroyed with
  | true => rfl
  | false =>
    simp only [Bool.false_eq_true, if_false, run_bind, run_change, run_get]
    split
    · rfl
    · simp only [run_bind, run_ignoring, run_change]

/-- Whatever a player is asked, if it refuses, nothing has moved. -/
theorem refusesFirst_call (h : session.EndsIdle) (step : PlayerStep) :
    step.call.RefusesFirst session := by
  cases step with
  | member request =>
    cases request with
    | enqueue track level => exact refusesFirst_enqueue track level
    | enqueueAll tracks level => exact (refusesFirst_enqueueAll tracks level).toUnit
    | skip => exact refusesFirst_skip
    | skipTracks ids => exact (refusesFirst_skipTracks h ids).toUnit
    | skipTracksFor user level ids => exact (refusesFirst_skipTracksFor h user level ids).toUnit
    | stop => exact refusesFirst_stop
    | setPaused paused => exact refusesFirst_setPaused paused
    | seek position => exact refusesFirst_seek position
    | setVolume volume => exact refusesFirst_setVolume volume
    | setRepeat | setShuffle | setRoundRobin | reshuffle => exact refusesFirst_of_ok rfl
    | join channel => exact refusesFirst_join channel
  | loadAndPlay silent => exact refusesFirst_advance silent false
  | trackEnded reason => exact refusesFirst_trackEnded reason
  | restore snapshot volumeSupported =>
    obtain ⟨ready, -, hrun⟩ := exists_told_restore snapshot volumeSupported session
    exact (refusesFirst_of_ok (congrArg Prod.fst hrun)).toUnit
  | destroy => exact refusesFirst_of_ok (run_destroy_ok session)
  | list | listRemaining | elapse | loseLink => exact refusesFirst_of_ok rfl

/-! ### Refusals in any traffic -/

def FailsToWeigh (session : Session) : PlayerStep → Prop
  | .member (.enqueue track level) => ∃ cause, (session.weigh track level).1 = .error cause
  | .member (.enqueueAll tracks level) => ∃ cause, (session.weighAll tracks level).1 = .error cause
  | _ => False

/-- Where the limits cannot be had, an operation goes no further. -/
theorem unmoved_checkLimits {α β : Type}
    {check : LimitsAnswer → TrackCounts → Metrics → Except String α × Metrics}
    {next : α → Operation β} {cause : String}
    (h : (session.setMetrics (check session.services.limits session.player.counts)).1 =
      .error cause) :
    session.Unmoved ((ensureAlive >>= fun _ => checkLimits check >>= next).run session).2 := by
  rw [run_bind, run_ensureAlive]
  cases session.player.destroyed with
  | true => exact .refl session
  | false =>
    simp only [Bool.false_eq_true, if_false, run_bind, run_checkLimits, h]
    exact ⟨rfl, rfl, rfl, rfl⟩

theorem unmoved_of_failsToWeigh {step : PlayerStep} (h : session.FailsToWeigh step) :
    session.Unmoved (step.call.run session).2 := by
  unfold FailsToWeigh at h
  split at h
  · obtain ⟨cause, hcause⟩ := h
    exact unmoved_checkLimits hcause
  · obtain ⟨cause, hcause⟩ := h
    rw [PlayerStep.call, Request.call, run_toUnit]
    exact unmoved_checkLimits hcause
  · exact h.elim

/-- In whatever state a player has come to, if it refuses a request, or the limits cannot be had for
what it is asked to queue, then nothing has moved. -/
theorem refusal_moves_nothing {session reached : Session} {dice : Dice} {volume : Single}
    {events : List TrafficEvent}
    (hreached : ((Traffic.opening session dice volume).run events).session = reached)
    (step : PlayerStep) {cause : PlayerError} (hfailed : (step.call.run reached).1 = .error cause)
    (hcause : cause.isRefusal = true ∨ reached.FailsToWeigh step) :
    reached.Unmoved (step.call.run reached).2 := by
  rcases hcause with hrefusal | hweigh
  · have hidle : reached.EndsIdle := hreached ▸
      Traffic.holds_run Player.robust_endsIdle session dice volume nofun events
    exact refusesFirst_call hidle step cause hfailed hrefusal
  · exact unmoved_of_failsToWeigh hweigh

def destroyedMidway : List TrafficEvent :=
  [.starts (.member (.enqueueAll [sampleTrack 1 firstUser false, sampleTrack 2 secondUser false]
      .user)),
    .starts .destroy]

def limitlessMidway : List TrafficEvent :=
  [.starts (.member (.enqueueAll [sampleTrack 1 firstUser false, sampleTrack 2 secondUser false]
      .user)),
    .drifts {} { sampleSession.services with limits := .error "gone" }, .answers 0 (.ok ())]

theorem refusal_moves_nothing_midway :
    let opening := Traffic.opening sampleSession (.ofSeed 1) maxVolume
    let destroyed := (opening.run destroyedMidway).session
    let limitless := (opening.run limitlessMidway).session
    let queues : PlayerStep := .member (.enqueue (sampleTrack 3 firstUser false) .user)
    ((skip.run destroyed).1 = .error .destroyed ∧ destroyed.Unmoved (skip.run destroyed).2) ∧
      (queues.call.run limitless).1 = .error (.backend "gone") ∧ limitless.FailsToWeigh queues ∧
        limitless.Unmoved (queues.call.run limitless).2 := by
  intro opening destroyed limitless queues
  have hdestroyed : (skip.run destroyed).1 = .error .destroyed := by decide
  have hlimitless : (queues.call.run limitless).1 = .error (.backend "gone") := by decide
  have hweigh : limitless.FailsToWeigh queues := ⟨"gone", by decide⟩
  have hskip : destroyed.Unmoved (skip.run destroyed).2 :=
    refusal_moves_nothing rfl (.member .skip) hdestroyed (.inl rfl)
  exact ⟨⟨hdestroyed, hskip⟩, hlimitless, hweigh,
    refusal_moves_nothing rfl queues hlimitless (.inr hweigh)⟩

end Session

end Jukebox
