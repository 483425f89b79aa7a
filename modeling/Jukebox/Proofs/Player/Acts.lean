import Jukebox.Player.Restore
import Jukebox.Proofs.Player.Stage
import Mathlib.Logic.Relation

/-!
A player on its own: steps one after another, each carried to its end while nothing else goes on.
Whatever a step does, it does in acts, and what every act keeps, every run keeps.
-/
namespace Jukebox

inductive PlayerStep
  | member (request : Request)
  | loadAndPlay (silent : Bool)
  | trackEnded (reason : EndReason)
  | restore (snapshot : PlayerSnapshot) (volumeSupported : Bool)
  | destroy
  | list (start stop : Nat)
  | listRemaining
  /-- The node has come to a position. -/
  | elapse (position : Millis)
  /-- The node gives its link up. -/
  | loseLink

def Session.setNode (session : Session) (change : AudioNode → AudioNode) : Session :=
  { session with node := change session.node }

def PlayerStep.operation : PlayerStep → Operation Unit
  | .member request => request.operation
  | .loadAndPlay silent => (Session.loadAndPlay silent).ignoring
  | .trackEnded reason => (Session.trackEnded reason).ignoring
  | .restore snapshot volumeSupported => (Session.restore snapshot volumeSupported).ignoring
  | .destroy => Session.destroy
  | .list start stop => .change fun session => (session.withPlayer (·.tracksInRange start stop)).2
  | .listRemaining => .change fun session => (session.withPlayer (·.remaining)).2
  | .elapse position => .change (·.setNode ({ · with position }))
  | .loseLink => .change (·.setNode ({ · with state := .destroyed }))

def Player.loading (player : Player) (track : Track) : Player :=
  { player with
    queue := player.queue.take.2
    current := some track.fromStart
    lastLoaded := some track.fromStart }

def Player.exhausted (player : Player) : Player :=
  { player with queue := player.queue.take.2, current := none }

def Track.playing (track : Track) : Command :=
  .play track.audio track.playStart track.endPosition?

namespace Session

def opening (session : Session) (dice : Dice) (volume : Single) : Session :=
  session.setPlayer fun _ => .fresh dice volume

def after (session : Session) (step : PlayerStep) : Session := (step.operation.run session).2

def afterAll (session : Session) (steps : List PlayerStep) : Session := steps.foldl after session

def weigh (session : Session) (track : Track) (level : PermissionLevel) :
    Except String LimitStatus × Session :=
  session.setMetrics (Admission.check session.services.limits track level session.player.counts 0)

def weighAll (session : Session) (tracks : List Track) (level : PermissionLevel) :
    Except String (List LimitStatus) × Session :=
  session.setMetrics (Admission.checkAll session.services.limits tracks level session.player.counts)

def accepted (session : Session) (track : Track) (announce : Bool) : Session :=
  (((session.setPlayer (·.loading track)).perform track.playing).2.started track.fromStart
    announce).publish

def refused (session : Session) (track : Track) : Session :=
  (((session.setPlayer (·.loading track)).perform track.playing).2.setPlayer
    (·.discard track.id)).loadFailed (some track.fromStart)

inductive Act : PlayerStep → Session → Session → Prop
  | publishes {step session} : Act step session session.publish
  | weighs {session track level} :
      Act (.member (.enqueue track level)) session (session.weigh track level).2
  | queues {session track level status} (halive : session.player.destroyed = false)
      (hstatus : (session.weigh track level).1 = .ok status) (hallowed : status.allowed = true) :
      Act (.member (.enqueue track level)) session
        ((session.weigh track level).2.setPlayer (·.setQueue (·.add track false)))
  | weighsAll {session tracks level} :
      Act (.member (.enqueueAll tracks level)) session (session.weighAll tracks level).2
  | queuesAll {session tracks level statuses} (halive : session.player.destroyed = false)
      (hstatuses : (session.weighAll tracks level).1 = .ok statuses) :
      Act (.member (.enqueueAll tracks level)) session
        ((session.weighAll tracks level).2.setPlayer (·.setQueue
          (·.addAll (((tracks.zip statuses).filter (·.2.allowed)).map (·.1)) false)))
  | loads {step session track announce} (halive : session.player.destroyed = false)
      (hgiven : session.player.queue.take.1 = some track)
      (hdone : ((session.setPlayer (·.loading track)).perform track.playing).1 = .ok ()) :
      Act step session (session.accepted track announce)
  | rejects {step session track cause} (halive : session.player.destroyed = false)
      (hgiven : session.player.queue.take.1 = some track)
      (hrefused : ((session.setPlayer (·.loading track)).perform track.playing).1 = .error cause) :
      Act step session (session.refused track)
  | exhausts {step session} (halive : session.player.destroyed = false)
      (hempty : session.player.queue.take.1 = none) :
      Act step session (session.setPlayer Player.exhausted)
  | finishes {session reason} (halive : session.player.destroyed = false)
      (hreason : reason = .finished ∨ reason = .stopped) :
      Act (.trackEnded reason) session (session.setPlayer Player.finish)
  | givesUp {session} (halive : session.player.destroyed = false) :
      Act (.trackEnded .loadFailed) session
        ((session.withPlayer Player.fail).2.loadFailed (session.withPlayer Player.fail).1)
  | cuts {step session} (halive : session.player.destroyed = false) :
      Act step session ((session.setPlayer Player.release).perform .stop).2
  | stops {session} (halive : session.player.destroyed = false) :
      Act (.member .stop) session ((session.setPlayer Player.emptied).perform .stop).2
  | pauses {session paused} (halive : session.player.destroyed = false) :
      Act (.member (.setPaused paused)) session
        ((session.setPlayer ({ · with paused })).perform (.pause paused)).2
  | seeks {session position target}
      (htarget : session.player.seekTarget position = .position target) :
      Act (.member (.seek position)) session (session.perform (.seek target)).2
  | setsVolume {session volume} (halive : session.player.destroyed = false)
      (hvalid : Player.validVolume volume = true) :
      Act (.member (.setVolume volume)) session
        ((session.setPlayer ({ · with volume })).perform (.volume volume)).2
  | repeats {session mode} :
      Act (.member (.setRepeat mode)) session (session.setPlayer (·.setQueue (·.setRepeat mode)))
  | shuffles {step session on} :
      Act step session (session.setPlayer (·.setQueue (·.setShuffle on)))
  | rotates {session on} :
      Act (.member (.setRoundRobin on)) session
        (session.setPlayer (·.setQueue (·.setRoundRobin on)))
  | reshuffles {session} :
      Act (.member .reshuffle) session (session.setPlayer (·.setQueue (·.reshuffle)))
  | connects {step session channel} (halive : session.player.destroyed = false) :
      Act step session (session.perform (.connect channel)).2
  | strikes {step session ids} : Act step session (session.setPlayer fun player =>
      (player.removeAll ids).2)
  | closes {session} (halive : session.player.destroyed = false)
      (hlost : session.node.state = .destroyed) :
      Act .destroy session (session.setPlayer Player.close)
  | letsGo {session} (halive : session.player.destroyed = false)
      (hlinked : session.node.state ≠ .destroyed) :
      Act .destroy session
        (((session.setPlayer Player.close).perform .stop).2.perform .destroy).2
  | publishesGone {session} (hclosed : session.player.destroyed = true) :
      Act .destroy session session.publishGone
  | takesOver {session snapshot volumeSupported} :
      Act (.restore snapshot volumeSupported) session
        (session.takeOver snapshot volumeSupported).2
  | resumesVolume {session snapshot} :
      Act (.restore snapshot true) session (session.perform (.volume session.player.volume)).2
  | lists {start stop session} :
      Act (.list start stop) session (session.withPlayer (·.tracksInRange start stop)).2
  | listsRemaining {session} : Act .listRemaining session (session.withPlayer (·.remaining)).2
  | elapses {session position} :
      Act (.elapse position) session (session.setNode ({ · with position }))
  | losesLink {session} :
      Act .loseLink session (session.setNode ({ · with state := .destroyed }))

end Session

namespace Operation

variable {α β : Type} {step : PlayerStep}

/-- Run on its own, an operation does nothing but acts of a step. -/
def Within (step : PlayerStep) (operation : Operation α) : Prop :=
  ∀ session, Relation.ReflTransGen (Session.Act step) session (operation.run session).2

theorem within_pure (value : α) : (pure value : Operation α).Within step := fun _ => .refl

theorem within_fail (cause : PlayerError) : (fail cause : Operation α).Within step := fun _ => .refl

theorem within_get (read : Session → α) : (get read).Within step := fun _ => .refl

theorem within_change {f : Session → Session}
    (h : ∀ session, Session.Act step session (f session)) : (change f).Within step :=
  fun session => .single (h session)

theorem within_use {f : Session → α × Session}
    (h : ∀ session, Session.Act step session (f session).2) : (use f).Within step :=
  fun session => .single (h session)

theorem Within.bind {operation : Operation α} (h : operation.Within step)
    {next : α → Operation β} (hnext : ∀ value, (next value).Within step) :
    (operation >>= next).Within step := by
  intro session
  have hfirst := h session
  rw [run_bind]
  cases hrun : operation.run session with
  | mk outcome later =>
    rw [hrun] at hfirst
    cases outcome with
    | ok value => exact hfirst.trans (hnext value later)
    | error cause => exact hfirst

theorem run_ignoring (operation : Operation α) (session : Session) :
    operation.ignoring.run session = (.ok (), (operation.run session).2) := by
  unfold ignoring
  rw [run_bind, run_attempt]
  rfl

theorem Within.attempt {operation : Operation α} (h : operation.Within step) :
    operation.attempt.Within step := by
  intro session
  rw [run_attempt]
  exact h session

theorem Within.ignoring {operation : Operation α} (h : operation.Within step) :
    operation.ignoring.Within step := h.attempt.bind fun _ => within_pure ()

end Operation

namespace Session

open Operation

variable {step : PlayerStep}

theorem within_publish : (change publish).Within step := within_change fun _ => .publishes

/-- An operation that is refused after the end need only be looked at before it. -/
theorem within_ensureAlive {α : Type} {operation : Operation α}
    (h : ∀ session : Session, session.player.destroyed = false →
      Relation.ReflTransGen (Act step) session (operation.run session).2) :
    (ensureAlive >>= fun _ => operation).Within step := by
  intro session
  rw [run_bind, run_ensureAlive]
  cases hdestroyed : session.player.destroyed with
  | true => exact .refl
  | false => exact h session hdestroyed

/-! ### Loading tracks -/

/-- A choice of the next track is refused, or it finds no track, or it finds one. -/
theorem next_eq (player : Player) (silent onlyIfIdle retrying announces : Bool) :
    (player.destroyed = true ∧
      player.next silent onlyIfIdle retrying announces = (.destroyed, player)) ∨
    ((onlyIfIdle && (player.current.isSome || player.paused) ||
        retrying && player.current.isSome) = true ∧
      player.next silent onlyIfIdle retrying announces = (.busy, player)) ∨
    (player.destroyed = false ∧ player.queue.take.1 = none ∧
      player.next silent onlyIfIdle retrying announces = (.empty, player.exhausted)) ∨
    (player.destroyed = false ∧ ∃ track announce, player.queue.take.1 = some track ∧
      player.next silent onlyIfIdle retrying announces =
        (.load track.fromStart track.playStart announce, player.loading track)) := by
  cases hdestroyed : player.destroyed with
  | true => exact .inl ⟨rfl, by simp only [Player.next, hdestroyed, if_true]⟩
  | false =>
    right
    unfold Player.next
    rw [hdestroyed, if_neg Bool.false_ne_true]
    split
    · next hbusy => exact .inl ⟨hbusy, rfl⟩
    · right
      cases htake : player.queue.take with
      | mk given queue =>
        cases given with
        | none => exact .inl ⟨rfl, rfl, by simp only [Player.exhausted, htake, hdestroyed]⟩
        | some track =>
          exact .inr ⟨rfl, track, _, rfl, by simp only [Player.loading, htake, hdestroyed]; rfl⟩

theorem within_conclude (lastError : Option PlayerError) : (conclude lastError).Within step := by
  refine within_publish.bind fun _ => ?_
  cases lastError with
  | some cause => exact within_fail cause
  | none => exact within_pure ()

/-- What loading a chosen track comes to. -/
theorem run_load (track : Track) (announce : Bool) (session : Session) :
    (load track.fromStart track.playStart announce).run (session.setPlayer (·.loading track)) =
      match ((session.setPlayer (·.loading track)).perform track.playing).1 with
      | .ok () => (.ok (.ok ()), session.accepted track announce)
      | .error cause => (.ok (.error (.backend cause)), session.refused track) := by
  have hcommand : Command.play track.fromStart.audio track.playStart
      track.fromStart.endPosition? = track.playing := rfl
  have hlater : ∀ later : Session,
      later = ((session.setPlayer (·.loading track)).perform track.playing).2 →
      (later.started track.fromStart announce).publish = session.accepted track announce ∧
      (later.setPlayer (·.discard track.fromStart.id)).loadFailed (some track.fromStart) =
        session.refused track := by
    rintro later rfl
    exact ⟨rfl, rfl⟩
  unfold load
  rw [hcommand, run_bind, run_attempt, run_ask]
  cases hperform : (session.setPlayer (·.loading track)).perform track.playing with
  | mk answer later =>
    obtain ⟨haccepted, hrefused⟩ := hlater later (by rw [hperform])
    cases answer with
    | ok value => simp only [Except.mapError, run_bind, run_change, haccepted]; rfl
    | error cause => simp only [Except.mapError, run_bind, run_change, hrefused]; rfl

/-- What one try comes to: it is refused, it gives way, it finds no track, or it finds one, which
the node accepts or not. -/
theorem run_tryTracks (silent onlyIfIdle : Bool) (attempts : Nat) (lastError : Option PlayerError)
    (session : Session) :
    (session.player.destroyed = true ∧
      (tryTracks silent onlyIfIdle (attempts + 1) lastError).run session =
        (.error .destroyed, session)) ∨
    ((onlyIfIdle && (session.player.current.isSome || session.player.paused) ||
        lastError.isSome && session.player.current.isSome) = true ∧
      (tryTracks silent onlyIfIdle (attempts + 1) lastError).run session = (.ok (), session)) ∨
    (session.player.destroyed = false ∧ session.player.queue.take.1 = none ∧
      (tryTracks silent onlyIfIdle (attempts + 1) lastError).run session =
        (conclude lastError).run (session.setPlayer Player.exhausted)) ∨
    (session.player.destroyed = false ∧ ∃ track announce,
      session.player.queue.take.1 = some track ∧
      (((session.setPlayer (·.loading track)).perform track.playing).1 = .ok () ∧
          (tryTracks silent onlyIfIdle (attempts + 1) lastError).run session =
            (.ok (), session.accepted track announce) ∨
        ∃ cause, ((session.setPlayer (·.loading track)).perform track.playing).1 = .error cause ∧
          (tryTracks silent onlyIfIdle (attempts + 1) lastError).run session =
            (tryTracks silent onlyIfIdle attempts (some (.backend cause))).run
              (session.refused track))) := by
  rw [tryTracks, run_bind, run_use]
  simp only [withPlayer]
  rcases next_eq session.player silent onlyIfIdle lastError.isSome
      session.services.announceTracks with
    ⟨hdestroyed, heq⟩ | ⟨hbusy, heq⟩ | ⟨halive, hempty, heq⟩ |
      ⟨halive, track, announce, hgiven, heq⟩
  · exact .inl ⟨hdestroyed, by rw [heq]; rfl⟩
  · exact .inr (.inl ⟨hbusy, by rw [heq]; rfl⟩)
  · exact .inr (.inr (.inl ⟨halive, hempty, by rw [heq]; rfl⟩))
  · refine .inr (.inr (.inr ⟨halive, track, announce, hgiven, ?_⟩))
    have hload := run_load track announce session
    rw [heq]
    dsimp only
    change (_ ∧ Operation.run (load track.fromStart track.playStart announce >>= _)
      (session.setPlayer (·.loading track)) = _) ∨ ∃ cause, _ ∧ Operation.run
        (load track.fromStart track.playStart announce >>= _)
        (session.setPlayer (·.loading track)) = _
    rw [run_bind, hload]
    cases ((session.setPlayer (·.loading track)).perform track.playing).1 with
    | ok value => exact .inl ⟨rfl, rfl⟩
    | error cause => exact .inr ⟨cause, rfl, rfl⟩

theorem within_tryTracks (silent onlyIfIdle : Bool) (attempts : Nat)
    (lastError : Option PlayerError) :
    (tryTracks silent onlyIfIdle attempts lastError).Within step := by
  induction attempts generalizing lastError with
  | zero => exact within_conclude lastError
  | succ attempts ih =>
    intro session
    rcases run_tryTracks silent onlyIfIdle attempts lastError session with
      ⟨-, heq⟩ | ⟨-, heq⟩ | ⟨halive, hempty, heq⟩ |
        ⟨halive, track, announce, hgiven, ⟨hdone, heq⟩ | ⟨cause, hrefused, heq⟩⟩
    · rw [heq]
    · rw [heq]
    · rw [heq]
      exact .trans (.single (.exhausts halive hempty)) (within_conclude lastError _)
    · rw [heq]
      exact .single (.loads halive hgiven hdone)
    · rw [heq]
      exact .trans (.single (.rejects halive hgiven hrefused)) (ih (some (.backend cause)) _)

theorem run_advance (silent onlyIfIdle : Bool) (session : Session) :
    (advance silent onlyIfIdle).run session =
      (tryTracks silent onlyIfIdle (session.player.queue.size + 1) none).run session := by
  unfold advance
  rw [run_bind, run_get]

theorem within_advance (silent onlyIfIdle : Bool) : (advance silent onlyIfIdle).Within step :=
  (within_get _).bind fun attempts => within_tryTracks silent onlyIfIdle attempts none

theorem within_startOrPublish (idle : Bool) : (startOrPublish idle).Within step := by
  cases idle with
  | true => exact within_advance false true
  | false => exact within_publish

/-! ### Queueing -/

theorem run_checkLimits {α : Type}
    (check : LimitsAnswer → TrackCounts → Metrics → Except String α × Metrics)
    (session : Session) :
    (checkLimits check).run session =
      ((session.setMetrics (check session.services.limits session.player.counts)).1.mapError
          .backend,
        (session.setMetrics (check session.services.limits session.player.counts)).2) := by
  unfold checkLimits
  rw [run_bind, run_use]
  cases (session.setMetrics (check session.services.limits session.player.counts)).1 <;> rfl

/-- What queueing a track comes to. -/
theorem run_enqueue {session : Session} (halive : session.player.destroyed = false) (track : Track)
    (level : PermissionLevel) :
    (enqueue track level).run session =
      match session.weigh track level with
      | (.error cause, later) => (.error (.backend cause), later)
      | (.ok status, later) =>
        if status.allowed then
          (startOrPublish later.player.isIdle).run
            (later.setPlayer (·.setQueue (·.add track false)))
        else (.error (.queueRejected status.code status.message), later) := by
  have hcheck : session.setMetrics (Admission.check session.services.limits track level
      session.player.counts 0) = session.weigh track level := rfl
  unfold enqueue
  rw [run_bind, run_ensureAlive, halive]
  simp only [Bool.false_eq_true, if_false, run_bind, run_checkLimits, hcheck]
  cases session.weigh track level with
  | mk outcome later =>
    cases outcome with
    | error cause => rfl
    | ok status =>
      cases hallowed : status.allowed with
      | true => simp [hallowed, Except.mapError, run_bind, run_use, withPlayer, setPlayer]
      | false => simp [hallowed, Except.mapError, run_bind, run_fail]

theorem within_enqueue (track : Track) (level : PermissionLevel) :
    (enqueue track level).Within (.member (.enqueue track level)) := by
  intro session
  cases hdestroyed : session.player.destroyed with
  | true =>
    unfold enqueue
    rw [run_bind, run_ensureAlive, hdestroyed]
    exact .refl
  | false =>
    rw [run_enqueue hdestroyed]
    cases hweigh : session.weigh track level with
    | mk outcome later =>
      have hlater : later = (session.weigh track level).2 := by rw [hweigh]
      have hweighs : Relation.ReflTransGen (Act (.member (.enqueue track level))) session later :=
        hlater ▸ .single .weighs
      cases outcome with
      | error cause => exact hweighs
      | ok status =>
        cases hallowed : status.allowed with
        | false =>
          simpa only [hallowed, Bool.false_eq_true, if_false] using hweighs
        | true =>
          simp only [hallowed, if_true]
          rw [hlater]
          exact .trans (.single (.queues hdestroyed (by rw [hweigh]) hallowed))
            (within_startOrPublish _ _)

/-- What queueing a batch comes to. -/
theorem run_enqueueAll {session : Session} (halive : session.player.destroyed = false)
    (tracks : List Track) (level : PermissionLevel) :
    ((enqueueAll tracks level).run session).2 =
      match session.weighAll tracks level with
      | (.error _, later) => later
      | (.ok statuses, later) =>
        ((startOrPublish later.player.isIdle).run (later.setPlayer (·.setQueue
          (·.addAll (((tracks.zip statuses).filter (·.2.allowed)).map (·.1)) false)))).2 := by
  have hcheck : session.setMetrics (Admission.checkAll session.services.limits tracks level
      session.player.counts) = session.weighAll tracks level := rfl
  unfold enqueueAll
  rw [run_bind, run_ensureAlive, halive]
  simp only [Bool.false_eq_true, if_false, run_bind, run_checkLimits, hcheck]
  cases session.weighAll tracks level with
  | mk outcome later =>
    cases outcome with
    | error cause => rfl
    | ok statuses =>
      simp only [Except.mapError, run_use, withPlayer, setPlayer]
      cases hrun : (startOrPublish later.player.isIdle).run _ with
      | mk answer last => cases answer <;> rfl

theorem within_enqueueAll (tracks : List Track) (level : PermissionLevel) :
    (enqueueAll tracks level).Within (.member (.enqueueAll tracks level)) := by
  intro session
  cases hdestroyed : session.player.destroyed with
  | true =>
    unfold enqueueAll
    rw [run_bind, run_ensureAlive, hdestroyed]
    exact .refl
  | false =>
    rw [run_enqueueAll hdestroyed]
    cases hweigh : session.weighAll tracks level with
    | mk outcome later =>
      have hlater : later = (session.weighAll tracks level).2 := by rw [hweigh]
      cases outcome with
      | error cause =>
        rw [hlater]
        exact .single .weighsAll
      | ok statuses =>
        simp only [hlater]
        exact .trans (.single (.queuesAll hdestroyed (by rw [hweigh])))
          (within_startOrPublish _ _)

/-! ### Playback -/

/-- A change of the player and the command after it are one act. -/
theorem within_ask_bind {α : Type} {session changed : Session} {command : Command}
    (hact : Act step session (changed.perform command).2) {next : Operation α}
    (hnext : next.Within step) :
    Relation.ReflTransGen (Act step) session ((ask command >>= fun _ => next).run changed).2 := by
  rw [run_bind, run_ask]
  cases hperform : changed.perform command with
  | mk answer later =>
    rw [hperform] at hact
    cases answer with
    | ok value => exact .trans (.single hact) (hnext later)
    | error cause => exact .single hact

theorem within_skip : skip.Within step := by
  refine within_ensureAlive fun session halive => ?_
  simp only [run_bind, run_change, run_ask]
  exact .single (.cuts halive)

theorem within_stop : stop.Within (.member .stop) := by
  refine within_ensureAlive fun session halive => ?_
  rw [run_bind, run_change]
  exact within_ask_bind (.stops halive) within_publish

theorem within_setPaused (paused : Bool) :
    (setPaused paused).Within (.member (.setPaused paused)) := by
  refine within_ensureAlive fun session halive => ?_
  rw [run_bind, run_use]
  exact within_ask_bind (.pauses halive) (within_startOrPublish _)

theorem within_seek (position : Millis) : (seek position).Within (.member (.seek position)) := by
  intro session
  unfold seek
  rw [run_bind, run_get]
  cases htarget : session.player.seekTarget position with
  | nothingPlaying | liveStream | notSeekable | outOfRange => exact .refl
  | position target =>
    simp only [run_ask]
    exact .single (.seeks htarget)

theorem within_setVolume (volume : Single) :
    (setVolume volume).Within (.member (.setVolume volume)) := by
  have hset (hvalid : Player.validVolume volume = true) : (do
      ensureAlive
      change (·.setPlayer ({ · with volume }))
      ask (.volume volume) : Operation Unit).Within (.member (.setVolume volume)) := by
    refine within_ensureAlive fun session halive => ?_
    simp only [run_bind, run_change, run_ask]
    exact .single (.setsVolume halive hvalid)
  intro session
  unfold setVolume
  cases hvalid : Player.validVolume volume with
  | false => exact .refl
  | true => exact hset hvalid session

/-- A change of the queue's settings is published. -/
theorem within_setQueue {f : TrackQueue → TrackQueue}
    (h : ∀ session, Act step session (session.setPlayer (·.setQueue f))) :
    (setQueue f).Within step :=
  fun session => .tail (.single (h session)) .publishes

theorem within_setShuffle (on : Bool) : (setShuffle on).Within step :=
  within_setQueue fun _ => .shuffles

theorem within_join (channel : ChannelId) : (join channel).Within step := by
  refine within_ensureAlive fun session halive => ?_
  rw [run_bind, run_get]
  by_cases hthere : session.node.channel = some channel
  · simp only [hthere, if_true]
    exact .refl
  · simp only [hthere, if_false, run_ask]
    exact .single (.connects halive)

theorem within_skipTracks (ids : List TrackId) : (skipTracks ids).Within step := by
  refine (within_use fun session => .strikes).bind fun outcome => ?_
  obtain ⟨removed, skipCurrent⟩ := outcome
  cases skipCurrent with
  | true => exact within_skip.bind fun _ => within_pure _
  | false => exact within_publish.bind fun _ => within_pure _

theorem within_skipTracksFor (user : UserId) (level : PermissionLevel) (ids : List TrackId) :
    (skipTracksFor user level ids).Within step := by
  refine (within_get _).bind fun allowed => ?_
  split
  · exact (within_fail _).bind fun _ => within_skipTracks ids
  · exact within_skipTracks ids

theorem within_operation (request : Request) : request.operation.Within (.member request) := by
  cases request with
  | enqueue track level => exact (within_enqueue track level).ignoring
  | enqueueAll tracks level => exact (within_enqueueAll tracks level).ignoring
  | skip => exact within_skip.ignoring
  | skipTracks ids => exact (within_skipTracks ids).ignoring
  | skipTracksFor user level ids => exact (within_skipTracksFor user level ids).ignoring
  | stop => exact within_stop.ignoring
  | setPaused paused => exact (within_setPaused paused).ignoring
  | seek position => exact (within_seek position).ignoring
  | setVolume volume => exact (within_setVolume volume).ignoring
  | setRepeat mode => exact (within_setQueue fun _ => .repeats).ignoring
  | setShuffle on => exact (within_setShuffle on).ignoring
  | setRoundRobin on => exact (within_setQueue fun _ => .rotates).ignoring
  | reshuffle => exact (within_setQueue fun _ => .reshuffles).ignoring
  | join channel => exact (within_join channel).ignoring

/-! ### Ends, restoring, and reading -/

theorem within_trackEnded (reason : EndReason) :
    (trackEnded reason).Within (.trackEnded reason) := by
  intro session
  unfold trackEnded
  rw [run_bind, run_get]
  cases halive : session.player.destroyed with
  | true => exact .refl
  | false =>
    cases reason with
    | finished =>
      exact .trans (.single (.finishes halive (.inl rfl))) (within_advance false false _)
    | stopped =>
      exact .trans (.single (.finishes halive (.inr rfl))) (within_advance false false _)
    | loadFailed => exact .trans (.single (.givesUp halive)) (within_advance false false _)
    | cleanup | replaced => exact .refl

theorem within_destroy : destroy.Within .destroy := by
  intro session
  unfold destroy
  rw [run_bind, run_get]
  cases halive : session.player.destroyed with
  | true => exact .refl
  | false =>
    simp only [Bool.false_eq_true, if_false, run_bind, run_change, run_get]
    split
    · next hlost => exact .tail (.single (.closes halive hlost)) (.publishesGone rfl)
    · next hlinked =>
      simp only [run_bind, run_ignoring, run_ask, run_change]
      exact .tail (.single (.letsGo halive hlinked)) (.publishesGone rfl)

theorem within_restore (snapshot : PlayerSnapshot) (volumeSupported : Bool) :
    (restore snapshot volumeSupported).Within (.restore snapshot volumeSupported) := by
  have hshuffle (count : Nat) : (do
      setShuffle snapshot.shuffled
      return count : Operation Nat).Within (.restore snapshot volumeSupported) :=
    (within_setShuffle _).bind fun _ => within_pure count
  have hstart (count : Nat) : (do
      if ! snapshot.paused then (startIfIdle true).ignoring
      setShuffle snapshot.shuffled
      return count : Operation Nat).Within (.restore snapshot volumeSupported) := by
    cases snapshot.paused with
    | true => exact hshuffle count
    | false => exact (within_advance true true).ignoring.bind fun _ => hshuffle count
  have hvolume (count : Nat) : (do
      if volumeSupported then
        let volume ← get (·.player.volume)
        (ask (.volume volume)).ignoring
      if ! snapshot.paused then (startIfIdle true).ignoring
      setShuffle snapshot.shuffled
      return count : Operation Nat).Within (.restore snapshot volumeSupported) := by
    cases volumeSupported with
    | false => exact hstart count
    | true =>
      intro session
      simp only [if_true, run_bind, run_get, run_ignoring, run_ask]
      exact .trans (.single .resumesVolume) (hstart count _)
  refine (within_use fun _ => .takesOver).bind fun count => ?_
  cases snapshot.channelRef with
  | none => exact hvolume count
  | some channel => exact (within_join channel).ignoring.bind fun _ => hvolume count

theorem within_step (step : PlayerStep) : step.operation.Within step := by
  cases step with
  | member request => exact within_operation request
  | loadAndPlay silent => exact (within_advance silent false).ignoring
  | trackEnded reason => exact (within_trackEnded reason).ignoring
  | restore snapshot volumeSupported => exact (within_restore snapshot volumeSupported).ignoring
  | destroy => exact within_destroy
  | list start stop => exact within_change fun _ => .lists
  | listRemaining => exact within_change fun _ => .listsRemaining
  | elapse position => exact within_change fun _ => .elapses
  | loseLink => exact within_change fun _ => .losesLink

/-- A step is a chain of acts. -/
theorem chain_after (session : Session) (step : PlayerStep) :
    Relation.ReflTransGen (Act step) session (session.after step) := within_step step session

/-- What every act of a step keeps, the step keeps. -/
theorem holds_of_chain {holds : Session → Prop}
    (hact : ∀ before later, Act step before later → holds before → holds later)
    {before later : Session} (hchain : Relation.ReflTransGen (Act step) before later)
    (hbefore : holds before) : holds later := by
  induction hchain with
  | refl => exact hbefore
  | tail _ hlast ih => exact hact _ _ hlast ih

/-- What every act of the allowed steps keeps, a run of such steps keeps. -/
theorem afterAll_of_act {holds : Session → Prop} {allowed : PlayerStep → Prop}
    (hact : ∀ step, allowed step → ∀ before later, Act step before later →
      holds before → holds later)
    {session : Session} (hstart : holds session) {steps : List PlayerStep}
    (hsteps : ∀ step ∈ steps, allowed step) : holds (session.afterAll steps) := by
  induction steps generalizing session with
  | nil => exact hstart
  | cons step rest ih =>
    have hstep := hsteps step List.mem_cons_self
    have hkept := holds_of_chain (hact step hstep) (chain_after session step) hstart
    exact ih hkept fun later hlater => hsteps later (List.mem_cons_of_mem step hlater)

/-- A player stays with its guild. -/
theorem guild_act {step : PlayerStep} {before later : Session} (hact : Act step before later) :
    later.guild = before.guild := by
  cases hact with
  | loads =>
    unfold accepted started
    dsimp only
    split <;> rfl
  | _ => rfl

theorem guild_chain {step : PlayerStep} {before later : Session}
    (hchain : Relation.ReflTransGen (Act step) before later) : later.guild = before.guild :=
  holds_of_chain (fun _ _ hact hbefore => (guild_act hact).trans hbefore) hchain rfl

end Session

end Jukebox
