import Jukebox.Proofs.Player.Calls
import Jukebox.Proofs.Player.Resuming
import Jukebox.Proofs.Player.Stopping
import Jukebox.Proofs.Queue.Quiet

/-!
What survives the operations of a player. They are put together from few parts: the player lets go
of something or changes a setting, it tells about itself, it asks the node for something, and it
loads a track, which the node accepts or refuses. A property of a session and the calls noted so far
that every part keeps is kept by every operation, except by those that queue tracks or count a
report of the node.
-/
namespace Jukebox

/-- A step queues a track, a batch or a snapshot, tells of a failed load, or does neither. -/
theorem PlayerStep.bringing_cases (step : PlayerStep) :
    (step.bringsTracks = false ∧ step ≠ .trackEnded .loadFailed) ∨
    step = .trackEnded .loadFailed ∨
    (∃ track level, step = .member (.enqueue track level)) ∨
    (∃ tracks level, step = .member (.enqueueAll tracks level)) ∨
    ∃ snapshot volumeSupported, step = .restore snapshot volumeSupported := by
  cases step with
  | member request => cases request <;> simp [bringsTracks]
  | trackEnded reason => cases reason <;> simp [bringsTracks]
  | _ => simp [bringsTracks]

def PlayerStep.queued? : PlayerStep → Option (List Track)
  | .member (.enqueue track _) => some [track]
  | .member (.enqueueAll tracks _) => some tracks
  | .restore _ _ => none
  | _ => some []

/-- The player has done no more to its queue than something quiet. -/
def Player.Eases (player later : Player) : Prop :=
  ∃ step : QueueStep, step.isQuiet = true ∧ later.queue = player.queue.after step

namespace Player

theorem Eases.of_same {player later : Player} (h : later.queue = player.queue) :
    player.Eases later := ⟨.range 0 0, rfl, h⟩

theorem eases_tracksInRange (player : Player) (start stop : Nat) :
    player.Eases (player.tracksInRange start stop).2 := by
  unfold tracksInRange
  split
  · exact ⟨.range 0 _, rfl, rfl⟩
  · exact .of_same rfl

theorem eases_remaining (player : Player) : player.Eases player.remaining.2 :=
  ⟨.range 0 _, rfl, rfl⟩

theorem eases_exhausted {player : Player} (hempty : player.queue.take.1 = none) :
    player.Eases player.exhausted :=
  ⟨.range 0 1, rfl, TrackQueue.take_of_none hempty⟩

theorem eases_finish (player : Player) : player.Eases player.finish := by
  unfold finish
  split <;> exact .of_same rfl

end Player

def Call.ofLoad (track : Track) (done : Bool) : Call where
  current := some track.fromStart
  asked := { command := track.playing, done }

namespace Session

open Operation

structure Steady (holds : Session × List Call → Prop) : Prop where
  eases {session : Session} {calls : List Call} {player : Player}
    (heases : session.player.Eases player) :
    holds (session, calls) → holds ({ session with player }, calls)
  tells {session : Session} {calls : List Call} (updates : List (GuildId × PlayerInfo)) :
    holds (session, calls) →
      holds ({ session with services := { session.services with updates } }, calls)
  drifts {session : Session} {calls : List Call} {node : AudioNode}
    (hlog : node.log = session.node.log) :
    holds (session, calls) → holds ({ session with node }, calls)
  asks {state : Session × List Call} {command : Command} (hplay : command.kind ≠ .play) :
    holds state → holds (performNoting command state).2
  accepts {session : Session} {calls : List Call} {track : Track} (announce : Bool)
    (hgiven : session.player.queue.take.1 = some track)
    (hdone : session.node.refusal? track.playing = none) :
    holds (session, calls) → holds (session.accepted track announce, calls ++ [.ofLoad track true])
  refuses {session : Session} {calls : List Call} {track : Track} {cause : String}
    (hgiven : session.player.queue.take.1 = some track)
    (hrefused : session.node.refusal? track.playing = some cause) :
    holds (session, calls) → holds (session.refused track, calls ++ [.ofLoad track false])

theorem noting_ensureAlive_bind {α : Type} (next : Unit → Operation α) (session : Session)
    (calls : List Call) :
    (ensureAlive >>= next).noting (session, calls) =
      if session.player.destroyed then (.error .destroyed, session, calls)
      else (next ()).noting (session, calls) := by
  unfold ensureAlive
  rw [noting_bind, noting_get_bind]
  cases session.player.destroyed <;> rfl

theorem noting_checkLimits {α : Type}
    (check : LimitsAnswer → TrackCounts → Metrics → Except String α × Metrics)
    (session : Session) (calls : List Call) :
    (checkLimits check).noting (session, calls) =
      ((session.setMetrics (check session.services.limits session.player.counts)).1.mapError
          .backend,
        (session.setMetrics (check session.services.limits session.player.counts)).2, calls) := by
  unfold checkLimits
  rw [noting_bind, noting_use]
  cases (session.setMetrics (check session.services.limits session.player.counts)).1 <;> rfl

/-- What loading the track that has just been chosen comes to. -/
theorem noting_load (track : Track) (announce : Bool) (session : Session) (calls : List Call) :
    (load track.fromStart track.playStart announce).noting
        (session.setPlayer (·.loading track), calls) =
      match session.node.refusal? track.playing with
      | none => (.ok (.ok ()), session.accepted track announce, calls ++ [.ofLoad track true])
      | some cause =>
        (.ok (.error (.backend cause)), session.refused track, calls ++ [.ofLoad track false]) := by
  have hcommand : Command.play track.fromStart.audio track.playStart
      track.fromStart.endPosition? = track.playing := rfl
  unfold load
  rw [hcommand, noting_bind, noting_attempt, noting_ask]
  cases hrefusal : session.node.refusal? track.playing with
  | none =>
    have hdone : ((session.setPlayer (·.loading track)).perform track.playing).1 = .ok () :=
      AudioNode.perform_eq_ok_iff.mpr hrefusal
    have hnoted : ((session.setPlayer (·.loading track)).node.refusal? track.playing).isNone =
        true := congrArg Option.isNone hrefusal
    simp only [performNoting, hdone, hnoted]
    rfl
  | some cause =>
    have hanswer : ((session.setPlayer (·.loading track)).perform track.playing).1 =
        .error cause := by
      change (session.node.perform _).1 = _
      rw [AudioNode.perform, hrefusal]
    have hnoted : ((session.setPlayer (·.loading track)).node.refusal? track.playing).isNone =
        false := congrArg Option.isNone hrefusal
    simp only [performNoting, hanswer, hnoted]
    rfl

def resumption (snapshot : PlayerSnapshot) (volumeSupported : Bool) (count : Nat) :
    Operation Nat := do
  match snapshot.channelRef with
  | some channel => (join channel).ignoring
  | none => pure ()
  if volumeSupported then
    let volume ← get (·.player.volume)
    (ask (.volume volume)).ignoring
  if ! snapshot.paused then (startIfIdle true).ignoring
  setShuffle snapshot.shuffled
  return count

theorem restore_eq (snapshot : PlayerSnapshot) (volumeSupported : Bool) :
    restore snapshot volumeSupported =
      use (takeOver snapshot volumeSupported) >>= resumption snapshot volumeSupported := rfl

theorem keeps_ensureAlive {holds : Session × List Call → Prop} : ensureAlive.Keeps holds := by
  refine (keeps_get _).bind fun destroyed => ?_
  cases destroyed with
  | true => exact keeps_fail _
  | false => exact keeps_pure ()

theorem accepted_sublist (tracks : List Track) (statuses : List LimitStatus) :
    (((tracks.zip statuses).filter (·.2.allowed)).map (·.1)).Sublist tracks := by
  induction tracks generalizing statuses with
  | nil => exact List.Sublist.refl _
  | cons track rest ih =>
    cases statuses with
    | nil => exact List.nil_sublist _
    | cons status statuses =>
      rw [List.zip_cons_cons]
      cases hallowed : status.allowed with
      | true => simpa [hallowed] using ih statuses
      | false => simpa [hallowed] using (ih statuses).cons track

namespace Steady

variable {holds : Session × List Call → Prop}

/-! ### The parts -/

theorem setPlayer (h : Steady holds) {f : Player → Player}
    (hf : ∀ player : Player, player.Eases (f player)) : (change (·.setPlayer f)).Keeps holds :=
  keeps_change fun session _ => h.eases (hf session.player)

theorem withPlayer (h : Steady holds) {α : Type} {f : Session → Player → α × Player}
    (hf : ∀ (session : Session) (player : Player), player.Eases (f session player).2) :
    (use fun session => session.withPlayer (f session)).Keeps holds :=
  keeps_use fun session _ => h.eases (hf session session.player)

theorem published (h : Steady holds) {session : Session} {calls : List Call}
    (hnow : holds (session, calls)) : holds (session.publish, calls) :=
  h.tells _ (h.eases (session.player.eases_tracksInRange 0 statusPreview) hnow)

theorem publish (h : Steady holds) : (change publish).Keeps holds :=
  keeps_change fun _ _ => h.published

theorem ask (h : Steady holds) {command : Command} (hplay : command.kind ≠ .play) :
    (ask command).Keeps holds := keeps_ask fun _ => h.asks hplay

theorem setQueue (h : Steady holds) (step : QueueStep) (hquiet : step.isQuiet = true) :
    (setQueue (·.after step)).Keeps holds :=
  keeps_change fun _ _ hnow => h.published (h.eases ⟨step, hquiet, rfl⟩ hnow)

/-! ### Loading -/

theorem conclude (h : Steady holds) (lastError : Option PlayerError) :
    (conclude lastError).Keeps holds := by
  refine h.publish.bind fun _ => ?_
  cases lastError with
  | some cause => exact keeps_fail cause
  | none => exact keeps_pure ()

theorem tryTracks (h : Steady holds) (silent onlyIfIdle : Bool) (attempts : Nat)
    (lastError : Option PlayerError) :
    (tryTracks silent onlyIfIdle attempts lastError).Keeps holds := by
  induction attempts generalizing lastError with
  | zero => exact h.conclude lastError
  | succ attempts ih =>
    rintro ⟨session, calls⟩ hnow
    unfold Session.tryTracks
    rw [noting_bind, noting_use]
    unfold Session.withPlayer
    -- the player is gone, it is busy, nothing is left, or there is a track, which is current now
    rcases next_eq session.player silent onlyIfIdle lastError.isSome
        session.services.announceTracks with
      ⟨-, hnext⟩ | ⟨-, hnext⟩ | ⟨-, hempty, hnext⟩ | ⟨-, track, announce, hgiven, hnext⟩
    · simp only [hnext]
      exact hnow
    · simp only [hnext]
      exact hnow
    · simp only [hnext]
      exact h.conclude lastError _ (h.eases (Player.eases_exhausted hempty) hnow)
    · have hload := noting_load track announce session calls
      unfold Session.setPlayer at hload
      simp only [hnext]
      rw [noting_bind, hload]
      cases hrefusal : session.node.refusal? track.playing with
      | none => exact h.accepts announce hgiven hrefusal hnow
      | some cause => exact ih (some (.backend cause)) _ (h.refuses hgiven hrefusal hnow)

theorem advance (h : Steady holds) (silent onlyIfIdle : Bool) :
    (advance silent onlyIfIdle).Keeps holds :=
  (keeps_get _).bind fun attempts => h.tryTracks silent onlyIfIdle attempts none

theorem startOrPublish (h : Steady holds) (idle : Bool) : (startOrPublish idle).Keeps holds := by
  cases idle with
  | true => exact h.advance false true
  | false => exact h.publish

/-! ### Playback -/

theorem skip (h : Steady holds) : skip.Keeps holds :=
  keeps_ensureAlive.bind fun _ => (h.setPlayer fun _ => ⟨.skipped, rfl, rfl⟩).bind fun _ =>
    h.ask (by simp [Command.kind])

theorem stop (h : Steady holds) : stop.Keeps holds :=
  keeps_ensureAlive.bind fun _ => (h.setPlayer fun _ => ⟨.clear, rfl, rfl⟩).bind fun _ =>
    (h.ask (by simp [Command.kind])).bind fun _ => h.publish

theorem setPaused (h : Steady holds) (paused : Bool) : (setPaused paused).Keeps holds :=
  keeps_ensureAlive.bind fun _ => (h.withPlayer fun _ _ => .of_same rfl).bind fun loadNext =>
    (h.ask (by simp [Command.kind])).bind fun _ => h.startOrPublish loadNext

theorem seek (h : Steady holds) (position : Millis) : (seek position).Keeps holds := by
  refine (keeps_get _).bind fun target => ?_
  cases target with
  | nothingPlaying | liveStream | notSeekable | outOfRange => exact keeps_fail _
  | position target => exact h.ask (by simp [Command.kind])

theorem setVolume (h : Steady holds) (volume : Single) : (setVolume volume).Keeps holds := by
  have hset : (do
      ensureAlive
      change (·.setPlayer ({ · with volume }))
      Operation.ask (.volume volume) : Operation Unit).Keeps holds := by
    refine keeps_ensureAlive.bind fun _ => Keeps.bind ?_ fun _ => h.ask (by simp [Command.kind])
    exact h.setPlayer fun _ => .of_same rfl
  unfold Session.setVolume
  split
  · exact (keeps_fail _).bind fun _ => hset
  · exact hset

theorem join (h : Steady holds) (channel : ChannelId) : (join channel).Keeps holds := by
  refine keeps_ensureAlive.bind fun _ => (keeps_get _).bind fun current => ?_
  split
  · exact keeps_pure ()
  · exact h.ask (by simp [Command.kind])

theorem skipTracks (h : Steady holds) (ids : List TrackId) : (skipTracks ids).Keeps holds := by
  refine Keeps.bind (h.withPlayer fun _ _ => ⟨.removeAll ids false, rfl, rfl⟩) fun outcome => ?_
  obtain ⟨removed, skipCurrent⟩ := outcome
  cases skipCurrent with
  | true => exact h.skip.bind fun _ => keeps_pure _
  | false => exact h.publish.bind fun _ => keeps_pure _

theorem skipTracksFor (h : Steady holds) (user : UserId) (level : PermissionLevel)
    (ids : List TrackId) : (skipTracksFor user level ids).Keeps holds := by
  refine (keeps_get _).bind fun allowed => ?_
  split
  · exact (keeps_fail _).bind fun _ => h.skipTracks ids
  · exact h.skipTracks ids

/-! ### The end, and restoring -/

theorem destroy (h : Steady holds) : destroy.Keeps holds := by
  have hgone : (change publishGone).Keeps holds := keeps_change fun _ _ => h.tells _
  refine (keeps_get _).bind fun destroyed => ?_
  split
  · exact keeps_pure ()
  · refine (h.setPlayer fun _ => ⟨.clear, rfl, rfl⟩).bind fun _ => (keeps_get _).bind fun link => ?_
    split
    · exact (keeps_pure ()).bind fun _ => hgone
    · refine (h.ask (by simp [Command.kind])).ignoring.bind fun _ => ?_
      exact (h.ask (by simp [Command.kind])).ignoring.bind fun _ => hgone

theorem resumption (h : Steady holds) (snapshot : PlayerSnapshot) (volumeSupported : Bool)
    (count : Nat) : (resumption snapshot volumeSupported count).Keeps holds := by
  have hshuffle : (do
      setShuffle snapshot.shuffled
      return count : Operation Nat).Keeps holds :=
    (h.setQueue (.setShuffle snapshot.shuffled) rfl).bind fun _ => keeps_pure count
  have hstart : (do
      if ! snapshot.paused then (startIfIdle true).ignoring
      setShuffle snapshot.shuffled
      return count : Operation Nat).Keeps holds := by
    cases snapshot.paused with
    | true => exact hshuffle
    | false => exact (h.advance true true).ignoring.bind fun _ => hshuffle
  have hvolume : (do
      if volumeSupported then
        let volume ← get (·.player.volume)
        (Operation.ask (.volume volume)).ignoring
      if ! snapshot.paused then (startIfIdle true).ignoring
      setShuffle snapshot.shuffled
      return count : Operation Nat).Keeps holds := by
    cases volumeSupported with
    | false => exact hstart
    | true =>
      refine (keeps_get _).bind fun _ => ?_
      exact (h.ask (by simp [Command.kind])).ignoring.bind fun _ => hstart
  unfold Session.resumption
  cases snapshot.channelRef with
  | none => exact hvolume
  | some channel => exact (h.join channel).ignoring.bind fun _ => hvolume

theorem restore (h : Steady holds) {session : Session} {calls : List Call}
    {snapshot : PlayerSnapshot} {volumeSupported : Bool}
    (htaken : holds ((takeOver snapshot volumeSupported session).2, calls)) :
    holds ((restore snapshot volumeSupported).noting (session, calls)).2 := by
  rw [restore_eq, noting_bind, noting_use]
  exact h.resumption snapshot volumeSupported _ _ htaken

/-! ### Queueing -/

/-- It is left to show that weighing a track and adding it keep the property. -/
theorem enqueue (h : Steady holds) {session : Session} {calls : List Call} {track : Track}
    {level : PermissionLevel}
    (hdestroyed : session.player.destroyed = true → holds (session, calls))
    (hweighed : session.player.destroyed = false → holds ((session.weigh track level).2, calls))
    (hadded : session.player.destroyed = false → holds
      ((session.weigh track level).2.setPlayer (·.setQueue (·.add track false)), calls)) :
    holds ((enqueue track level).noting (session, calls)).2 := by
  unfold Session.enqueue
  rw [noting_ensureAlive_bind]
  cases halive : session.player.destroyed with
  | true => exact hdestroyed halive
  | false =>
    rw [if_neg Bool.false_ne_true, noting_bind, noting_checkLimits]
    cases (session.setMetrics (Admission.check session.services.limits track level
        session.player.counts 0)).1 with
    | error cause => exact hweighed halive
    | ok status =>
      simp only [Except.mapError]
      split
      · exact hweighed halive
      · exact keeps_after (hadded halive) h.startOrPublish

theorem enqueueAll (h : Steady holds) {session : Session} {calls : List Call} {tracks : List Track}
    {level : PermissionLevel}
    (hdestroyed : session.player.destroyed = true → holds (session, calls))
    (hweighed : session.player.destroyed = false →
      holds ((session.weighAll tracks level).2, calls))
    (hadded : session.player.destroyed = false →
      ∀ accepted : List Track, accepted.Sublist tracks → holds
        ((session.weighAll tracks level).2.setPlayer (·.setQueue (·.addAll accepted false)),
          calls)) :
    holds ((enqueueAll tracks level).noting (session, calls)).2 := by
  unfold Session.enqueueAll
  rw [noting_ensureAlive_bind]
  cases halive : session.player.destroyed with
  | true => exact hdestroyed halive
  | false =>
    rw [if_neg Bool.false_ne_true, noting_bind, noting_checkLimits]
    cases (session.setMetrics (Admission.checkAll session.services.limits tracks level
        session.player.counts)).1 with
    | error cause => exact hweighed halive
    | ok statuses =>
      simp only [Except.mapError]
      exact keeps_after (hadded halive _ (accepted_sublist tracks statuses)) fun idle =>
        (h.startOrPublish idle).bind fun _ => keeps_pure statuses

/-! ### Steps -/

/-- It is left to show that telling about a failed load keeps the property. -/
theorem loadFailed (h : Steady holds) {session : Session} {calls : List Call}
    (hdestroyed : session.player.destroyed = true → holds (session, calls))
    (hgivenUp : session.player.destroyed = false → holds
      ((session.withPlayer Player.fail).2.loadFailed (session.withPlayer Player.fail).1, calls)) :
    holds ((trackEnded .loadFailed).noting (session, calls)).2 := by
  unfold Session.trackEnded
  rw [noting_get_bind]
  cases halive : session.player.destroyed with
  | true => exact hdestroyed halive
  | false => exact keeps_after (hgivenUp halive) fun _ => h.advance false false

theorem trackEnded (h : Steady holds) {reason : EndReason} (hreason : reason ≠ .loadFailed) :
    (trackEnded reason).Keeps holds := by
  refine (keeps_get _).bind fun destroyed => ?_
  split
  · exact keeps_pure ()
  · cases reason with
    | finished | stopped =>
      exact (h.setPlayer Player.eases_finish).bind fun _ => h.advance false false
    | loadFailed => exact absurd rfl hreason
    | cleanup | replaced => exact keeps_pure ()

/-- A step that brings no tracks, unless the node reports in it that a track could not be loaded. -/
theorem step (h : Steady holds) {step : PlayerStep} (hbrings : step.bringsTracks = false)
    (hreport : step ≠ .trackEnded .loadFailed) : step.operation.Keeps holds := by
  cases step with
  | member request =>
    cases request with
    | enqueue | enqueueAll => cases hbrings
    | skip => exact h.skip.ignoring
    | skipTracks ids => exact (h.skipTracks ids).ignoring
    | skipTracksFor user level ids => exact (h.skipTracksFor user level ids).ignoring
    | stop => exact h.stop.ignoring
    | setPaused paused => exact (h.setPaused paused).ignoring
    | seek position => exact (h.seek position).ignoring
    | setVolume volume => exact (h.setVolume volume).ignoring
    | setRepeat mode => exact (h.setQueue (.setRepeat mode) rfl).ignoring
    | setShuffle on => exact (h.setQueue (.setShuffle on) rfl).ignoring
    | setRoundRobin on => exact (h.setQueue (.setRoundRobin on) rfl).ignoring
    | reshuffle => exact (h.setQueue .reshuffle rfl).ignoring
    | join channel => exact (h.join channel).ignoring
  | loadAndPlay silent => exact (h.advance silent false).ignoring
  | trackEnded reason =>
    exact (h.trackEnded fun heq => hreport (congrArg PlayerStep.trackEnded heq)).ignoring
  | restore => cases hbrings
  | destroy => exact h.destroy
  | list start stop =>
    exact keeps_change fun session _ => h.eases (session.player.eases_tracksInRange start stop)
  | listRemaining => exact keeps_change fun session _ => h.eases session.player.eases_remaining
  | elapse | loseLink => exact keeps_change fun _ _ => h.drifts rfl

end Steady

/-! ### The log of the node -/

/-- Since its log was this, the node was asked what was noted, and nothing else. -/
def ToldSince (base : List Asked) (state : Session × List Call) : Prop :=
  state.1.node.log = base ++ state.2.map (·.asked)

theorem ToldSince.perform {base : List Asked} {session : Session} {calls : List Call}
    (h : ToldSince base (session, calls)) (command : Command) {call : Call}
    (hcall : call.asked = { command, done := (session.node.refusal? command).isNone }) :
    (session.node.perform command).2.log = base ++ (calls ++ [call]).map (·.asked) := by
  have hlog : session.node.log = base ++ calls.map (·.asked) := h
  rw [AudioNode.log_perform, hlog, List.map_append, List.append_assoc, ← hcall]
  rfl

/-- A law about the queue and the calls that outlasts whatever leaves the queue alone, eases it, or
loads a track from it. -/
structure Lasting (law : TrackQueue → List Call → Prop) : Prop where
  quiet {queue : TrackQueue} {calls : List Call} (step : QueueStep) (hquiet : step.isQuiet = true) :
    law queue calls → law (queue.after step) calls
  asked {queue : TrackQueue} {calls : List Call} (call : Call)
    (hplay : call.asked.command.kind ≠ .play) : law queue calls → law queue (calls ++ [call])
  loaded {queue : TrackQueue} {calls : List Call} {track : Track} (done : Bool)
    (hgiven : queue.take.1 = some track) :
    law queue calls → law queue.take.2 (calls ++ [.ofLoad track done])

def Under (law : TrackQueue → List Call → Prop) (state : Session × List Call) : Prop :=
  law state.1.player.queue state.2

namespace Lasting

variable {law : TrackQueue → List Call → Prop} {session : Session} {calls : List Call}

theorem steady (h : Lasting law) : Steady (Under law) where
  eases := by
    rintro session calls player ⟨step, hquiet, hqueue⟩ hnow
    unfold Under
    rw [hqueue]
    exact h.quiet step hquiet hnow
  tells := fun _ hnow => hnow
  drifts := fun _ hnow => hnow
  asks := by
    rintro ⟨session, calls⟩ command hplay hnow
    exact h.asked { current := _, asked := { command, done := _ } } hplay hnow
  accepts := by
    intro session calls track announce hgiven hdone hnow
    unfold Under
    rw [accepted_player]
    exact h.quiet (.range 0 1) rfl (h.loaded true hgiven hnow)
  refuses := fun hgiven _ hnow => h.quiet .skipped rfl (h.loaded false hgiven hnow)

theorem step (h : Lasting law) {step : PlayerStep} (hbrings : step.bringsTracks = false) :
    step.operation.Keeps (Under law) := by
  by_cases hreport : step = .trackEnded .loadFailed
  · rintro ⟨session, calls⟩ hnow
    subst hreport
    refine keeps_ignoring (h.steady.loadFailed (fun _ => hnow) fun _ => ?_)
    exact h.quiet .skipped rfl hnow
  · exact h.steady.step hbrings hreport

/-- Tracks that are queued must obey the law themselves. -/
theorem enqueue (h : Lasting law) (hnow : Under law (session, calls)) {track : Track}
    (hadded : law (session.player.queue.add track false) calls) (level : PermissionLevel) :
    Under law ((enqueue track level).noting (session, calls)).2 :=
  h.steady.enqueue (fun _ => hnow) (fun _ => hnow) fun _ => hadded

theorem enqueueAll (h : Lasting law) (hnow : Under law (session, calls)) {tracks : List Track}
    (hadded : ∀ accepted : List Track, accepted.Sublist tracks →
      law (session.player.queue.addAll accepted false) calls) (level : PermissionLevel) :
    Under law ((enqueueAll tracks level).noting (session, calls)).2 :=
  h.steady.enqueueAll (fun _ => hnow) (fun _ => hnow) fun _ => hadded

theorem restore (h : Lasting law) {snapshot : PlayerSnapshot} {volumeSupported : Bool}
    (htaken : law (takeOver snapshot volumeSupported session).2.player.queue calls) :
    Under law ((restore snapshot volumeSupported).noting (session, calls)).2 :=
  h.steady.restore htaken

/-- A law outlasts a step if it allows whatever the step adds to the queue. -/
theorem noting (h : Lasting law) (hnow : Under law (session, calls)) {step : PlayerStep}
    (hqueued : ∀ tracks accepted : List Track, step.queued? = some tracks →
      accepted.Sublist tracks → law (session.player.queue.addAll accepted false) calls)
    (htaken : ∀ snapshot volumeSupported, step = .restore snapshot volumeSupported →
      law (takeOver snapshot volumeSupported session).2.player.queue calls) :
    Under law (step.operation.noting (session, calls)).2 := by
  rcases step.bringing_cases with
    ⟨hbrings, -⟩ | rfl | ⟨track, level, rfl⟩ | ⟨tracks, level, rfl⟩ |
      ⟨snapshot, volumeSupported, rfl⟩
  · exact h.step hbrings _ hnow
  · exact h.step rfl _ hnow
  · refine keeps_ignoring (h.enqueue hnow ?_ level)
    rw [← TrackQueue.addAll_singleton]
    exact hqueued [track] [track] rfl (List.Sublist.refl _)
  · refine keeps_ignoring (h.enqueueAll hnow (fun accepted hpart => ?_) level)
    exact hqueued tracks accepted rfl hpart
  · exact keeps_ignoring (h.restore (htaken snapshot volumeSupported rfl))

end Lasting

end Session

end Jukebox
