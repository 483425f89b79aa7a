import Jukebox.Proofs.Player.Acts

/-!
The conduct of a player. An operation works on its player between the waits only, and at each of
them it has sent one command. A property of players that no part of an operation breaks, with a kind
of commands that takes in all that such a player sends, is kept by every operation, whatever the
node answers and whatever happens to the player meanwhile, as long as the property still holds when
the operation goes on. What a snapshot brings can be limited to volumes of a kind.
-/
namespace Jukebox

/-- A property of players that no part of an operation breaks, but for the volume that a snapshot
brings. -/
structure Player.Firm (holds : Player → Prop) : Prop where
  queue {player : Player} (queue : TrackQueue) : holds player → holds { player with queue }
  past {player : Player} (lastLoaded : Option Track) (history : List Track) :
    holds player → holds { player with lastLoaded, history }
  idle {player : Player} : holds player → holds { player with current := none }
  /-- A track is made the current one only while the player is alive. -/
  chosen {player : Player} (track : Track) (halive : player.destroyed = false) :
    holds player → holds { player with current := some track }
  paused {player : Player} (paused : Bool) : holds player → holds { player with paused }
  volume {player : Player} {volume : Single} (hvalid : Player.validVolume volume = true) :
    holds player → holds { player with volume }
  /-- Nothing is current any more when the player comes to its end. -/
  closed {player : Player} (hidle : player.current = none) :
    holds player → holds { player with destroyed := true }

/-- It is not broken by volumes of a kind either, and all that such a player sends are commands of
a kind. -/
structure Player.Conduct (holds : Player → Prop) (sends : Command → Prop)
    (brings : Single → Prop) : Prop extends Firm holds where
  clamped {player : Player} {volume : Single} (hbrings : brings volume) :
    holds player → holds { player with volume := volume.clamp .zero maxVolume }
  asks {command : Command} (hkind : command.kind ≠ .volume) : sends command
  sets {volume : Single} (hvalid : Player.validVolume volume = true) : sends (.volume volume)
  /-- After a snapshot the node is told the volume that the player has. -/
  tells {player : Player} : holds player → sends (.volume player.volume)

variable {holds : Player → Prop} {sends : Command → Prop} {brings : Single → Prop}

namespace Player.Firm

variable {player : Player}

theorem next (h : Firm holds) (silent onlyIfIdle retrying announces : Bool)
    (hplayer : holds player) : holds (player.next silent onlyIfIdle retrying announces).2 := by
  rcases Session.next_eq player silent onlyIfIdle retrying announces with
    ⟨-, heq⟩ | ⟨-, heq⟩ | ⟨-, -, heq⟩ | ⟨halive, track, announce, -, heq⟩
  · rwa [heq]
  · rwa [heq]
  · rw [heq]
    exact h.idle (h.queue _ hplayer)
  · rw [heq]
    have hchosen := h.chosen track.fromStart halive hplayer
    exact h.queue player.queue.take.2 (h.past (some track.fromStart) player.history hchosen)

theorem discard (h : Firm holds) (id : TrackId) (hplayer : holds player) :
    holds (player.discard id) := by
  have hpast := h.queue player.queue.skipped (h.past (player.lastLoaded.filter (·.id ≠ id))
    player.history hplayer)
  cases hcurrent : player.current.filter (·.id ≠ id) with
  | none =>
    unfold Player.discard
    rw [hcurrent]
    exact h.idle hpast
  | some track =>
    have hkept : player.current = some track := (Option.filter_eq_some_iff.mp hcurrent).1
    unfold Player.discard
    rw [hcurrent, ← hkept]
    exact hpast

theorem finish (h : Firm holds) (hplayer : holds player) : holds player.finish := by
  unfold Player.finish
  split
  · exact h.idle hplayer
  · dsimp only
    exact h.idle (h.past none _ hplayer)

theorem fail (h : Firm holds) (hplayer : holds player) : holds player.fail.2 :=
  h.idle (h.queue _ (h.past _ player.history hplayer))

theorem release (h : Firm holds) (hplayer : holds player) : holds player.release :=
  h.idle (h.queue _ hplayer)

theorem emptied (h : Firm holds) (hplayer : holds player) : holds player.emptied :=
  h.idle (h.queue _ hplayer)

theorem close (h : Firm holds) (hplayer : holds player) : holds player.close :=
  h.past none player.history (h.closed rfl (h.emptied hplayer))

theorem tracksInRange (h : Firm holds) (start stop : Nat) (hplayer : holds player) :
    holds (player.tracksInRange start stop).2 := by
  unfold Player.tracksInRange
  split
  · exact h.queue _ hplayer
  · exact hplayer

end Player.Firm

theorem Player.Conduct.takeOver (h : Conduct holds sends brings) {player : Player}
    {snapshot : PlayerSnapshot} {volumeSupported : Bool}
    (hbrings : volumeSupported = true → brings snapshot.volume) (tracks : List Track)
    (hplayer : holds player) :
    holds (player.takeOver snapshot tracks volumeSupported) := by
  have hpaused := h.queue (((player.queue.setRepeat snapshot.repeatMode).setShuffle false).addAll
    tracks true) (h.paused snapshot.paused hplayer)
  cases volumeSupported with
  | false => exact hpaused
  | true => exact h.clamped (hbrings rfl) hpaused

/-! ### Between the waits -/

def Flow.command? {α : Type} : Flow α → Option Command
  | .ended _ _ => none
  | .waiting _ command _ => some command

/-- If whatever happens while a flow waits keeps a property of the player, so does the flow, and it
sends nothing but commands of a kind. -/
def Flow.Abides {α : Type} (holds : Player → Prop) (sends : Command → Prop) : Flow α → Prop
  | .ended session _ => holds session.player
  | .waiting session command resume =>
    holds session.player ∧ sends command ∧
      ∀ answer later, holds later.player → (resume answer later).Abides holds sends

def Operation.Abides {α : Type} (holds : Player → Prop) (sends : Command → Prop)
    (operation : Operation α) : Prop :=
  ∀ session, holds session.player → (operation session).Abides holds sends

namespace Flow.Abides

variable {α β : Type} {flow : Flow α}

theorem andThen (h : flow.Abides holds sends) {next : α → Operation β}
    (hnext : ∀ value, (next value).Abides holds sends) :
    (flow.andThen next).Abides holds sends := by
  induction flow with
  | ended session outcome =>
    cases outcome with
    | ok value => exact hnext value session h
    | error cause => exact h
  | waiting session command resume ih =>
    obtain ⟨hnow, hsends, hresume⟩ := h
    exact ⟨hnow, hsends, fun answer later hlater => ih answer later (hresume answer later hlater)⟩

theorem sends_command? (h : flow.Abides holds sends) :
    ∀ command ∈ flow.command?, sends command := by
  cases flow with
  | ended session outcome => exact nofun
  | waiting session command resume =>
    intro sent hsent
    rw [← Option.some.inj hsent]
    exact h.2.1

theorem settle (h : flow.Abides holds sends) : flow.settle.Abides holds sends := by
  induction flow with
  | ended session outcome => exact h
  | waiting session command resume ih =>
    obtain ⟨hnow, hsends, hresume⟩ := h
    exact ⟨hnow, hsends, fun answer later hlater => ih answer later (hresume answer later hlater)⟩

end Flow.Abides

namespace Operation

variable {α β : Type}

theorem abides_pure (value : α) : (pure value : Operation α).Abides holds sends := fun _ h => h

theorem abides_fail (cause : PlayerError) : (fail cause : Operation α).Abides holds sends :=
  fun _ h => h

theorem abides_get (read : Session → α) : (get read).Abides holds sends := fun _ h => h

theorem abides_change {f : Session → Session}
    (hf : ∀ session, holds session.player → holds (f session).player) :
    (change f).Abides holds sends := hf

theorem abides_use {f : Session → α × Session}
    (hf : ∀ session, holds session.player → holds (f session).2.player) :
    (use f).Abides holds sends := hf

theorem abides_ask {command : Command} (hsends : sends command) :
    (ask command).Abides holds sends := by
  refine fun session h => ⟨h, hsends, fun answer later hlater => ?_⟩
  cases answer with
  | ok => exact hlater
  | error cause => exact hlater

theorem Abides.bind {operation : Operation α} (h : operation.Abides holds sends)
    {next : α → Operation β} (hnext : ∀ value, (next value).Abides holds sends) :
    (operation >>= next).Abides holds sends :=
  fun session hsession => (h session hsession).andThen hnext

theorem Abides.attempt {operation : Operation α} (h : operation.Abides holds sends) :
    operation.attempt.Abides holds sends := fun session hsession => (h session hsession).settle

theorem Abides.ignoring {operation : Operation α} (h : operation.Abides holds sends) :
    operation.ignoring.Abides holds sends := h.attempt.bind fun _ => abides_pure ()

theorem abides_ensureAlive : Session.ensureAlive.Abides holds sends := by
  apply (abides_get _).bind
  intro destroyed
  split
  · exact abides_fail _
  · exact abides_pure ()

theorem abides_checkLimits
    (check : LimitsAnswer → TrackCounts → Metrics → Except String α × Metrics) :
    (Session.checkLimits check).Abides holds sends := by
  refine Abides.bind (abides_use fun _ hsession => hsession) fun outcome => ?_
  cases outcome with
  | ok value => exact abides_pure value
  | error cause => exact abides_fail _

end Operation

/-! ### Operation by operation -/

namespace Player.Conduct

open Operation

variable (h : Conduct holds sends brings)

include h

theorem publish : (change Session.publish).Abides holds sends :=
  abides_change fun _ hsession => h.tracksInRange 0 statusPreview hsession

theorem load (track : Track) (start : Millis) (announce : Bool) :
    (Session.load track start announce).Abides holds sends := by
  have hplay : (ask (.play track.audio start track.endPosition?)).Abides holds sends :=
    abides_ask (h.asks nofun)
  apply hplay.attempt.bind
  intro outcome
  cases outcome with
  | ok =>
    refine Abides.bind (abides_change fun session hsession => ?_) fun _ => abides_pure _
    have hstarted : holds (session.started track announce).player := by
      rwa [Session.started_player]
    exact h.tracksInRange 0 statusPreview hstarted
  | error cause =>
    exact Abides.bind (abides_change fun _ => h.discard track.id) fun _ => abides_pure _

theorem conclude (lastError : Option PlayerError) :
    (Session.conclude lastError).Abides holds sends := by
  apply h.publish.bind
  intro _
  cases lastError with
  | some cause => exact abides_fail cause
  | none => exact abides_pure ()

theorem tryTracks (silent onlyIfIdle : Bool) (attempts : Nat) (lastError : Option PlayerError) :
    (Session.tryTracks silent onlyIfIdle attempts lastError).Abides holds sends := by
  induction attempts generalizing lastError with
  | zero => exact h.conclude lastError
  | succ attempts ih =>
    refine Abides.bind (abides_use fun session => h.next _ _ _ _) fun choice => ?_
    cases choice with
    | destroyed => exact abides_fail _
    | busy => exact abides_pure ()
    | empty => exact h.conclude lastError
    | load track start announce =>
      apply (h.load track start announce).bind
      intro outcome
      cases outcome with
      | ok => exact abides_pure ()
      | error cause => exact ih (some cause)

theorem advance (silent onlyIfIdle : Bool) :
    (Session.advance silent onlyIfIdle).Abides holds sends :=
  (abides_get _).bind fun attempts => h.tryTracks silent onlyIfIdle attempts none

theorem startOrPublish (idle : Bool) : (Session.startOrPublish idle).Abides holds sends := by
  cases idle with
  | true => exact h.advance false true
  | false => exact h.publish

theorem enqueue (track : Track) (level : PermissionLevel) :
    (Session.enqueue track level).Abides holds sends := by
  have hqueue : (do
      let idle ← use fun session => session.withPlayer fun player =>
        (player.isIdle, player.setQueue (·.add track false))
      Session.startOrPublish idle : Operation Unit).Abides holds sends :=
    Abides.bind (abides_use fun _ => h.queue _) h.startOrPublish
  refine abides_ensureAlive.bind fun _ => (abides_checkLimits _).bind fun status => ?_
  split
  · exact (abides_fail _).bind fun _ => hqueue
  · exact hqueue

theorem enqueueAll (tracks : List Track) (level : PermissionLevel) :
    (Session.enqueueAll tracks level).Abides holds sends := by
  refine abides_ensureAlive.bind fun _ => (abides_checkLimits _).bind fun statuses => ?_
  refine Abides.bind (abides_use fun _ => h.queue _) fun idle => ?_
  exact (h.startOrPublish idle).bind fun _ => abides_pure statuses

theorem trackEnded (reason : EndReason) : (Session.trackEnded reason).Abides holds sends := by
  apply (abides_get _).bind
  intro destroyed
  split
  · exact abides_pure ()
  · cases reason with
    | finished | stopped =>
      exact Abides.bind (abides_change fun _ => h.finish) fun _ => h.advance false false
    | loadFailed =>
      exact Abides.bind (abides_change fun _ => h.fail) fun _ => h.advance false false
    | cleanup | replaced => exact abides_pure ()

theorem skip : Session.skip.Abides holds sends := by
  refine abides_ensureAlive.bind fun _ => Abides.bind (abides_change fun _ => h.release) fun _ => ?_
  exact abides_ask (h.asks nofun)

theorem stop : Session.stop.Abides holds sends := by
  have hstop : (ask .stop).Abides holds sends := abides_ask (h.asks nofun)
  refine abides_ensureAlive.bind fun _ => Abides.bind (abides_change fun _ => h.emptied) fun _ => ?_
  exact hstop.bind fun _ => h.publish

theorem setPaused (paused : Bool) : (Session.setPaused paused).Abides holds sends := by
  have hpause : (ask (.pause paused)).Abides holds sends := abides_ask (h.asks nofun)
  refine abides_ensureAlive.bind fun _ => Abides.bind (abides_use fun _ => h.paused paused) ?_
  exact fun idle => hpause.bind fun _ => h.startOrPublish idle

theorem seek (position : Millis) : (Session.seek position).Abides holds sends := by
  apply (abides_get _).bind
  intro target
  cases target with
  | nothingPlaying | liveStream | notSeekable | outOfRange => exact abides_fail _
  | position target => exact abides_ask (h.asks nofun)

/-- Nothing is changed and nothing is sent before the volume is known to be valid. -/
theorem setVolume (volume : Single) : (Session.setVolume volume).Abides holds sends := by
  unfold Session.setVolume
  cases hvalid : Player.validVolume volume with
  | true =>
    have hset (player : Player) (hplayer : holds player) : holds { player with volume } :=
      h.volume hvalid hplayer
    refine abides_ensureAlive.bind fun _ => ?_
    refine Abides.bind (abides_change fun session => hset session.player) fun _ => ?_
    exact abides_ask (h.sets hvalid)
  | false => exact fun _ hsession => hsession

theorem setQueue (f : TrackQueue → TrackQueue) : (Session.setQueue f).Abides holds sends :=
  abides_change fun _ hsession => h.tracksInRange 0 statusPreview (h.queue _ hsession)

theorem join (channel : ChannelId) : (Session.join channel).Abides holds sends := by
  refine abides_ensureAlive.bind fun _ => (abides_get _).bind fun current => ?_
  split
  · exact abides_pure ()
  · exact abides_ask (h.asks nofun)

theorem skipTracks (ids : List TrackId) : (Session.skipTracks ids).Abides holds sends := by
  refine Abides.bind (abides_use fun _ => h.queue _) fun outcome => ?_
  obtain ⟨removed, skipCurrent⟩ := outcome
  cases skipCurrent with
  | true => exact h.skip.bind fun _ => abides_pure _
  | false => exact h.publish.bind fun _ => abides_pure _

theorem skipTracksFor (user : UserId) (level : PermissionLevel) (ids : List TrackId) :
    (Session.skipTracksFor user level ids).Abides holds sends := by
  apply (abides_get _).bind
  intro allowed
  split
  · exact (abides_fail _).bind fun _ => h.skipTracks ids
  · exact h.skipTracks ids

theorem destroy : Session.destroy.Abides holds sends := by
  have hgone : (change Session.publishGone).Abides holds sends :=
    abides_change fun _ hsession => hsession
  have hstop : (ask .stop).Abides holds sends := abides_ask (h.asks nofun)
  have hrelease : (ask .destroy).Abides holds sends := abides_ask (h.asks nofun)
  apply (abides_get _).bind
  intro destroyed
  split
  · exact abides_pure ()
  · refine Abides.bind (abides_change fun _ => h.close) fun _ => (abides_get _).bind fun link => ?_
    split
    · exact (abides_pure ()).bind fun _ => hgone
    · exact hstop.ignoring.bind fun _ => hrelease.ignoring.bind fun _ => hgone

theorem restore {snapshot : PlayerSnapshot} {volumeSupported : Bool}
    (hbrings : volumeSupported = true → brings snapshot.volume) :
    (Session.restore snapshot volumeSupported).Abides holds sends := by
  have hshuffle (count : Nat) : (do
      Session.setShuffle snapshot.shuffled
      return count : Operation Nat).Abides holds sends :=
    (h.setQueue _).bind fun _ => abides_pure count
  have hstart (count : Nat) : (do
      if ! snapshot.paused then (Session.startIfIdle true).ignoring
      Session.setShuffle snapshot.shuffled
      return count : Operation Nat).Abides holds sends := by
    cases snapshot.paused with
    | true => exact hshuffle count
    | false => exact (h.advance true true).ignoring.bind fun _ => hshuffle count
  have hvolume (count : Nat) : (do
      if volumeSupported then
        let volume ← get (·.player.volume)
        (ask (.volume volume)).ignoring
      if ! snapshot.paused then (Session.startIfIdle true).ignoring
      Session.setShuffle snapshot.shuffled
      return count : Operation Nat).Abides holds sends := by
    cases volumeSupported with
    | false => exact hstart count
    | true =>
      -- The volume is read and sent before anything else can happen to the player.
      intro session hsession
      have htell : (ask (.volume session.player.volume)).Abides holds sends :=
        abides_ask (h.tells hsession)
      exact (htell.ignoring session hsession).andThen fun _ => hstart count
  unfold Session.restore
  refine Abides.bind (abides_use fun _ => h.takeOver hbrings _) fun count => ?_
  cases snapshot.channelRef with
  | none => exact hvolume count
  | some channel => exact (h.join channel).ignoring.bind fun _ => hvolume count

theorem member (request : Request) : request.operation.Abides holds sends := by
  cases request with
  | enqueue track level => exact (h.enqueue track level).ignoring
  | enqueueAll tracks level => exact (h.enqueueAll tracks level).ignoring
  | skip => exact h.skip.ignoring
  | skipTracks ids => exact (h.skipTracks ids).ignoring
  | skipTracksFor user level ids => exact (h.skipTracksFor user level ids).ignoring
  | stop => exact h.stop.ignoring
  | setPaused paused => exact (h.setPaused paused).ignoring
  | seek position => exact (h.seek position).ignoring
  | setVolume volume => exact (h.setVolume volume).ignoring
  | setRepeat | setShuffle | setRoundRobin | reshuffle => exact (h.setQueue _).ignoring
  | join channel => exact (h.join channel).ignoring

theorem step {step : PlayerStep}
    (hbrings : ∀ snapshot, step = .restore snapshot true → brings snapshot.volume) :
    step.operation.Abides holds sends := by
  cases step with
  | member request => exact h.member request
  | loadAndPlay silent => exact (h.advance silent false).ignoring
  | trackEnded reason => exact (h.trackEnded reason).ignoring
  | restore snapshot volumeSupported =>
    exact (h.restore fun hsupported => hbrings snapshot (by rw [hsupported])).ignoring
  | destroy => exact h.destroy
  | list start stop => exact abides_change fun _ => h.tracksInRange start stop
  | listRemaining => exact abides_change fun _ => h.queue _
  | elapse | loseLink => exact abides_change fun _ hsession => hsession

end Player.Conduct

end Jukebox
