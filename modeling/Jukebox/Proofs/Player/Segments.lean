import Jukebox.Player.Control

/-!
What an operation does to its player between two waits for the node. It never touches the history,
and it forgets what was loaded last or leaves it, unless it goes on to ask for a play: then the
track it asks for is at once the current one and the one loaded last. Only the end of a track is
different; its report is an operation that starts after the player has put the track away.
-/
namespace Jukebox

namespace Player

/-- The player goes on as before, except that it may forget what was loaded last. -/
structure Keeps (before after : Player) : Prop where
  history : after.history = before.history
  destroyed : after.destroyed = before.destroyed
  lastLoaded : ∀ track, after.lastLoaded = some track → before.lastLoaded = some track

structure Chooses (before : Player) (track : Track) (after : Player) : Prop where
  history : after.history = before.history
  destroyed : after.destroyed = before.destroyed
  current : after.current = some track
  lastLoaded : after.lastLoaded = some track

def Asks (before : Player) (command : Command) (after : Player) : Prop :=
  match command with
  | .play audio _ _ => ∃ track, before.Chooses track after ∧ track.audio = audio
  | _ => before.Keeps after

variable {before middle after : Player}

theorem Keeps.of_eq (hhistory : after.history = before.history)
    (hdestroyed : after.destroyed = before.destroyed)
    (hlast : after.lastLoaded = before.lastLoaded) : before.Keeps after where
  history := hhistory
  destroyed := hdestroyed
  lastLoaded := fun _ h => hlast ▸ h

theorem Keeps.refl (player : Player) : player.Keeps player := .of_eq rfl rfl rfl

theorem Keeps.trans (first : before.Keeps middle) (second : middle.Keeps after) :
    before.Keeps after where
  history := second.history.trans first.history
  destroyed := second.destroyed.trans first.destroyed
  lastLoaded := fun track h => first.lastLoaded track (second.lastLoaded track h)

theorem Chooses.after_keeps {track : Track} (first : before.Keeps middle)
    (second : middle.Chooses track after) : before.Chooses track after where
  history := second.history.trans first.history
  destroyed := second.destroyed.trans first.destroyed
  current := second.current
  lastLoaded := second.lastLoaded

theorem Asks.after_keeps {command : Command} (first : before.Keeps middle)
    (second : middle.Asks command after) : before.Asks command after := by
  cases command with
  | play audio start stop =>
    obtain ⟨track, hchooses, haudio⟩ := second
    exact ⟨track, hchooses.after_keeps first, haudio⟩
  | stop | pause | seek | volume | connect | destroy => exact first.trans second

theorem keeps_discard (player : Player) (id : TrackId) : player.Keeps (player.discard id) where
  history := rfl
  destroyed := rfl
  lastLoaded := fun _ h => (Option.filter_eq_some_iff.mp h).1

theorem keeps_tracksInRange (player : Player) (start stop : Nat) :
    player.Keeps (player.tracksInRange start stop).2 := by
  unfold tracksInRange
  split
  · exact .of_eq rfl rfl rfl
  · exact Keeps.refl player

/-- A choice of the next track either finds one or changes nothing that matters here. -/
theorem next_cases (player : Player) (silent onlyIfIdle retrying announces : Bool) :
    (∃ track start announce,
      (player.next silent onlyIfIdle retrying announces).1 = .load track start announce ∧
      player.Chooses track (player.next silent onlyIfIdle retrying announces).2) ∨
    ((∀ track start announce,
      (player.next silent onlyIfIdle retrying announces).1 ≠ .load track start announce) ∧
      player.Keeps (player.next silent onlyIfIdle retrying announces).2) := by
  unfold next
  split
  · exact Or.inr ⟨by simp, Keeps.refl player⟩
  · split
    · exact Or.inr ⟨by simp, Keeps.refl player⟩
    · split
      · exact Or.inr ⟨by simp, .of_eq rfl rfl rfl⟩
      · exact Or.inl ⟨_, _, _, rfl, ⟨rfl, rfl, rfl, rfl⟩⟩

end Player

/-- From a player on, a flow does between its waits only what it may do. -/
def Flow.Orderly {α : Type} : Player → Flow α → Prop
  | before, .ended session _ => before.Keeps session.player
  | before, .waiting session command resume =>
    before.Asks command session.player ∧
      ∀ answer session, (resume answer session).Orderly session.player

def Operation.Orderly {α : Type} (operation : Operation α) : Prop :=
  ∀ session, (operation session).Orderly session.player

namespace Flow

variable {α β : Type} {before middle : Player}

theorem Orderly.after_keeps {flow : Flow α} (h : flow.Orderly middle)
    (first : before.Keeps middle) : flow.Orderly before := by
  cases flow with
  | ended session outcome => exact Player.Keeps.trans first h
  | waiting session command resume => exact ⟨h.1.after_keeps first, h.2⟩

theorem Orderly.andThen {flow : Flow α} (h : flow.Orderly before) {next : α → Operation β}
    (hnext : ∀ value, (next value).Orderly) : (flow.andThen next).Orderly before := by
  induction flow generalizing before with
  | ended session outcome =>
    cases outcome with
    | ok value => exact (hnext value session).after_keeps h
    | error cause => exact h
  | waiting session command resume ih =>
    exact ⟨h.1, fun answer session => ih answer session (h.2 answer session)⟩

theorem Orderly.settle {flow : Flow α} (h : flow.Orderly before) :
    flow.settle.Orderly before := by
  induction flow generalizing before with
  | ended session outcome => exact h
  | waiting session command resume ih =>
    exact ⟨h.1, fun answer session => ih answer session (h.2 answer session)⟩

end Flow

namespace Operation

variable {α β : Type}

theorem orderly_pure (value : α) : (pure value : Operation α).Orderly :=
  fun session => Player.Keeps.refl session.player

theorem orderly_fail (cause : PlayerError) : (fail cause : Operation α).Orderly :=
  fun session => Player.Keeps.refl session.player

theorem orderly_ofExcept (outcome : Except PlayerError α) : (ofExcept outcome).Orderly := by
  cases outcome with
  | ok value => exact orderly_pure value
  | error cause => exact orderly_fail cause

theorem orderly_get (read : Session → α) : (get read).Orderly :=
  fun session => Player.Keeps.refl session.player

theorem orderly_change {f : Session → Session}
    (h : ∀ session : Session, session.player.Keeps (f session).player) : (change f).Orderly := h

theorem orderly_setPlayer {f : Player → Player} (h : ∀ player : Player, player.Keeps (f player)) :
    (change (·.setPlayer f)).Orderly := fun session => h session.player

theorem orderly_use {f : Session → α × Session}
    (h : ∀ session : Session, session.player.Keeps (f session).2.player) : (use f).Orderly := h

theorem orderly_ask_of {before : Player} {command : Command} {session : Session}
    (h : before.Asks command session.player) : (ask command session).Orderly before := by
  refine ⟨h, fun answer session => ?_⟩
  cases answer with
  | ok => exact Player.Keeps.refl session.player
  | error cause => exact Player.Keeps.refl session.player

theorem orderly_ask {command : Command} (h : command.kind ≠ .play) : (ask command).Orderly := by
  intro session
  apply orderly_ask_of
  cases command with
  | play => exact absurd rfl h
  | stop | pause | seek | volume | connect | destroy => exact Player.Keeps.refl session.player

theorem Orderly.bind {operation : Operation α} (h : operation.Orderly) {next : α → Operation β}
    (hnext : ∀ value, (next value).Orderly) : (operation >>= next).Orderly :=
  fun session => (h session).andThen hnext

theorem Orderly.attempt {operation : Operation α} (h : operation.Orderly) :
    operation.attempt.Orderly := fun session => (h session).settle

theorem Orderly.ignoring {operation : Operation α} (h : operation.Orderly) :
    operation.ignoring.Orderly := h.attempt.bind fun _ => orderly_pure ()

end Operation

namespace Session

open Operation

theorem keeps_publish (session : Session) : session.player.Keeps session.publish.player :=
  session.player.keeps_tracksInRange 0 statusPreview

theorem orderly_publish : (change publish).Orderly := orderly_change keeps_publish

theorem orderly_ensureAlive : ensureAlive.Orderly := by
  refine (orderly_get _).bind fun destroyed => ?_
  split
  · exact orderly_fail _
  · exact orderly_pure ()

/-! ### Loading tracks -/

theorem orderly_conclude (lastError : Option PlayerError) : (conclude lastError).Orderly := by
  refine orderly_publish.bind fun _ => ?_
  cases lastError with
  | some cause => exact orderly_fail cause
  | none => exact orderly_pure ()

theorem use_withPlayer_bind {α β : Type} (f : Session → Player → α × Player)
    (next : α → Operation β) (session : Session) :
    (use (fun session => session.withPlayer (f session)) >>= next) session =
      next (f session session.player).1
        { session with player := (f session session.player).2 } := rfl

/-- Loading a track is in order once the track is chosen. -/
theorem orderly_load {before : Player} {track : Track} {session : Session}
    (h : before.Chooses track session.player) (start : Millis) (announce : Bool) :
    (load track start announce session).Orderly before := by
  have hask : (ask (.play track.audio start track.endPosition?) session).Orderly before :=
    orderly_ask_of ⟨track, h, rfl⟩
  refine hask.settle.andThen fun outcome => ?_
  cases outcome with
  | ok =>
    refine Orderly.bind (orderly_change fun session => ?_) fun _ => orderly_pure _
    have hkeeps := keeps_publish (session.started track announce)
    rwa [started_player] at hkeeps
  | error cause =>
    refine Orderly.bind (orderly_change fun session => ?_) fun _ => orderly_pure _
    exact session.player.keeps_discard track.id

theorem orderly_tryTracks (silent onlyIfIdle : Bool) (attempts : Nat)
    (lastError : Option PlayerError) :
    (tryTracks silent onlyIfIdle attempts lastError).Orderly := by
  induction attempts generalizing lastError with
  | zero => exact orderly_conclude lastError
  | succ attempts ih =>
    intro session
    unfold tryTracks
    rw [use_withPlayer_bind]
    rcases session.player.next_cases silent onlyIfIdle lastError.isSome
        session.services.announceTracks with
      ⟨track, start, announce, hload, hchooses⟩ | ⟨hnot, hkeeps⟩
    · rw [hload]
      refine (orderly_load hchooses start announce).andThen fun outcome => ?_
      cases outcome with
      | ok => exact orderly_pure ()
      | error cause => exact ih (some cause)
    · cases hchoice : (session.player.next silent onlyIfIdle lastError.isSome
        session.services.announceTracks).1 with
      | load track start announce => exact absurd hchoice (hnot track start announce)
      | destroyed => exact (orderly_fail _ _).after_keeps hkeeps
      | busy => exact (orderly_pure () _).after_keeps hkeeps
      | empty => exact (orderly_conclude lastError _).after_keeps hkeeps

theorem orderly_advance (silent onlyIfIdle : Bool) : (advance silent onlyIfIdle).Orderly :=
  (orderly_get _).bind fun attempts => orderly_tryTracks silent onlyIfIdle attempts none

theorem orderly_startOrPublish (idle : Bool) : (startOrPublish idle).Orderly := by
  cases idle with
  | true => exact orderly_advance false true
  | false => exact orderly_publish

/-! ### Queueing and playback -/

theorem orderly_checkLimits {α : Type}
    (check : LimitsAnswer → TrackCounts → Metrics → Except String α × Metrics) :
    (checkLimits check).Orderly := by
  refine (orderly_use fun session => Player.Keeps.refl session.player).bind fun outcome => ?_
  exact orderly_ofExcept _

theorem orderly_enqueue (track : Track) (level : PermissionLevel) :
    (enqueue track level).Orderly := by
  refine orderly_ensureAlive.bind fun _ => (orderly_checkLimits _).bind fun status => ?_
  have hqueue : (do
      let idle ← use fun session => session.withPlayer fun player =>
        (player.isIdle, player.setQueue (·.add track false))
      startOrPublish idle : Operation Unit).Orderly :=
    Orderly.bind (orderly_use fun _ => .of_eq rfl rfl rfl) orderly_startOrPublish
  split
  · exact (orderly_fail _).bind fun _ => hqueue
  · exact hqueue

theorem orderly_enqueueAll (tracks : List Track) (level : PermissionLevel) :
    (enqueueAll tracks level).Orderly := by
  refine orderly_ensureAlive.bind fun _ => (orderly_checkLimits _).bind fun statuses => ?_
  refine Orderly.bind (orderly_use fun _ => .of_eq rfl rfl rfl) fun idle => ?_
  exact (orderly_startOrPublish idle).bind fun _ => orderly_pure statuses

theorem orderly_skip : skip.Orderly := by
  refine orderly_ensureAlive.bind fun _ => ?_
  refine Orderly.bind (orderly_setPlayer fun player => ?_) fun _ => ?_
  · exact .of_eq rfl rfl rfl
  · exact orderly_ask (by simp [Command.kind])

theorem orderly_stop : stop.Orderly := by
  refine orderly_ensureAlive.bind fun _ => ?_
  refine Orderly.bind (orderly_setPlayer fun player => ?_) fun _ => ?_
  · exact .of_eq rfl rfl rfl
  · exact (orderly_ask (by simp [Command.kind])).bind fun _ => orderly_publish

theorem orderly_setPaused (paused : Bool) : (setPaused paused).Orderly := by
  refine orderly_ensureAlive.bind fun _ => ?_
  refine Orderly.bind (orderly_use fun _ => .of_eq rfl rfl rfl) fun idle => ?_
  exact (orderly_ask (by simp [Command.kind])).bind fun _ => orderly_startOrPublish idle

theorem orderly_seek (position : Millis) : (seek position).Orderly := by
  refine (orderly_get _).bind fun target => ?_
  cases target with
  | nothingPlaying | liveStream | notSeekable | outOfRange => exact orderly_fail _
  | position target => exact orderly_ask (by simp [Command.kind])

theorem orderly_setVolume (volume : Single) : (setVolume volume).Orderly := by
  have hset : (do
      ensureAlive
      change (·.setPlayer ({ · with volume }))
      ask (.volume volume) : Operation Unit).Orderly := by
    refine orderly_ensureAlive.bind fun _ => ?_
    refine Orderly.bind (orderly_setPlayer fun player => ?_) fun _ => ?_
    · exact .of_eq rfl rfl rfl
    · exact orderly_ask (by simp [Command.kind])
  unfold setVolume
  split
  · exact (orderly_fail _).bind fun _ => hset
  · exact hset

theorem orderly_setQueue (f : TrackQueue → TrackQueue) : (setQueue f).Orderly := by
  refine orderly_change fun session => ?_
  have hset : session.player.Keeps (session.setPlayer (·.setQueue f)).player := .of_eq rfl rfl rfl
  exact hset.trans (keeps_publish (session.setPlayer (·.setQueue f)))

theorem orderly_join (channel : ChannelId) : (join channel).Orderly := by
  refine orderly_ensureAlive.bind fun _ => (orderly_get _).bind fun current => ?_
  split
  · exact orderly_pure ()
  · exact orderly_ask (by simp [Command.kind])

/-! ### Skipping chosen tracks -/

theorem orderly_skipTracks (ids : List TrackId) : (skipTracks ids).Orderly := by
  refine Orderly.bind (orderly_use fun _ => .of_eq rfl rfl rfl) fun outcome => ?_
  obtain ⟨removed, skipCurrent⟩ := outcome
  cases skipCurrent with
  | true => exact orderly_skip.bind fun _ => orderly_pure _
  | false => exact orderly_publish.bind fun _ => orderly_pure _

theorem orderly_skipTracksFor (user : UserId) (level : PermissionLevel) (ids : List TrackId) :
    (skipTracksFor user level ids).Orderly := by
  refine (orderly_get _).bind fun allowed => ?_
  split
  · exact (orderly_fail _).bind fun _ => orderly_skipTracks ids
  · exact orderly_skipTracks ids

/-! ### The end of a track -/

theorem trackEnded_eq {session : Session} (halive : session.player.destroyed = false)
    {reason : EndReason} (hreason : reason = .finished ∨ reason = .stopped) :
    trackEnded reason session = loadAndPlay false (session.setPlayer Player.finish) := by
  have hended : trackEnded reason session = (if session.player.destroyed = true then pure ()
      else change (·.setPlayer Player.finish) >>= fun _ => loadAndPlay false :
        Operation Unit) session := by
    rcases hreason with rfl | rfl
    · rfl
    · rfl
  rw [hended, halive]
  rfl

/-- After the report of an end the player has put the track away and goes on in order. -/
theorem orderly_trackEnded {session : Session} (halive : session.player.destroyed = false)
    {reason : EndReason} (hreason : reason = .finished ∨ reason = .stopped) :
    (trackEnded reason session).Orderly session.player.finish := by
  rw [trackEnded_eq halive hreason]
  exact orderly_advance false false (session.setPlayer Player.finish)

end Session

end Jukebox
