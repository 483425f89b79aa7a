import Jukebox.Proofs.Player.Status

/-!
The feed of statuses. An operation that ends well and has changed the status of its player has
published it after the last change, whatever it does on the way and however often it publishes
before that. Only a skip that cuts the current track leaves the news to the report of the track's
end, and the end of a player is told by the status of no player.
-/
namespace Jukebox

namespace Operation

variable {α : Type}

def toUnit (operation : Operation α) : Operation Unit := do
  let _ ← operation
  return ()

theorem run_toUnit (operation : Operation α) (session : Session) :
    operation.toUnit.run session =
      ((operation.run session).1.map fun _ => (), (operation.run session).2) := by
  unfold toUnit
  rw [run_bind]
  cases operation.run session with
  | mk outcome later => cases outcome <;> rfl

end Operation

def Request.call : Request → Operation Unit
  | .enqueue track level => Session.enqueue track level
  | .enqueueAll tracks level => (Session.enqueueAll tracks level).toUnit
  | .skip => Session.skip
  | .skipTracks ids => (Session.skipTracks ids).toUnit
  | .skipTracksFor user level ids => (Session.skipTracksFor user level ids).toUnit
  | .stop => Session.stop
  | .setPaused paused => Session.setPaused paused
  | .seek position => Session.seek position
  | .setVolume volume => Session.setVolume volume
  | .setRepeat mode => Session.setRepeat mode
  | .setShuffle on => Session.setShuffle on
  | .setRoundRobin on => Session.setRoundRobin on
  | .reshuffle => Session.reshuffle
  | .join channel => Session.join channel

namespace PlayerStep

def call : PlayerStep → Operation Unit
  | .member request => request.call
  | .loadAndPlay silent => Session.loadAndPlay silent
  | .trackEnded reason => Session.trackEnded reason
  | .restore snapshot volumeSupported => (Session.restore snapshot volumeSupported).toUnit
  | step => step.operation

def cuts (player : Player) : PlayerStep → Bool
  | .member .skip => player.current.isSome
  | .member (.skipTracks ids) | .member (.skipTracksFor _ _ ids) => player.isCurrentIn ids
  | _ => false

def shown (later : Session) : PlayerStep → PlayerInfo
  | .destroy => .empty
  | _ => later.info.1

end PlayerStep

/-- Telling the outcome changes nothing. -/
theorem Session.run_call (session : Session) (step : PlayerStep) :
    (step.call.run session).2 = session.after step := by
  unfold after
  cases step with
  | member request =>
    cases request <;> simp only [PlayerStep.call, PlayerStep.operation, Request.call,
      Request.operation, Operation.run_ignoring, Operation.run_toUnit]
  | loadAndPlay | trackEnded | restore =>
    simp only [PlayerStep.call, PlayerStep.operation, Operation.run_ignoring, Operation.run_toUnit]
  | destroy | list | listRemaining | elapse | loseLink => rfl

namespace Session

open Operation

/-! ### What has been published -/

/-- Since some time statuses have been published, and this one last. -/
def PublishedLast (base session : Session) (info : PlayerInfo) : Prop :=
  ∃ earlier, session.services.updates =
    base.services.updates ++ earlier ++ [(base.guild, info)]

/-- A later state of a session: nothing that was published is lost. -/
structure Extends (later base : Session) : Prop where
  guild : later.guild = base.guild
  updates : base.services.updates <+: later.services.updates

theorem Extends.of_same {base later : Session} (hguild : later.guild = base.guild)
    (hupdates : later.services.updates = base.services.updates) : later.Extends base :=
  ⟨hguild, hupdates ▸ List.prefix_rfl⟩

theorem started_updates (session : Session) (track : Track) (announce : Bool) :
    (session.started track announce).services.updates = session.services.updates := by
  unfold started
  dsimp only
  split <;> rfl

theorem extends_started (session : Session) (track : Track) (announce : Bool) :
    (session.started track announce).Extends session := by
  refine .of_same ?_ (started_updates session track announce)
  unfold started
  dsimp only
  split <;> rfl

/-- An act adds at most to what was published. -/
theorem updates_act {step : PlayerStep} {before later : Session} (hact : Act step before later) :
    before.services.updates <+: later.services.updates := by
  cases hact with
  | publishes | publishesGone => exact List.prefix_append _ _
  | @loads _ _ track announce =>
    have hstarted := started_updates
      ((before.setPlayer (·.loading track)).perform track.playing).2 track.fromStart announce
    exact hstarted ▸ List.prefix_append _ _
  | _ => exact List.prefix_rfl

theorem extends_chain {step : PlayerStep} {before later : Session}
    (hchain : Relation.ReflTransGen (Act step) before later) : later.Extends before := by
  have hact (middle last : Session) (hact : Act step middle last)
      (hmiddle : before.services.updates <+: middle.services.updates) :
      before.services.updates <+: last.services.updates := hmiddle.trans (updates_act hact)
  exact ⟨guild_chain hchain, holds_of_chain hact hchain List.prefix_rfl⟩

variable {base session later : Session} {info : PlayerInfo}

/-- What has been published since some time has been published since any time before it. -/
theorem PublishedLast.of_extends (h : session.PublishedLast later info)
    (hextends : session.Extends base) : base.PublishedLast later info := by
  obtain ⟨earlier, hupdates⟩ := h
  obtain ⟨middle, hmiddle⟩ := hextends.updates
  refine ⟨middle ++ earlier, ?_⟩
  simp only [hupdates, ← hmiddle, hextends.guild, List.append_assoc]

theorem PublishedLast.unique {other : PlayerInfo} (h : base.PublishedLast later info)
    (hother : base.PublishedLast later other) : info = other := by
  obtain ⟨earlier, hupdates⟩ := h
  obtain ⟨earlierToo, hupdatesToo⟩ := hother
  obtain ⟨-, hlast⟩ := List.append_inj' (hupdates.symm.trans hupdatesToo) rfl
  exact congrArg Prod.snd (List.singleton_inj.mp hlast)

theorem publishedLast_publish (session : Session) :
    session.PublishedLast session.publish session.publish.info.1 := by
  rw [info_publish]
  exact ⟨[], by rw [List.append_nil]; rfl⟩

end Session

/-! ### Operations that publish -/

namespace Operation

variable {α β : Type} {session later : Session}

/-- If the operation ends well in a session, it has published the status that holds at its end,
last of all. -/
def PublishesIn (session : Session) (operation : Operation α) : Prop :=
  (operation.run session).1.isOk = true →
    session.PublishedLast (operation.run session).2 (operation.run session).2.info.1

def Publishes (operation : Operation α) : Prop := ∀ session, operation.PublishesIn session

/-- An operation that goes on as another one publishes if that does. -/
theorem PublishesIn.of_run {operation next : Operation α} (h : next.PublishesIn later)
    (hrun : operation.run session = next.run later) (hextends : later.Extends session) :
    operation.PublishesIn session := by
  intro hok
  rw [hrun] at hok ⊢
  exact (h hok).of_extends hextends

theorem publishesIn_of_error {operation : Operation α} {cause : PlayerError}
    (h : (operation.run session).1 = .error cause) : operation.PublishesIn session := by
  intro hok
  rw [h] at hok
  cases hok

/-- Whatever comes before, it is the last part of an operation that has to publish. -/
theorem Publishes.after {operation : Operation α}
    (h : ∀ session, (operation.run session).2.Extends session) {next : α → Operation β}
    (hnext : ∀ value, (next value).Publishes) : (operation >>= next).Publishes := by
  intro session
  have hextends := h session
  have hrun := run_bind operation next session
  cases houtcome : operation.run session with
  | mk outcome later =>
    rw [houtcome] at hrun hextends
    cases outcome with
    | ok value => exact (hnext value later).of_run hrun hextends
    | error cause => exact publishesIn_of_error (congrArg Prod.fst hrun)

/-- To give an answer after publishing changes nothing. -/
theorem PublishesIn.thenPure {operation : Operation α} (h : operation.PublishesIn session)
    (f : α → β) : (operation >>= fun value => pure (f value)).PublishesIn session := by
  unfold PublishesIn at h ⊢
  rw [run_bind]
  cases houtcome : operation.run session with
  | mk outcome later =>
    rw [houtcome] at h
    cases outcome with
    | ok value => exact fun _ => h rfl
    | error cause => exact fun hok => nomatch hok

end Operation

namespace Session

open Operation

variable {base session later : Session}

/-- A change that is published at once. -/
theorem publishes_change {f : Session → Session} (h : ∀ session, (f session).Extends session) :
    (change fun session => (f session).publish).Publishes :=
  fun session _ => (publishedLast_publish (f session)).of_extends (h session)

theorem publishes_publish : (change publish).Publishes :=
  publishes_change fun _ => .of_same rfl rfl

theorem publishes_setQueue (f : TrackQueue → TrackQueue) : (setQueue f).Publishes :=
  publishes_change fun _ => .of_same rfl rfl

theorem extends_publish (session : Session) : ((change publish).run session).2.Extends session :=
  ⟨rfl, List.prefix_append _ _⟩

theorem extends_ensureAlive (session : Session) : (ensureAlive.run session).2.Extends session := by
  rw [run_ensureAlive]
  exact .of_same rfl rfl

theorem extends_ask (command : Command) (session : Session) :
    ((ask command).run session).2.Extends session := by
  rw [run_ask]
  exact .of_same rfl rfl

theorem extends_ignoring {α : Type} {operation : Operation α}
    (h : ∀ session, (operation.run session).2.Extends session) (session : Session) :
    (operation.ignoring.run session).2.Extends session := by
  rw [run_ignoring]
  exact h session

/-! ### Loading tracks -/

theorem publishes_conclude (lastError : Option PlayerError) : (conclude lastError).Publishes := by
  unfold conclude
  cases lastError with
  | some cause => exact .after extends_publish fun _ _ => publishesIn_of_error rfl
  | none => exact fun session => (publishes_publish session).thenPure fun _ => ()

theorem publishedLast_accepted (session : Session) (track : Track) (announce : Bool) :
    session.PublishedLast (session.accepted track announce)
      (session.accepted track announce).info.1 := by
  have hstarted := extends_started
    ((session.setPlayer (·.loading track)).perform track.playing).2 track.fromStart announce
  exact (publishedLast_publish _).of_extends ⟨hstarted.guild, hstarted.updates⟩

/-- A try does not give way if the player is idle, or if nothing is current and it is meant for any
player. -/
theorem not_busy {player : Player} {onlyIfIdle retrying : Bool}
    (hidle : onlyIfIdle = true → player.isIdle = true)
    (hretry : retrying = true → player.current = none) :
    (onlyIfIdle && (player.current.isSome || player.paused) ||
      retrying && player.current.isSome) = false := by
  cases onlyIfIdle <;> cases retrying <;> simp_all [Player.isIdle]

/-- Tries that do not give way publish, whether a track is accepted or none is found. -/
theorem publishesIn_tryTracks (silent : Bool) {onlyIfIdle : Bool} (attempts : Nat)
    {lastError : Option PlayerError} (hidle : onlyIfIdle = true → session.player.isIdle = true)
    (hretry : lastError.isSome = true → session.player.current = none) :
    (tryTracks silent onlyIfIdle attempts lastError).PublishesIn session := by
  induction attempts generalizing session lastError with
  | zero => exact publishes_conclude lastError session
  | succ attempts ih =>
    rcases run_tryTracks silent onlyIfIdle attempts lastError session with
      ⟨-, heq⟩ | ⟨hbusy, -⟩ | ⟨-, -, heq⟩ | ⟨-, track, announce, -, ⟨-, heq⟩ | ⟨cause, -, heq⟩⟩
    · exact publishesIn_of_error (congrArg Prod.fst heq)
    · rw [not_busy hidle hretry] at hbusy
      cases hbusy
    · exact (publishes_conclude lastError _).of_run heq (.of_same rfl rfl)
    · intro _
      rw [heq]
      exact publishedLast_accepted session track announce
    · -- the refusal leaves nothing current, so that the next try does not give way either
      have hcurrent : (session.refused track).player.current = none :=
        discard_loading_current session.player track
      have hpaused : (session.refused track).player.paused = session.player.paused := rfl
      have hidleToo : onlyIfIdle = true → (session.refused track).player.isIdle = true := by
        intro honly
        have hbefore := hidle honly
        rw [Player.isIdle, Bool.and_eq_true] at hbefore
        rw [Player.isIdle, hcurrent, hpaused, hbefore.2]
        rfl
      exact (ih hidleToo fun _ => hcurrent).of_run heq (.of_same rfl rfl)

theorem publishes_loadAndPlay (silent : Bool) : (loadAndPlay silent).Publishes := by
  intro session
  have htries : (tryTracks silent false (session.player.queue.size + 1) none).PublishesIn
      session := publishesIn_tryTracks silent _ nofun nofun
  exact htries.of_run (run_advance silent false session) (.of_same rfl rfl)

/-- To start an idle player and to tell about a change both publish. -/
theorem publishesIn_startOrPublish {idle : Bool}
    (hidle : idle = true → session.player.isIdle = true) :
    (startOrPublish idle).PublishesIn session := by
  cases idle with
  | false => exact publishes_publish session
  | true =>
    have htries : (tryTracks false true (session.player.queue.size + 1) none).PublishesIn session :=
      publishesIn_tryTracks false _ hidle nofun
    exact htries.of_run (run_advance false true session) (.of_same rfl rfl)

/-! ### Queueing -/

theorem extends_checkLimits {α : Type}
    (check : LimitsAnswer → TrackCounts → Metrics → Except String α × Metrics)
    (session : Session) : ((checkLimits check).run session).2.Extends session := by
  rw [run_checkLimits]
  exact .of_same rfl rfl

/-- After a change of the queue a player that was idle starts, any other one tells about it. -/
theorem publishesIn_queued (session : Session) (add : TrackQueue → TrackQueue) :
    (startOrPublish session.player.isIdle).PublishesIn (session.setPlayer (·.setQueue add)) :=
  publishesIn_startOrPublish id

theorem publishes_enqueue (track : Track) (level : PermissionLevel) :
    (enqueue track level).Publishes := by
  refine .after extends_ensureAlive fun _ => .after (extends_checkLimits _) fun status => ?_
  split
  · exact fun session => publishesIn_of_error rfl
  · exact fun session => (publishesIn_queued session _).of_run rfl (.of_same rfl rfl)

theorem publishes_enqueueAll (tracks : List Track) (level : PermissionLevel) :
    (enqueueAll tracks level).Publishes := by
  refine .after extends_ensureAlive fun _ => .after (extends_checkLimits _) fun statuses => ?_
  exact fun session => ((publishesIn_queued session _).thenPure _).of_run rfl (.of_same rfl rfl)

/-! ### Ends of tracks, stops and pauses -/

/-- What follows the report of an end is published, unless the report is passed over. -/
theorem publishesIn_trackEnded (session : Session) (reason : EndReason) :
    (trackEnded reason).PublishesIn session ∨
      ((trackEnded reason).run session).2 = session := by
  have hfinish : (change (·.setPlayer Player.finish) >>= fun _ => loadAndPlay false).Publishes := by
    refine .after (fun before => ?_) fun _ => publishes_loadAndPlay false
    exact .of_same rfl rfl
  have hfail : (change (fun session =>
      (session.withPlayer Player.fail).2.loadFailed (session.withPlayer Player.fail).1) >>=
        fun _ => loadAndPlay false).Publishes := by
    refine .after (fun before => ?_) fun _ => publishes_loadAndPlay false
    exact .of_same rfl rfl
  have hrun : (trackEnded reason).run session = _ := run_bind _ _ session
  rw [run_get] at hrun
  cases halive : session.player.destroyed with
  | true =>
    rw [halive] at hrun
    exact .inr (congrArg Prod.snd hrun)
  | false =>
    rw [halive] at hrun
    cases reason with
    | finished | stopped => exact .inl ((hfinish session).of_run hrun (.of_same rfl rfl))
    | loadFailed => exact .inl ((hfail session).of_run hrun (.of_same rfl rfl))
    | cleanup | replaced => exact .inr (congrArg Prod.snd hrun)

theorem publishes_stop : stop.Publishes :=
  .after extends_ensureAlive fun _ => .after (fun _ => .of_same rfl rfl) fun _ =>
    .after (extends_ask .stop) fun _ => publishes_publish

/-- The node is asked first, and does not touch the player. -/
theorem publishesIn_ask_bind {command : Command} {idle : Bool}
    (hidle : idle = true → session.player.isIdle = true) :
    (ask command >>= fun _ => startOrPublish idle).PublishesIn session := by
  have hrun := run_bind (ask command) (fun _ => startOrPublish idle) session
  rw [run_ask] at hrun
  cases hanswer : (session.perform command).1 with
  | ok value =>
    rw [hanswer] at hrun
    have hstart := @publishesIn_startOrPublish (session.perform command).2 idle hidle
    exact hstart.of_run hrun (.of_same rfl rfl)
  | error cause =>
    rw [hanswer] at hrun
    exact publishesIn_of_error (congrArg Prod.fst hrun)

theorem publishes_setPaused (paused : Bool) : (setPaused paused).Publishes := by
  refine .after extends_ensureAlive fun _ session => ?_
  -- a player that goes on with nothing current and something queued is idle
  have hidle : (! paused && session.player.current.isNone && ! session.player.queue.tracks.isEmpty) =
      true → (session.setPlayer ({ · with paused })).player.isIdle = true := by
    intro hnext
    simp only [Bool.and_eq_true] at hnext
    exact Bool.and_eq_true_iff.mpr ⟨hnext.1.2, hnext.1.1⟩
  exact (publishesIn_ask_bind hidle).of_run rfl (.of_same rfl rfl)

/-! ### Skips -/

/-- What a skip comes to. -/
theorem session_skip (session : Session) :
    (skip.run session).2 =
      if session.player.destroyed then session
      else ((session.setPlayer Player.release).perform .stop).2 := by
  unfold skip
  rw [run_bind, run_ensureAlive]
  cases session.player.destroyed with
  | true => rfl
  | false =>
    simp only [Bool.false_eq_true, if_false, run_bind, run_change, run_ask]

/-- A skip publishes nothing, whatever it cuts. -/
theorem updates_skip (session : Session) :
    (skip.run session).2.services.updates = session.services.updates := by
  rw [session_skip]
  split <;> rfl

theorem publishesIn_skipTracks {ids : List TrackId}
    (hspared : session.player.isCurrentIn ids = false) : (skipTracks ids).PublishesIn session := by
  have hlisted : (session.player.removeAll ids).2.isCurrentIn ids = false := hspared
  have hrun : (skipTracks ids).run session = _ := run_bind _ _ session
  rw [run_use] at hrun
  simp only [withPlayer, hlisted] at hrun
  exact ((publishes_publish _).thenPure _).of_run hrun (.of_same rfl rfl)

theorem publishesIn_skipTracksFor {user : UserId} {level : PermissionLevel} {ids : List TrackId}
    (hspared : session.player.isCurrentIn ids = false) :
    (skipTracksFor user level ids).PublishesIn session := by
  have hrun : (skipTracksFor user level ids).run session = _ := run_bind _ _ session
  rw [run_get] at hrun
  cases hdenied : ! level.isElevated && ! session.player.maySkip user ids with
  | true =>
    simp only [hdenied] at hrun
    exact publishesIn_of_error (congrArg Prod.fst hrun)
  | false =>
    simp only [hdenied] at hrun
    exact (publishesIn_skipTracks hspared).of_run hrun (.of_same rfl rfl)

/-! ### What observers do not see -/

structure Unseen (session later : Session) : Prop where
  player : later.player.Resembles session.player
  updates : later.services.updates = session.services.updates

theorem Unseen.of_same (hplayer : later.player = session.player)
    (hupdates : later.services.updates = session.services.updates) : session.Unseen later :=
  ⟨hplayer ▸ .of_queue rfl rfl rfl (.inl rfl), hupdates⟩

/-- A skip with nothing to cut goes unseen. -/
theorem unseen_skip (hidle : session.player.current = none) :
    session.Unseen (skip.run session).2 := by
  refine ⟨?_, updates_skip session⟩
  rw [session_skip]
  split
  · exact .of_queue rfl rfl rfl (.inl rfl)
  · refine ⟨hidle.symm, rfl, rfl, ?_⟩
    change session.player.queue.skipped.refresh.skipped = session.player.queue.refresh.skipped
    rw [TrackQueue.refresh_skipped]
    rfl

theorem unseen_seek (position : Millis) (session : Session) :
    session.Unseen ((seek position).run session).2 := by
  unfold seek
  rw [run_bind, run_get]
  cases session.player.seekTarget position with
  | nothingPlaying | liveStream | notSeekable | outOfRange => exact .of_same rfl rfl
  | position target =>
    simp only [run_ask]
    exact .of_same rfl rfl

theorem unseen_join (channel : ChannelId) (session : Session) :
    session.Unseen ((join channel).run session).2 := by
  unfold join
  rw [run_bind, run_ensureAlive]
  cases session.player.destroyed with
  | true => exact .of_same rfl rfl
  | false =>
    simp only [Bool.false_eq_true, if_false, run_bind, run_get]
    split
    · exact .of_same rfl rfl
    · rw [run_ask]
      exact .of_same rfl rfl

theorem unseen_setVolume (volume : Single) (session : Session) :
    session.Unseen ((setVolume volume).run session).2 := by
  unfold setVolume
  cases Player.validVolume volume with
  | false => exact .of_same rfl rfl
  | true =>
    simp only [Bool.not_true, Bool.false_eq_true, if_false, run_bind, run_ensureAlive]
    cases session.player.destroyed with
    | true => exact .of_same rfl rfl
    | false =>
      simp only [run_change, run_ask]
      exact ⟨.of_queue rfl rfl rfl (.inl rfl), rfl⟩

/-! ### Restoring, and the end -/

theorem publishes_restore (snapshot : PlayerSnapshot) (volumeSupported : Bool) :
    (restore snapshot volumeSupported).Publishes := by
  have hshuffle (count : Nat) : (do
      setShuffle snapshot.shuffled
      return count : Operation Nat).Publishes :=
    fun session => (publishes_setQueue _ session).thenPure fun _ => count
  have hstart (count : Nat) : (do
      if ! snapshot.paused then (startIfIdle true).ignoring
      setShuffle snapshot.shuffled
      return count : Operation Nat).Publishes := by
    cases snapshot.paused with
    | true => exact hshuffle count
    | false =>
      have hstarts := @within_advance (.restore snapshot volumeSupported) true true
      exact .after (extends_ignoring fun session => extends_chain (hstarts session)) fun _ =>
        hshuffle count
  have hvolume (count : Nat) : (do
      if volumeSupported then
        let volume ← get (·.player.volume)
        (ask (.volume volume)).ignoring
      if ! snapshot.paused then (startIfIdle true).ignoring
      setShuffle snapshot.shuffled
      return count : Operation Nat).Publishes := by
    cases volumeSupported with
    | false => exact hstart count
    | true =>
      refine .after (fun _ => .of_same rfl rfl) fun volume => ?_
      exact .after (extends_ignoring (extends_ask _)) fun _ => hstart count
  refine .after (fun session => ?_) fun count => ?_
  · exact .of_same rfl rfl
  · cases snapshot.channelRef with
    | none => exact hvolume count
    | some channel =>
      have hjoins := @within_join (.restore snapshot volumeSupported) channel
      exact .after (extends_ignoring fun session => extends_chain (hjoins session)) fun _ =>
        hvolume count

/-- The end of a player is published, unless it has ended before. -/
theorem publishedLast_destroy (session : Session) :
    session.PublishedLast (destroy.run session).2 .empty ∨ (destroy.run session).2 = session := by
  unfold destroy
  rw [run_bind, run_get]
  cases session.player.destroyed with
  | true => exact .inr rfl
  | false =>
    simp only [Bool.false_eq_true, if_false, run_bind, run_change, run_get]
    refine .inl ⟨[], ?_⟩
    rw [List.append_nil]
    split
    · rfl
    · simp only [run_bind, run_ignoring, run_ask, run_change]
      rfl

/-! ### Steps -/

/-- A step that ends well and cuts no current track ends with a status, or goes unseen. -/
theorem publishedLast_or_unseen {step : PlayerStep} (hspared : step.cuts session.player = false)
    (hok : (step.call.run session).1.isOk = true) :
    session.PublishedLast (step.call.run session).2 (step.shown (step.call.run session).2) ∨
      session.Unseen (step.call.run session).2 := by
  cases step with
  | member request =>
    cases request with
    | enqueue track level => exact .inl (publishes_enqueue track level session hok)
    | enqueueAll tracks level =>
      exact .inl ((publishes_enqueueAll tracks level session).thenPure (fun _ => ()) hok)
    | skip =>
      have hidle : session.player.current.isSome = false := hspared
      exact .inr (unseen_skip (Option.isNone_iff_eq_none.mp (Option.isSome_eq_false_iff.mp hidle)))
    | skipTracks ids =>
      exact .inl ((publishesIn_skipTracks hspared).thenPure (fun _ => ()) hok)
    | skipTracksFor user level ids =>
      exact .inl ((publishesIn_skipTracksFor hspared).thenPure (fun _ => ()) hok)
    | stop => exact .inl (publishes_stop session hok)
    | setPaused paused => exact .inl (publishes_setPaused paused session hok)
    | seek position => exact .inr (unseen_seek position session)
    | setVolume volume => exact .inr (unseen_setVolume volume session)
    | setRepeat | setShuffle | setRoundRobin | reshuffle =>
      exact .inl (publishes_setQueue _ session hok)
    | join channel => exact .inr (unseen_join channel session)
  | loadAndPlay silent => exact .inl (publishes_loadAndPlay silent session hok)
  | trackEnded reason =>
    rcases publishesIn_trackEnded session reason with hpublishes | hkept
    · exact .inl (hpublishes hok)
    · exact .inr (.of_same (congrArg player hkept) (congrArg (·.services.updates) hkept))
  | restore snapshot volumeSupported =>
    exact .inl ((publishes_restore snapshot volumeSupported session).thenPure (fun _ => ()) hok)
  | destroy =>
    rcases publishedLast_destroy session with hgone | hkept
    · exact .inl hgone
    · exact .inr (.of_same (congrArg player hkept) (congrArg (·.services.updates) hkept))
  | list start stop => exact .inr ⟨session.player.resembles_tracksInRange start stop, rfl⟩
  | listRemaining => exact .inr ⟨.of_queue rfl rfl rfl session.player.queue_remaining, rfl⟩
  | elapse | loseLink => exact .inr (.of_same rfl rfl)

/-- Whatever the player and its node are like: a step that ends well, cuts no current track by a
skip and changes what a status shows has published, last of all, the status that holds at its end,
or that the player is gone if it was the end of the player. -/
theorem feed_shows_status {session : Session} {step : PlayerStep}
    (hspared : step.cuts session.player = false)
    (hok : (step.call.run session).1.isOk = true)
    (hchanged : (session.after step).info.1.still ≠ session.info.1.still) :
    session.PublishedLast (session.after step) (step.shown (session.after step)) := by
  have hcases := publishedLast_or_unseen hspared hok
  rw [run_call] at hcases
  rcases hcases with hpublished | hunseen
  · exact hpublished
  · exact absurd (still_info_of_resembles hunseen.player) hchanged

def rejectedBatch : PlayerStep :=
  .member (.enqueueAll [sampleTrack 1 firstUser false, sampleChapter] .user)

theorem feed_shows_status_rejectedBatch :
    (((troubledSession.opening (.ofSeed 1) maxVolume).after rejectedBatch).player.isPlaying ≠
        (troubledSession.opening (.ofSeed 1) maxVolume).player.isPlaying) ∧
      (troubledSession.opening (.ofSeed 1) maxVolume).PublishedLast
        ((troubledSession.opening (.ofSeed 1) maxVolume).after rejectedBatch)
        ((troubledSession.opening (.ofSeed 1) maxVolume).after rejectedBatch).info.1 := by
  have hstarts : ((troubledSession.opening (.ofSeed 1) maxVolume).after
      rejectedBatch).player.isPlaying ≠
        (troubledSession.opening (.ofSeed 1) maxVolume).player.isPlaying := by decide
  have hok : (rejectedBatch.call.run (troubledSession.opening (.ofSeed 1) maxVolume)).1.isOk =
      true := by decide
  exact ⟨hstarts, feed_shows_status rfl hok (still_info_ne_of_isPlaying_ne hstarts)⟩

/-- If a step ends well and changes what a status shows, the last status it has published is the
one that holds at its end, apart from the position. -/
def Posts (session : Session) (step : PlayerStep) : Prop :=
  (step.call.run session).1.isOk = true →
    (session.after step).info.1.still ≠ session.info.1.still →
      ∃ info, info.still = (session.after step).info.1.still ∧
        session.PublishedLast (session.after step) info

theorem not_posts_skip {session : Session}
    (hok : (skip.run session).1.isOk = true)
    (hstops : (session.after (.member .skip)).player.isPlaying ≠ session.player.isPlaying) :
    ¬ session.Posts (.member .skip) := by
  intro hposts
  obtain ⟨info, -, earlier, hupdates⟩ := hposts hok (still_info_ne_of_isPlaying_ne hstops)
  rw [← run_call] at hupdates
  have hlength := congrArg List.length ((updates_skip session).symm.trans hupdates)
  simp only [List.length_append, List.length_singleton] at hlength
  omega

/-- What is published at the end of a player does not show the settings that it leaves behind. -/
theorem not_posts_destroy {session : Session} (hok : (destroy.run session).1.isOk = true)
    (hstops : (session.after .destroy).player.isPlaying ≠ session.player.isPlaying)
    (hmode : (session.after .destroy).player.queue.repeatMode ≠ .off) :
    ¬ session.Posts .destroy := by
  intro hposts
  obtain ⟨info, hshown, hlast⟩ := hposts hok (still_info_ne_of_isPlaying_ne hstops)
  rcases session.publishedLast_destroy with hgone | hkept
  · rw [hlast.unique hgone] at hshown
    have hoff := congrArg PlayerInfo.repeatMode hshown
    rw [repeatMode_still_info] at hoff
    exact hmode hoff.symm
  · have hplayer : (session.after .destroy).player = session.player := congrArg player hkept
    rw [hplayer] at hstops
    exact hstops rfl

/-- Neither the skip of a track that plays nor the end of a player that is to repeat its queue is
followed by a status that holds then. -/
theorem skip_and_end_unposted :
    ¬ ((sampleSession.opening (.ofSeed 1) maxVolume).afterAll
        [.member (.enqueue (sampleTrack 1 firstUser false) .user)]).Posts (.member .skip) ∧
      ¬ ((sampleSession.opening (.ofSeed 1) maxVolume).afterAll
        [.member (.enqueue (sampleTrack 1 firstUser false) .user),
          .member (.setRepeat .all)]).Posts .destroy :=
  ⟨not_posts_skip (by decide) (by decide), not_posts_destroy (by decide) (by decide) (by decide)⟩

/-! ### Runs -/

/-- Each of some steps ends well, and none of them cuts a current track or is the end of the
player. -/
def GoesOnWell (session : Session) : List PlayerStep → Prop
  | [] => True
  | step :: rest =>
    step ≠ .destroy ∧ step.cuts session.player = false ∧
      (step.call.run session).1.isOk = true ∧ (session.after step).GoesOnWell rest

/-- Whoever has followed the feed since some time, and knew the status then, knows it now, apart
from the position. -/
def KnownSince (base session : Session) : Prop :=
  (∃ info, info.still = session.info.1.still ∧ base.PublishedLast session info) ∨
    session.services.updates = base.services.updates ∧
      session.info.1.still = base.info.1.still

theorem KnownSince.after {step : PlayerStep} (h : base.KnownSince session)
    (hextends : session.Extends base) (hgoesOn : step ≠ .destroy)
    (hspared : step.cuts session.player = false)
    (hok : (step.call.run session).1.isOk = true) : base.KnownSince (session.after step) := by
  have hcases := publishedLast_or_unseen hspared hok
  rw [run_call] at hcases
  rcases hcases with hpublished | hunseen
  · have hshown : step.shown (session.after step) = (session.after step).info.1 := by
      cases step with
      | destroy => exact absurd rfl hgoesOn
      | _ => rfl
    exact .inl ⟨_, rfl, hshown ▸ hpublished.of_extends hextends⟩
  · have hstill := still_info_of_resembles hunseen.player
    rcases h with ⟨info, hinfo, earlier, hupdates⟩ | ⟨hupdates, hsame⟩
    · exact .inl ⟨info, hinfo.trans hstill.symm, earlier, hunseen.updates.trans hupdates⟩
    · exact .inr ⟨hunseen.updates.trans hupdates, hstill.trans hsame⟩

theorem KnownSince.afterAll {steps : List PlayerStep} (h : base.KnownSince session)
    (hextends : session.Extends base) (hwell : session.GoesOnWell steps) :
    base.KnownSince (session.afterAll steps) := by
  induction steps generalizing session with
  | nil => exact h
  | cons step rest ih =>
    obtain ⟨hgoesOn, hspared, hok, hrest⟩ := hwell
    have hafter := extends_chain (chain_after session step)
    refine ih (h.after hextends hgoesOn hspared hok) ?_ hrest
    exact ⟨hafter.guild.trans hextends.guild, hextends.updates.trans hafter.updates⟩

/-- As long as steps end well and cut no current track, no observer holds a stale status. -/
theorem knownSince_afterAll {session : Session} {steps : List PlayerStep}
    (hwell : session.GoesOnWell steps) : session.KnownSince (session.afterAll steps) :=
  KnownSince.afterAll (.inr ⟨rfl, rfl⟩) (.of_same rfl rfl) hwell

end Session

end Jukebox
