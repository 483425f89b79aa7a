import Jukebox.Proofs.Player.Counters
import Jukebox.Proofs.Player.Steady
import Jukebox.Proofs.Limits.Batches

/-!
The limits count what is queued and the current track. Repeat all may have put the current track
back into the queue, and there it stays when the mode is changed; then one track counts as two. No
other track is ever counted twice, unless one is queued again that waits already. So a track is
refused without need exactly where the limit is the count that has the current track twice in it.
-/
namespace Jukebox

/-! ### Counting the copies -/

theorem distinctCount_of_nodup {tracks : List Track} (h : (tracks.map (·.id)).Nodup) :
    distinctCount tracks = tracks.length := by
  rw [distinctCount, h.dedup, List.length_map]

theorem distinctCount_cons (track : Track) (tracks : List Track) :
    distinctCount (track :: tracks) =
      if track.id ∈ tracks.map (·.id) then distinctCount tracks else distinctCount tracks + 1 := by
  unfold distinctCount
  rw [List.map_cons]
  split
  · next hmem => rw [List.dedup_cons_of_mem hmem]
  · next hnew => rw [List.dedup_cons_of_notMem hnew, List.length_cons]

namespace Player

/-- Whether the current track is of a kind, and a copy of it of that kind waits in the queue. -/
def doubles (player : Player) (kind : Track → Bool) : Bool :=
  player.current.any fun current => kind current &&
    player.queue.tracks.any fun copy => kind copy && copy.id = current.id

/-- The current track is counted twice if a copy of it waits; every other track is counted once. -/
theorem countP_held_eq {player : Player} (h : player.queue.ids.Nodup) (kind : Track → Bool) :
    player.held.countP kind =
      distinctCount (player.held.filter kind) + (player.doubles kind).toNat := by
  have hwaiting : ((player.queue.tracks.filter kind).map (·.id)).Nodup :=
    h.sublist (List.filter_sublist.map _)
  have hqueued := distinctCount_of_nodup hwaiting
  rw [List.countP_eq_length_filter, held, List.filter_append, List.length_append, ← hqueued]
  cases hcurrent : player.current with
  | none => simp [doubles, hcurrent]
  | some current =>
    cases hkind : kind current with
    | false => simp [doubles, hcurrent, hkind]
    | true =>
      have hcopy : player.doubles kind = true ↔
          current.id ∈ (player.queue.tracks.filter kind).map (·.id) := by
        simp [doubles, hcurrent, hkind, and_assoc]
      have hfront : (some current).toList.filter kind = [current] := by simp [hkind]
      rw [hfront, List.singleton_append, distinctCount_cons]
      cases hdoubles : player.doubles kind with
      | true =>
        rw [if_pos (hcopy.mp hdoubles)]
        exact Nat.add_comm _ _
      | false =>
        rw [if_neg fun hmem => Bool.false_ne_true (hdoubles.symm.trans (hcopy.mpr hmem))]
        exact Nat.add_comm _ _

theorem total_eq (player : Player) : player.counts.total = player.held.countP fun _ => true := by
  rw [List.countP_true, held, List.length_append, counts, trackCount, TrackQueue.size,
    Nat.add_comm]
  cases player.current <;> rfl

theorem ofUser_eq (player : Player) (user : UserId) :
    player.counts.ofUser user = player.held.countP (·.requester = user) := by
  simp only [held, counts, countOf, TrackQueue.countOf, List.countP_append]
  cases player.current with
  | none => simp
  | some track => by_cases hrequester : track.requester = user <;> simp [hrequester, Nat.add_comm]

end Player

/-! ### No id waits twice -/

namespace TrackQueue

theorem nodup_ids_take {queue : TrackQueue} (h : queue.ids.Nodup) : queue.take.2.ids.Nodup :=
  (List.nodup_append.mp ((ids_take_perm queue).nodup_iff.mp h)).1

theorem nodup_ids_addAll {queue : TrackQueue} {tracks : List Track}
    (h : (tracks.map (·.id) ++ queue.ids).Nodup) (silent : Bool) :
    (queue.addAll tracks silent).ids.Nodup :=
  (ids_addAll_perm queue tracks silent).nodup_iff.mpr h

end TrackQueue

def PlayerStep.queuedIds (mint : Mint) : PlayerStep → List TrackId
  | .member (.enqueue track _) => [track.id]
  | .member (.enqueueAll tracks _) => tracks.map (·.id)
  | .restore snapshot _ => (snapshot.tracksFrom mint).1.map (·.id)
  | _ => []

theorem PlayerStep.queuedIds_of_queued? (step : PlayerStep) (mint : Mint) {tracks : List Track}
    (h : step.queued? = some tracks) : step.queuedIds mint = tracks.map (·.id) := by
  cases step with
  | member request => cases request <;> cases h <;> rfl
  | _ => cases h <;> rfl

namespace Session

open Operation

theorem lasting_nodup : Lasting fun queue _ => queue.ids.Nodup where
  quiet := fun _ hquiet hnow => TrackQueue.nodup_ids_quiet hnow hquiet
  asked := fun _ _ hnow => hnow
  loaded := fun _ _ hnow => TrackQueue.nodup_ids_take hnow

/-- If nothing is queued that waits already, no id waits twice afterwards. -/
theorem nodup_ids_after {session : Session} {step : PlayerStep}
    (hnew : (step.queuedIds session.services.catalogue.mint ++
      session.player.queue.ids).Nodup) :
    (session.after step).player.queue.ids.Nodup := by
  have hnow : session.player.queue.ids.Nodup := (List.nodup_append.mp hnew).2.1
  have hnoted : Under (fun queue _ => queue.ids.Nodup) (step.operation.noting (session, [])).2 := by
    refine lasting_nodup.noting hnow (fun tracks accepted hqueued hpart => ?_)
      fun snapshot volumeSupported hstep => ?_
    · have hids := step.queuedIds_of_queued? session.services.catalogue.mint hqueued
      rw [hids] at hnew
      exact TrackQueue.nodup_ids_addAll (hnew.sublist ((hpart.map _).append_right _)) false
    · subst hstep
      exact TrackQueue.nodup_ids_addAll hnew true
  have hsame : (step.operation.noting (session, [])).2.1 = session.after step :=
    (Flow.runWith_performNoting _ _).2
  unfold Under at hnoted
  rwa [hsame] at hnoted

def afterUnder (session : Session) (entries : List (LimitsAnswer × PlayerStep)) : Session :=
  entries.foldl (fun session entry => (session.underLimits entry.1).after entry.2) session

/-- No step is to queue a track while that track waits already. -/
def Fresh (session : Session) : List (LimitsAnswer × PlayerStep) → Prop
  | [] => True
  | entry :: rest =>
    (entry.2.queuedIds session.services.catalogue.mint ++ session.player.queue.ids).Nodup ∧
      ((session.underLimits entry.1).after entry.2).Fresh rest

theorem nodup_ids_afterUnder {session : Session} (hnow : session.player.queue.ids.Nodup)
    {entries : List (LimitsAnswer × PlayerStep)} (hfresh : session.Fresh entries) :
    (session.afterUnder entries).player.queue.ids.Nodup := by
  induction entries generalizing session with
  | nil => exact hnow
  | cons entry rest ih =>
    obtain ⟨hnew, hrest⟩ := hfresh
    have hunder : ((session.underLimits entry.1).after entry.2).player.queue.ids.Nodup :=
      nodup_ids_after hnew
    exact ih hunder hrest

/-! ### Refusals -/

theorem run_conclude_ne_rejected {code : LimitCode} {message : String}
    {lastError : Option PlayerError} (hlast : lastError ≠ some (.queueRejected code message))
    (session : Session) :
    ((conclude lastError).run session).1 ≠ .error (.queueRejected code message) := by
  cases lastError with
  | none => exact nofun
  | some cause => exact fun heq => hlast (congrArg some (Except.error.inj heq))

/-- A failed load is no refusal by the limits. -/
theorem run_tryTracks_ne_rejected {code : LimitCode} {message : String} (silent onlyIfIdle : Bool)
    (attempts : Nat) {lastError : Option PlayerError}
    (hlast : lastError ≠ some (.queueRejected code message)) (session : Session) :
    ((tryTracks silent onlyIfIdle attempts lastError).run session).1 ≠
      .error (.queueRejected code message) := by
  induction attempts generalizing lastError session with
  | zero => exact run_conclude_ne_rejected hlast session
  | succ attempts ih =>
    rcases run_tryTracks silent onlyIfIdle attempts lastError session with
      ⟨-, heq⟩ | ⟨-, heq⟩ | ⟨-, -, heq⟩ | ⟨-, track, announce, -, ⟨-, heq⟩ | ⟨cause, -, heq⟩⟩
    · rw [heq]
      exact nofun
    · rw [heq]
      exact nofun
    · rw [heq]
      exact run_conclude_ne_rejected hlast _
    · rw [heq]
      exact nofun
    · have hcause : some (PlayerError.backend cause) ≠ some (.queueRejected code message) := nofun
      rw [heq]
      exact ih hcause _

theorem run_startOrPublish_ne_rejected (code : LimitCode) (message : String) (idle : Bool)
    (session : Session) :
    ((startOrPublish idle).run session).1 ≠ .error (.queueRejected code message) := by
  cases idle with
  | true =>
    rw [startOrPublish, if_pos rfl, startIfIdle, run_advance]
    exact run_tryTracks_ne_rejected false true _ (Option.some_ne_none _).symm session
  | false =>
    intro heq
    cases heq

/-- A member without elevated rights is refused for the first rule that the track breaks. -/
theorem enqueue_rejected_iff {session : Session} {limits : GuildLimits} (track : Track)
    {level : PermissionLevel} (hlevel : level.isElevated = false)
    (hlimits : session.services.limits = .ok limits) (code : LimitCode) (message : String) :
    ((enqueue track level).run session).1 = .error (.queueRejected code message) ↔
      session.player.destroyed = false ∧
        ∃ rule, limits.brokenRule? track session.player.counts 0 = some rule ∧
          rule.code = code ∧ rule.message limits = message := by
  cases hdestroyed : session.player.destroyed with
  | true =>
    have hrun : ((enqueue track level).run session).1 = .error .destroyed := by
      unfold enqueue
      rw [run_bind, run_ensureAlive, hdestroyed]
      rfl
    rw [hrun]
    exact iff_of_false nofun fun h => Bool.false_ne_true h.1.symm
  | false =>
    have hweigh : session.weigh track level =
        (.ok (limits.statusOf (limits.brokenRule? track session.player.counts 0)),
          (session.weigh track level).2) := by
      simp only [weigh, setMetrics, Admission.check, hlevel, hlimits, Bool.false_eq_true, if_false]
    rw [run_enqueue hdestroyed, hweigh]
    cases limits.brokenRule? track session.player.counts 0 with
    | none =>
      refine iff_of_false (run_startOrPublish_ne_rejected code message _ _) ?_
      rintro ⟨-, rule, hrule, -⟩
      cases hrule
    | some rule =>
      simp [GuildLimits.statusOf, LimitRule.refusal]

theorem brokenRule?_trackLimit {limits : GuildLimits} {track : Track} {counts : TrackCounts}
    (h : limits.brokenRule? track counts 0 = some .trackLimit) :
    LimitRule.below counts.total limits.maxTracks = false := by
  have hbroken := List.find?_some h
  simpa only [LimitRule.allows, Nat.add_zero, Bool.not_eq_true'] using hbroken

theorem brokenRule?_userTrackLimit {limits : GuildLimits} {track : Track} {counts : TrackCounts}
    (h : limits.brokenRule? track counts 0 = some .userTrackLimit) :
    LimitRule.below (counts.ofUser track.requester) limits.userMaxTracks = false := by
  have hbroken := List.find?_some h
  simpa only [LimitRule.allows, Nat.add_zero, Bool.not_eq_true'] using hbroken

def ReachedBy (limit : Option UInt64) (tracks : List Track) : Prop :=
  ∃ bound, limit = some bound ∧ bound.toNat ≤ distinctCount tracks

/-- A limit that a count has reached was reached without a copy, unless it is that count. -/
theorem reachedBy_iff {limit : Option UInt64} {count : Nat} {tracks : List Track} {copy : Bool}
    (hcount : count = distinctCount tracks + copy.toNat)
    (hbroken : LimitRule.below count limit = false) :
    ReachedBy limit tracks ↔ ¬ (copy = true ∧ limit.map (·.toNat) = some count) := by
  cases limit with
  | none => cases hbroken
  | some bound =>
    have hreached : bound.toNat ≤ count := by simpa [LimitRule.below] using hbroken
    simp only [ReachedBy, Option.some.injEq, exists_eq_left', Option.map_some]
    cases copy with
    | false => simpa [hcount] using hreached
    | true =>
      simp only [Bool.toNat_true] at hcount
      simp only [true_and]
      omega

/-- A track is refused for a limit on numbers only if the different tracks that are held have
reached it. -/
structure RefusesRightly (player : Player) (limits : GuildLimits) (track : Track)
    (outcome : Except PlayerError Unit) : Prop where
  total : ∀ message, outcome = .error (.queueRejected .trackLimitExceeded message) →
    ReachedBy limits.maxTracks player.held
  ofUser : ∀ message, outcome = .error (.queueRejected .userTrackLimitExceeded message) →
    ReachedBy limits.userMaxTracks (player.held.filter (·.requester = track.requester))

/-- A living player refuses a track because its current track waits in the queue as well: the limit
that refuses it is as high as the count, in which that track stands twice. -/
def CopyTips (player : Player) (limits : GuildLimits) (track : Track) : Prop :=
  player.destroyed = false ∧
    (limits.brokenRule? track player.counts 0 = some .trackLimit ∧
        player.doubles (fun _ => true) = true ∧
        limits.maxTracks.map (·.toNat) = some player.trackCount ∨
      limits.brokenRule? track player.counts 0 = some .userTrackLimit ∧
        player.doubles (·.requester = track.requester) = true ∧
        limits.userMaxTracks.map (·.toNat) = some (player.countOf track.requester))

instance (player : Player) (limits : GuildLimits) (track : Track) :
    Decidable (CopyTips player limits track) :=
  inferInstanceAs (Decidable (_ ∧ (_ ∧ _ ∧ _ ∨ _ ∧ _ ∧ _)))

/-- Where no id waits twice, members are refused rightly, unless a copy of the current track makes
the difference. -/
theorem refusesRightly_of_nodup {session : Session} (hids : session.player.queue.ids.Nodup)
    {limits : GuildLimits} (hlimits : session.services.limits = .ok limits) {track : Track}
    {level : PermissionLevel} (hlevel : level.isElevated = false) :
    RefusesRightly session.player limits track ((enqueue track level).run session).1 ↔
      ¬ CopyTips session.player limits track := by
  have htotal := session.player.countP_held_eq hids fun _ => true
  rw [← Player.total_eq, List.filter_true] at htotal
  have hofUser := session.player.countP_held_eq hids (·.requester = track.requester)
  rw [← Player.ofUser_eq] at hofUser
  have hrejected (rule : LimitRule) (message : String) :=
    enqueue_rejected_iff track hlevel hlimits rule.code message
  constructor
  · rintro ⟨hright, hrightOfUser⟩ ⟨halive, ⟨hrule, htips⟩ | ⟨hrule, htips⟩⟩
    · have houtcome := (hrejected .trackLimit _).mpr ⟨halive, _, hrule, rfl, rfl⟩
      exact (reachedBy_iff htotal (brokenRule?_trackLimit hrule)).mp (hright _ houtcome) htips
    · have houtcome := (hrejected .userTrackLimit _).mpr ⟨halive, _, hrule, rfl, rfl⟩
      exact (reachedBy_iff hofUser (brokenRule?_userTrackLimit hrule)).mp
        (hrightOfUser _ houtcome) htips
  · refine fun htips => ⟨fun message houtcome => ?_, fun message houtcome => ?_⟩
    · obtain ⟨halive, rule, hrule, hcode, -⟩ := (hrejected .trackLimit message).mp houtcome
      obtain rfl := LimitRule.code_injective hcode
      exact (reachedBy_iff htotal (brokenRule?_trackLimit hrule)).mpr fun hcopy =>
        htips ⟨halive, .inl ⟨hrule, hcopy⟩⟩
    · obtain ⟨halive, rule, hrule, hcode, -⟩ := (hrejected .userTrackLimit message).mp houtcome
      obtain rfl := LimitRule.code_injective hcode
      exact (reachedBy_iff hofUser (brokenRule?_userTrackLimit hrule)).mpr fun hcopy =>
        htips ⟨halive, .inr ⟨hrule, hcopy⟩⟩

/-- Whatever a player has gone through, members without elevated rights are refused for the number
of tracks only where that number is reached, unless a copy of the current track that repeat all has
put back is what reaches it. -/
theorem refusesRightly_iff (session : Session) (dice : Dice) (volume : Single)
    (entries : List (LimitsAnswer × PlayerStep))
    (hfresh : (session.opening dice volume).Fresh entries) (limits : GuildLimits) (track : Track)
    (level : PermissionLevel) (hlevel : level.isElevated = false) {reached : Session}
    (hreached : (session.opening dice volume).afterUnder entries = reached) :
    RefusesRightly reached.player limits track
        ((enqueue track level).run (reached.underLimits (.ok limits))).1 ↔
      ¬ CopyTips reached.player limits track := by
  have hopening : (session.opening dice volume).player.queue.ids.Nodup := List.nodup_nil
  have hids : reached.player.queue.ids.Nodup :=
    hreached ▸ nodup_ids_afterUnder hopening hfresh
  have hunder : (reached.underLimits (.ok limits)).player.queue.ids.Nodup := hids
  exact refusesRightly_of_nodup hunder rfl hlevel

def roundingEntries : List (LimitsAnswer × PlayerStep) :=
  [(.ok { maxTracks := some 1 }, .member (.enqueue (sampleTrack 1 firstUser true) .user)),
    (.ok {}, .member (.setRepeat .all)), (.ok {}, .trackEnded .finished),
    (.error "gone", .member (.enqueueAll [sampleTrack 1 firstUser false,
      sampleTrack 2 secondUser false] .dj)),
    (.ok {}, .loadAndPlay false), (.ok {}, .member (.setRepeat .single))]

theorem refusesRightly_iff_rounding :
    let session := sampleSession.opening (.ofSeed 1) maxVolume
    session.Fresh roundingEntries ∧ PermissionLevel.user.isElevated = false ∧
    (session.afterUnder roundingEntries).player.trackCount = 3 ∧
    ((enqueue (sampleTrack 3 secondUser false) .user).run
      ((session.afterUnder roundingEntries).underLimits (.ok { maxTracks := some 2 }))).1 =
        .error (.queueRejected .trackLimitExceeded (LimitRule.trackLimit.message
          { maxTracks := some 2 })) ∧
    ReachedBy (some 2) (session.afterUnder roundingEntries).player.held := by
  intro session
  have hfresh : session.Fresh roundingEntries :=
    ⟨by decide, by decide, by decide, by decide, by decide, by decide, trivial⟩
  have houtcome : ((enqueue (sampleTrack 3 secondUser false) .user).run
      ((session.afterUnder roundingEntries).underLimits (.ok { maxTracks := some 2 }))).1 =
        .error (.queueRejected .trackLimitExceeded (LimitRule.trackLimit.message
          { maxTracks := some 2 })) :=
    (enqueue_rejected_iff _ rfl rfl _ _).mpr ⟨by decide, .trackLimit, by decide, rfl, rfl⟩
  have hright := (refusesRightly_iff sampleSession (.ofSeed 1) maxVolume roundingEntries hfresh
    { maxTracks := some 2 } (sampleTrack 3 secondUser false) .user rfl rfl).mpr (by decide)
  exact ⟨hfresh, rfl, by decide, houtcome, hright.total _ houtcome⟩

def loneEntries : List (LimitsAnswer × PlayerStep) :=
  [(.ok {}, .member (.setRepeat .all)),
    (.ok {}, .member (.enqueue (sampleTrack 1 firstUser false) .user))]

/-- A second track may be refused where two are allowed. -/
theorem enqueue_refused_below_limit :
    ¬ ∀ (session : Session) (dice : Dice) (volume : Single)
      (entries : List (LimitsAnswer × PlayerStep)) (limits : GuildLimits) (track : Track)
      (level : PermissionLevel), (session.opening dice volume).Fresh entries →
      level.isElevated = false →
      RefusesRightly ((session.opening dice volume).afterUnder entries).player limits track
        ((enqueue track level).run
          (((session.opening dice volume).afterUnder entries).underLimits (.ok limits))).1 := by
  intro hrefuses
  have hright := hrefuses sampleSession (.ofSeed 1) maxVolume loneEntries { maxTracks := some 2 }
    (sampleTrack 2 secondUser false) .user ⟨by decide, by decide, trivial⟩ rfl
  have houtcome : ((enqueue (sampleTrack 2 secondUser false) .user).run
      (((sampleSession.opening (.ofSeed 1) maxVolume).afterUnder loneEntries).underLimits
        (.ok { maxTracks := some 2 }))).1 =
        .error (.queueRejected .trackLimitExceeded (LimitRule.trackLimit.message
          { maxTracks := some 2 })) :=
    (enqueue_rejected_iff _ rfl rfl _ _).mpr ⟨by decide, .trackLimit, by decide, rfl, rfl⟩
  obtain ⟨bound, hbound, hreached⟩ := hright.total _ houtcome
  obtain rfl : 2 = bound := Option.some.inj hbound
  exact absurd hreached (by decide)

end Session

end Jukebox
