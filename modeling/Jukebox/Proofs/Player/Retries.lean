import Jukebox.Proofs.Queue.Takes
import Jukebox.Proofs.Player.NowPlaying

/-!
How far the player goes on when the node refuses tracks. It tries once more than the queue has
tracks. That reaches every track unless refused ones come back and the order is made anew after
each try: then the same tracks may be tried again and again while a playable one waits.
-/
namespace Jukebox

/-- The node plays exactly the tracks of a kind, from wherever in the track it is to start and
whatever it was asked before. -/
def AudioNode.Accepts (node : AudioNode) (playable : Track → Prop) : Prop :=
  ∀ (log : List Asked) (track : Track),
    ({ node with log } : AudioNode).refusal? track.playing = none ↔ playable track.wish

/-! ### The tracks that are tried -/

namespace TrackQueue

/-- The tracks that are given one after another if each of them is refused. -/
def tries : Nat → TrackQueue → List Track
  | 0, _ => []
  | attempts + 1, queue =>
    match queue.take with
    | (none, _) => []
    | (some track, queue) => track :: tries attempts queue.skipped

theorem tries_of_given {queue : TrackQueue} {track : Track} (h : queue.take.1 = some track)
    (attempts : Nat) :
    queue.tries (attempts + 1) = track :: queue.take.2.skipped.tries attempts := by
  simp only [tries]
  split
  · next heq => rw [heq] at h; cases h
  · next heq => rw [heq] at h ⊢; rw [Option.some.inj h]

theorem tries_of_empty {queue : TrackQueue} (h : queue.take.1 = none) (attempts : Nat) :
    queue.tries (attempts + 1) = [] := by
  simp only [tries]
  split
  · rfl
  · next heq => rw [heq] at h; cases h

variable {playable : Track → Prop}

/-- A playable track stays playable when the views are brought up to date. -/
theorem exists_playable_refresh {queue : TrackQueue}
    (h : ∃ track ∈ queue.tracks, playable track.wish) :
    ∃ track ∈ queue.refresh.tracks, playable track.wish := by
  obtain ⟨track, htrack, hplayable⟩ := h
  have hwish : track.wish ∈ queue.refresh.tracks.map Track.wish := by
    rw [refresh_map Track.wish (fun _ _ => rfl)]
    exact List.mem_map_of_mem htrack
  obtain ⟨other, hother, hsame⟩ := List.mem_map.mp hwish
  exact ⟨other, hother, hsame.symm ▸ hplayable⟩

/-- Where tracks do not come back, as many tries as there are tracks reach all of them. -/
theorem exists_tries_once {queue : TrackQueue} (hmode : queue.repeatMode ≠ .all)
    (hsticky : queue.sticky? = none) {attempts : Nat} (hattempts : queue.size ≤ attempts)
    (hqueued : ∃ track ∈ queue.tracks, playable track.wish) :
    ∃ track ∈ queue.tries attempts, playable track.wish := by
  induction attempts generalizing queue with
  | zero =>
    obtain ⟨track, htrack, -⟩ := hqueued
    have hpos : 0 < queue.size := List.length_pos_of_mem htrack
    omega
  | succ attempts ih =>
    obtain ⟨found, hfound, hplayable⟩ := exists_playable_refresh hqueued
    obtain ⟨other, hother, -⟩ := hqueued
    obtain ⟨track, hgiven, hperm⟩ := take_once hmode hsticky (List.ne_nil_of_mem hother)
    rw [tries_of_given hgiven]
    rcases List.mem_cons.mp (hperm.mem_iff.mp hfound) with rfl | hleft
    · exact ⟨found, List.mem_cons_self, hplayable⟩
    · have hsize : queue.size = queue.take.2.skipped.size + 1 :=
        (size_refresh queue).symm.trans hperm.length_eq
      have hmodes : queue.take.2.skipped.repeatMode ≠ .all := (take_modes queue).1 ▸ hmode
      obtain ⟨last, hlast, hplays⟩ :=
        ih hmodes (sticky?_skipped _) (by omega) ⟨found, hleft, hplayable⟩
      exact ⟨last, List.mem_cons_of_mem track hlast, hplays⟩

/-- In plain order, refused tracks come back behind all others. -/
theorem exists_tries_in_order {queue : TrackQueue} (hmode : queue.repeatMode = .all)
    (hshuffle : queue.shuffle = false) (hrotation : queue.roundRobin = false)
    {front back : List Track} {found : Track} (hqueue : queue.tracks = front ++ found :: back)
    (hplayable : playable found.wish) {attempts : Nat} (hattempts : front.length < attempts) :
    ∃ track ∈ queue.tries attempts, playable track.wish := by
  induction front generalizing queue back attempts with
  | nil =>
    obtain ⟨attempts, rfl⟩ := Nat.exists_eq_succ_of_ne_zero (Nat.ne_of_gt hattempts)
    obtain ⟨track, hgiven, hwish, -⟩ := take_in_order hmode hshuffle hrotation hqueue
    rw [tries_of_given hgiven]
    exact ⟨track, List.mem_cons_self, hwish ▸ hplayable⟩
  | cons head rest ih =>
    have hpos : attempts ≠ 0 := Nat.ne_of_gt (Nat.zero_lt_of_lt hattempts)
    obtain ⟨attempts, rfl⟩ := Nat.exists_eq_succ_of_ne_zero hpos
    obtain ⟨track, hgiven, -, hleft⟩ := take_in_order hmode hshuffle hrotation hqueue
    obtain ⟨hmodes, hshuffles, hrotations⟩ := take_modes queue
    have hqueue' : queue.take.2.skipped.tracks = rest ++ found :: (back ++ [track.fromStart]) := by
      change queue.take.2.tracks = _
      rw [hleft]
      simp
    have hmode' : queue.take.2.skipped.repeatMode = .all := hmodes.trans hmode
    obtain ⟨last, hlast, hplays⟩ := ih hmode' (hshuffles.trans hshuffle)
      (hrotations.trans hrotation) hqueue' (Nat.lt_of_succ_lt_succ hattempts)
    rw [tries_of_given hgiven]
    exact ⟨last, List.mem_cons_of_mem track hlast, hplays⟩

/-- The tries reach a playable track, unless tracks come back into an order that is made anew. -/
theorem exists_tries {queue : TrackQueue} (hqueued : ∃ track ∈ queue.tracks, playable track.wish)
    (hplain : queue.repeatMode = .all → queue.shuffle = false ∧ queue.roundRobin = false) :
    ∃ track ∈ queue.tries (queue.size + 1), playable track.wish := by
  by_cases hmode : queue.repeatMode = .all
  · obtain ⟨hshuffle, hrotation⟩ := hplain hmode
    obtain ⟨found, hfound, hplayable⟩ := hqueued
    obtain ⟨front, back, hqueue⟩ := List.append_of_mem hfound
    refine exists_tries_in_order hmode hshuffle hrotation hqueue hplayable ?_
    simp only [size, hqueue, List.length_append]
    omega
  · cases hsticky : queue.sticky? with
    | none => exact exists_tries_once hmode hsticky (Nat.le_succ _) hqueued
    | some track =>
      -- the first try is the last track again, and leaves the queue as it is
      have htake : queue.take = (some track, queue) := by simp only [take, hsticky]
      rw [tries_of_given (by rw [htake]), htake]
      have hmode' : queue.skipped.repeatMode ≠ .all := hmode
      obtain ⟨last, hlast, hplays⟩ :=
        exists_tries_once hmode' (sticky?_skipped queue) (Nat.le_refl _) hqueued
      exact ⟨last, List.mem_cons_of_mem track hlast, hplays⟩

end TrackQueue

/-! ### What a load comes to -/

namespace Session

open Operation

variable {playable : Track → Prop}

/-- A load that succeeds and leaves a playable track current, which the node was last told to
play. -/
structure PlaysOn (playable : Track → Prop) (result : Except PlayerError Unit × Session) :
    Prop where
  succeeds : result.1 = .ok ()
  current : ∃ track, result.2.player.current = some track ∧ playable track.wish ∧
    Told result.2.node.log track

theorem not_playsOn_of_idle {result : Except PlayerError Unit × Session}
    (h : result.2.player.current = none) : ¬ PlaysOn playable result := by
  rintro ⟨-, track, hcurrent, -⟩
  rw [h] at hcurrent
  cases hcurrent

theorem conclude_idle {session : Session} (lastError : Option PlayerError)
    (h : session.player.current = none) :
    ((conclude lastError).run session).2.player.current = none := by
  have hpublish : session.publish.player.current = none := by
    rw [publish_player]
    exact h
  unfold conclude
  rw [run_bind, run_change]
  cases lastError <;> exact hpublish

theorem accepts_perform {node : AudioNode} (h : node.Accepts playable) (command : Command) :
    (node.perform command).2.Accepts playable := by
  intro log track
  have hsame : ({ (node.perform command).2 with log } : AudioNode).refusal? track.playing =
      ({ node with log } : AudioNode).refusal? track.playing := by
    unfold AudioNode.perform
    cases node.refusal? command with
    | some cause => rfl
    | none => cases command <;> rfl
  rw [hsame]
  exact h log track

/-- An accepted try makes its track the current one. -/
theorem playsOn_of_accepted {session : Session} (hnode : session.node.Accepts playable)
    {track : Track}
    (hdone : ((session.setPlayer (·.loading track)).perform track.playing).1 = .ok ())
    (announce : Bool) :
    playable track.wish ∧ PlaysOn playable (.ok (), session.accepted track announce) := by
  have hplayable : playable track.wish :=
    (hnode session.node.log track).mp (AudioNode.perform_eq_ok_iff.mp hdone)
  have hcurrent := current_accepted session track announce
  have htold := truthful_accepted hdone announce track.fromStart hcurrent
  exact ⟨hplayable, rfl, track.fromStart, hcurrent, hplayable, htold⟩

theorem not_playable_of_refused {session : Session} (hnode : session.node.Accepts playable)
    {track : Track} {cause : String}
    (hrefused : ((session.setPlayer (·.loading track)).perform track.playing).1 = .error cause) :
    ¬ playable track.wish := by
  intro hplayable
  have hdone : (session.node.perform track.playing).1 = .ok () :=
    AudioNode.perform_eq_ok_iff.mpr ((hnode session.node.log track).mpr hplayable)
  have herror : (session.node.perform track.playing).1 = .error cause := hrefused
  rw [hdone] at herror
  cases herror

/-- A load plays a track exactly if one of its tries is playable. -/
theorem playsOn_tryTracks_iff (silent : Bool) {attempts : Nat} {lastError : Option PlayerError}
    {session : Session} (halive : session.player.destroyed = false)
    (hnode : session.node.Accepts playable)
    (hidle : lastError.isSome = true → session.player.current = none)
    (hfirst : lastError = none → attempts ≠ 0) :
    PlaysOn playable ((tryTracks silent false attempts lastError).run session) ↔
      ∃ track ∈ session.player.queue.tries attempts, playable track.wish := by
  induction attempts generalizing lastError session with
  | zero =>
    have hrefused : lastError.isSome = true := by
      cases lastError with
      | none => exact absurd rfl (hfirst rfl)
      | some cause => rfl
    refine iff_of_false (not_playsOn_of_idle (conclude_idle lastError (hidle hrefused))) ?_
    rintro ⟨track, htrack, -⟩
    cases htrack
  | succ attempts ih =>
    rcases run_tryTracks silent false attempts lastError session with
      ⟨hdestroyed, -⟩ | ⟨hbusy, -⟩ | ⟨-, hempty, heq⟩ |
        ⟨-, track, announce, hgiven, ⟨hdone, heq⟩ | ⟨cause, hrefused, heq⟩⟩
    · rw [halive] at hdestroyed
      cases hdestroyed
    · simp only [Bool.false_and, Bool.false_or, Bool.and_eq_true] at hbusy
      rw [hidle hbusy.1] at hbusy
      cases hbusy.2
    · rw [heq, TrackQueue.tries_of_empty hempty]
      refine iff_of_false (not_playsOn_of_idle (conclude_idle lastError rfl)) ?_
      rintro ⟨track, htrack, -⟩
      cases htrack
    · rw [heq, TrackQueue.tries_of_given hgiven]
      obtain ⟨hplayable, hplays⟩ := playsOn_of_accepted hnode hdone announce
      exact iff_of_true hplays ⟨track, List.mem_cons_self, hplayable⟩
    · have halive' : (session.refused track).player.destroyed = false := halive
      have hnode' : (session.refused track).node.Accepts playable :=
        accepts_perform hnode track.playing
      have hidle' : (session.refused track).player.current = none :=
        discard_loading_current session.player track
      rw [heq, TrackQueue.tries_of_given hgiven, List.exists_mem_cons_iff,
        or_iff_right (not_playable_of_refused hnode hrefused)]
      exact ih halive' hnode' (fun _ => hidle') nofun

/-- Loading the next track plays a playable one if the queue holds any, unless tracks come back into
an order that is made anew; there it depends on the order whether one is tried at all. -/
theorem playsOn_loadAndPlay_iff (session : Session) (playable : Track → Prop)
    (halive : session.player.destroyed = false) (hnode : session.node.Accepts playable)
    (hqueued : ∃ track ∈ session.player.queue.tracks, playable track.wish) (silent : Bool) :
    PlaysOn playable ((loadAndPlay silent).run session) ↔
      (session.player.queue.repeatMode = .all →
        session.player.queue.shuffle = true ∨ session.player.queue.roundRobin = true →
        ∃ track ∈ session.player.queue.tries (session.player.queue.size + 1),
          playable track.wish) := by
  rw [loadAndPlay, run_advance, playsOn_tryTracks_iff silent halive hnode (by simp) (by simp)]
  refine ⟨fun htried _ _ => htried, fun htried => ?_⟩
  by_cases hanew : session.player.queue.repeatMode = .all ∧
      (session.player.queue.shuffle = true ∨ session.player.queue.roundRobin = true)
  · exact htried hanew.1 hanew.2
  · refine TrackQueue.exists_tries hqueued fun hmode => ?_
    simpa [hmode] using hanew

/-- A node without outages plays the titles that it does not reject. -/
theorem accepts_titles {node : AudioNode} (hplays : .play ∉ node.failing)
    (houtages : node.outages = fun _ _ => none) :
    node.Accepts fun track => track.audio.title ∉ node.rejected := by
  intro log track
  simp only [AudioNode.refusal?, AudioNode.titleRefusal?, Track.playing, Command.kind, hplays,
    if_false, houtages]
  by_cases hrejected : track.audio.title ∈ node.rejected <;> simp [hrejected, Track.wish]

def titledTrack (number : UInt64) (requester : UserId) (title : String) : Track :=
  { sampleTrack number requester false with audio := .recording title title 180000 }

def stubbornSession : Session :=
  { sampleSession with node := { rejected := ["A1", "A2", "A3", "B"] } }

def stubbornSteps : List PlayerStep :=
  [.member (.setRoundRobin true), .member (.setRepeat .all), .member (.setPaused true),
    .member (.enqueueAll [titledTrack 1 firstUser "A1", titledTrack 2 firstUser "A2",
      titledTrack 3 firstUser "A3", titledTrack 4 firstUser "A4",
      titledTrack 5 secondUser "B"] .user)]

def stubborn : Session := (stubbornSession.opening (.ofSeed 1) maxVolume).afterAll stubbornSteps

theorem stubborn_accepts :
    stubborn.node.Accepts fun track => track.audio.title ∉ stubborn.node.rejected :=
  accepts_titles (by decide) rfl

theorem playsOn_loadAndPlay_iff_stubborn :
    stubborn.player.destroyed = false ∧
      (∃ track ∈ stubborn.player.queue.tracks,
        track.wish.audio.title ∉ stubborn.node.rejected) ∧
      (PlaysOn (fun track => track.audio.title ∉ stubborn.node.rejected)
          ((loadAndPlay true).run stubborn) ↔
        (stubborn.player.queue.repeatMode = .all →
          stubborn.player.queue.shuffle = true ∨ stubborn.player.queue.roundRobin = true →
          ∃ track ∈ stubborn.player.queue.tries (stubborn.player.queue.size + 1),
            track.wish.audio.title ∉ stubborn.node.rejected)) := by
  have halive : stubborn.player.destroyed = false := by decide
  have hqueued : ∃ track ∈ stubborn.player.queue.tracks,
      track.wish.audio.title ∉ stubborn.node.rejected := by decide
  exact ⟨halive, hqueued,
    playsOn_loadAndPlay_iff stubborn _ halive stubborn_accepts hqueued true⟩

/-- A player in rotation, under repeat all, may give up while a playable track is queued. -/
theorem loadAndPlay_gives_up :
    ¬ ∀ (session : Session) (dice : Dice) (volume : Single) (steps : List PlayerStep)
      (playable : Track → Prop),
      ((session.opening dice volume).afterAll steps).player.destroyed = false →
      ((session.opening dice volume).afterAll steps).node.Accepts playable →
      (∃ track ∈ ((session.opening dice volume).afterAll steps).player.queue.tracks,
        playable track.wish) →
      PlaysOn playable
        ((loadAndPlay true).run ((session.opening dice volume).afterAll steps)) := by
  intro hplaysOn
  have hplays := hplaysOn stubbornSession (.ofSeed 1) maxVolume stubbornSteps _ (by decide)
    stubborn_accepts (by decide)
  exact not_playsOn_of_idle (by decide) hplays

end Session

end Jukebox
