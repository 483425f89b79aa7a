import Jukebox.Proofs.Player.Segments
import Jukebox.Proofs.Queue.Run

/-!
Who may skip what. A member without elevated rights is asked whether the listed tracks contain all
the member's queued ones, not whether they contain nothing else. So the tracks of others are safe
exactly where no queued one is listed, or where the question that is asked is answered by no.
-/
namespace Jukebox

namespace Session

open Operation

theorem ids_publish (session : Session) : session.publish.player.queue.ids =
    session.player.queue.ids := by
  rw [publish_player]
  exact TrackQueue.ids_refresh _

theorem current_publish (session : Session) :
    session.publish.player.current = session.player.current := by
  rw [publish_player]
  rfl

/-- A skip cuts nothing but the current track, and is never denied. -/
theorem run_skip (session : Session) :
    (skip.run session).2.player.queue.ids = session.player.queue.ids ∧
      (skip.run session).1 ≠ .error .skipDenied := by
  unfold skip
  rw [run_bind, run_ensureAlive]
  cases session.player.destroyed with
  | true => exact ⟨rfl, by simp⟩
  | false =>
    simp only [run_bind, run_change, run_ask, Bool.false_eq_true, if_false]
    refine ⟨rfl, ?_⟩
    cases (perform _ _).1 with
    | error cause => simp [Except.mapError]
    | ok => simp [Except.mapError]

theorem run_skipTracks (ids : List TrackId) (session : Session) :
    ((skipTracks ids).run session).2.player.queue.ids =
        (session.player.queue.removeAll ids false).2.ids ∧
      (session.player.isCurrentIn ids = false →
        ((skipTracks ids).run session).2.player.current = session.player.current) ∧
      ((skipTracks ids).run session).1 ≠ .error .skipDenied := by
  unfold skipTracks
  rw [run_bind, run_use]
  cases hlisted : session.player.isCurrentIn ids with
  | false =>
    have hcurrent : (session.player.removeAll ids).2.isCurrentIn ids = false := hlisted
    simp only [withPlayer, hcurrent, run_bind, run_change, run_pure, Bool.false_eq_true, if_false,
      ids_publish, current_publish]
    exact ⟨rfl, fun _ => rfl, by simp⟩
  | true =>
    have hcurrent : (session.player.removeAll ids).2.isCurrentIn ids = true := hlisted
    simp only [withPlayer, hcurrent, run_bind, if_true]
    obtain ⟨hids, hdenied⟩ := run_skip
      { session with player := (session.player.removeAll ids).2 }
    cases hrun : skip.run { session with player := (session.player.removeAll ids).2 } with
    | mk outcome after =>
      rw [hrun] at hids hdenied
      cases outcome with
      | error cause => exact ⟨hids, by simp, by simpa using hdenied⟩
      | ok => exact ⟨hids, by simp, by simp [run_pure]⟩

theorem run_skipTracksFor (user : UserId) {level : PermissionLevel}
    (hlevel : level.isElevated = false) (ids : List TrackId) (session : Session) :
    (skipTracksFor user level ids).run session =
      if session.player.maySkip user ids then (skipTracks ids).run session
      else (.error .skipDenied, session) := by
  unfold skipTracksFor
  rw [run_bind, run_get]
  cases session.player.maySkip user ids with
  | true => simp [hlevel]
  | false => simp [hlevel, run_bind, run_fail]

/-- What a member's skip of the listed tracks came to did no harm to the tracks of others. -/
structure SparesOthers (session : Session) (user : UserId) (ids : List TrackId)
    (result : Except PlayerError Nat × Session) : Prop where
  /-- It succeeded only if the member had asked for all the listed tracks. -/
  only_own : ∀ count, result.1 = .ok count →
    ∀ track ∈ session.player.held, track.id ∈ ids → track.requester = user
  removed_own : ∀ track ∈ session.player.queue.tracks,
    track.id ∉ result.2.player.queue.ids → track.requester = user
  cut_own : ∀ track, session.player.current = some track →
    result.2.player.current ≠ some track → track.requester = user
  /-- With the track of somebody else listed, it was denied and changed nothing. -/
  denied : ∀ track ∈ session.player.held, track.id ∈ ids → track.requester ≠ user →
    result = (.error .skipDenied, session)

variable {session : Session} {user : UserId} {ids : List TrackId}

theorem mem_held {track : Track} : track ∈ session.player.held ↔
    session.player.current = some track ∨ track ∈ session.player.queue.tracks := by
  simp [Player.held, Option.mem_toList]

/-- The current track is not protected only if it may be skipped. -/
theorem maySkip_iff : session.player.maySkip user ids = true ↔
    (∀ track, session.player.current = some track → track.id ∈ ids → track.requester = user) ∧
      ∀ track ∈ session.player.queue.tracks, track.requester = user → track.id ∈ ids := by
  rw [Player.maySkip, Bool.and_eq_true, TrackQueue.ownsAll, List.all_eq_true]
  refine and_congr ?_ ?_
  · rw [Option.all_eq_true]
    refine forall_congr' fun track => forall_congr' fun _ => ?_
    rw [Bool.or_eq_true, decide_eq_true_eq, decide_eq_true_eq, or_iff_not_imp_left, not_not]
  · constructor
    · intro h track hmem hown
      exact of_decide_eq_true (h track (List.mem_filter.mpr ⟨hmem, decide_eq_true hown⟩))
    · intro h track hmem
      obtain ⟨hqueued, hown⟩ := List.mem_filter.mp hmem
      exact decide_eq_true (h track hqueued (of_decide_eq_true hown))

theorem mem_of_not_kept {track : Track} (hmem : track ∈ session.player.queue.tracks)
    (hgone : track.id ∉ (session.player.queue.removeAll ids false).2.ids) : track.id ∈ ids := by
  by_contra hunlisted
  apply hgone
  rw [TrackQueue.removeAll_eq, TrackQueue.ids_dropViewsUnless]
  exact List.mem_map_of_mem (List.mem_filter.mpr ⟨hmem, decide_eq_true hunlisted⟩)

theorem sparesOthers_of_denied (result : Except PlayerError Nat × Session)
    (h : result = (.error .skipDenied, session)) : SparesOthers session user ids result := by
  subst h
  refine ⟨?_, ?_, ?_, ?_⟩
  · intro count hok
    cases hok
  · intro track hmem hgone
    exact absurd (List.mem_map_of_mem hmem) hgone
  · intro track hcurrent hcut
    exact absurd hcurrent hcut
  · intro _ _ _ _
    rfl

/-- A skip that is carried out harms nobody else if nothing of anybody else is listed. -/
theorem sparesOthers_skipTracks
    (hown : ∀ track ∈ session.player.held, track.id ∈ ids → track.requester = user) :
    SparesOthers session user ids ((skipTracks ids).run session) := by
  obtain ⟨hids, hcurrent, -⟩ := run_skipTracks ids session
  refine ⟨fun _ _ => hown, ?_, ?_, ?_⟩
  · intro track hmem hgone
    rw [hids] at hgone
    exact hown track (mem_held.mpr (.inr hmem)) (mem_of_not_kept hmem hgone)
  · intro track hplaying hcut
    have hlisted : session.player.isCurrentIn ids = true := by
      by_contra hnot
      rw [hcurrent (by simpa using hnot)] at hcut
      exact hcut hplaying
    have hid : track.id ∈ ids := by simpa [Player.isCurrentIn, hplaying] using hlisted
    exact hown track (mem_held.mpr (.inl hplaying)) hid
  · intro track hmem hlisted hforeign
    exact absurd (hown track hmem hlisted) hforeign

/-- A member without elevated rights harms nobody else exactly if all listed tracks of the queue are
the member's, or the current one is listed and somebody else's, or a queued one of the member is
not listed. -/
theorem skipTracksFor_sparesOthers_iff (session : Session) (user : UserId)
    (level : PermissionLevel) (hlevel : level.isElevated = false) (ids : List TrackId) :
    SparesOthers session user ids ((skipTracksFor user level ids).run session) ↔
      (∀ track ∈ session.player.queue.tracks, track.id ∈ ids → track.requester = user) ∨
      (∃ track, session.player.current = some track ∧ track.id ∈ ids ∧ track.requester ≠ user) ∨
      (∃ track ∈ session.player.queue.tracks, track.requester = user ∧ track.id ∉ ids) := by
  rw [run_skipTracksFor user hlevel]
  cases hmay : session.player.maySkip user ids with
  | false =>
    rw [if_neg Bool.false_ne_true]
    refine iff_of_true (sparesOthers_of_denied _ rfl) (Or.inr ?_)
    have hnot : ¬ session.player.maySkip user ids = true := by simp [hmay]
    rw [maySkip_iff, not_and_or] at hnot
    push Not at hnot
    exact hnot
  | true =>
    rw [if_pos rfl]
    obtain ⟨hcurrent, hall⟩ := maySkip_iff.mp hmay
    constructor
    · intro hspares
      left
      intro track hmem hlisted
      by_contra hforeign
      have hresult := hspares.denied track (mem_held.mpr (.inr hmem)) hlisted hforeign
      exact (run_skipTracks ids session).2.2 (congrArg Prod.fst hresult)
    · rintro (hqueued | ⟨track, hplaying, hlisted, hforeign⟩ | ⟨track, hmem, hown, hunlisted⟩)
      · refine sparesOthers_skipTracks ?_
        intro track hmem hlisted
        rcases mem_held.mp hmem with hplaying | hwaiting
        · exact hcurrent track hplaying hlisted
        · exact hqueued track hwaiting hlisted
      · exact absurd (hcurrent track hplaying hlisted) hforeign
      · exact absurd (hall track hmem hown) hunlisted

def secondUserListens : Session :=
  ((do
    enqueue (sampleTrack 1 secondUser false) .user
    enqueue (sampleTrack 2 secondUser false) .user : Operation Unit).run sampleSession).2

theorem skipTracksFor_sparesOthers_iff_secondUserListens :
    PermissionLevel.user.isElevated = false ∧
      (SparesOthers secondUserListens secondUser [⟨2⟩]
          ((skipTracksFor secondUser .user [⟨2⟩]).run secondUserListens) ↔
        (∀ track ∈ secondUserListens.player.queue.tracks,
          track.id ∈ [⟨2⟩] → track.requester = secondUser) ∨
        (∃ track, secondUserListens.player.current = some track ∧
          track.id ∈ [⟨2⟩] ∧ track.requester ≠ secondUser) ∨
        (∃ track ∈ secondUserListens.player.queue.tracks,
          track.requester = secondUser ∧ track.id ∉ [⟨2⟩])) :=
  ⟨by decide, skipTracksFor_sparesOthers_iff _ _ .user (by decide) _⟩

/-- A member without queued tracks may take a waiting track of somebody else out of the queue. -/
theorem skipTracksFor_removes_foreign_track :
    ¬ SparesOthers secondUserListens firstUser [⟨2⟩]
      ((skipTracksFor firstUser .user [⟨2⟩]).run secondUserListens) := by
  intro hspares
  have hown := hspares.removed_own (sampleTrack 2 secondUser false) (by decide) (by decide)
  exact absurd hown (by decide)

end Session

end Jukebox
