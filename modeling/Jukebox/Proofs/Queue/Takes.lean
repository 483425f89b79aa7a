import Jukebox.Proofs.Queue.Run

/-!
What a take gives and leaves. A track that is taken, put back, demoted or given a new key is still
what somebody asked for, so a take gives nothing that the queue did not hold; and it gives a track
as long as there is one.
-/
namespace Jukebox

namespace Track

/-- The track as it was asked for, without its place among the others. -/
def wish (track : Track) : Track :=
  { track with isPriority := false, sortKey := prioritySortKey, resumeAt := none }

@[simp] theorem wish_fromStart (track : Track) : track.fromStart.wish = track.wish := rfl

@[simp] theorem wish_demote (track : Track) (dice : Dice) :
    (track.demote dice).1.wish = track.wish := by
  unfold demote
  split <;> rfl

theorem demote_resumeAt (track : Track) (dice : Dice) :
    (track.demote dice).1.resumeAt = track.resumeAt := by
  unfold demote
  split <;> rfl

end Track

namespace TrackQueue

theorem sticky?_of_not_single {queue : TrackQueue} (h : queue.repeatMode ≠ .single) :
    queue.sticky? = none := if_neg h

/-- Fitting the views changes no track, but for its place among the others. -/
theorem exists_of_mem_refresh {queue : TrackQueue} {track : Track}
    (h : track ∈ queue.refresh.tracks) :
    ∃ old ∈ queue.tracks, track.wish = old.wish ∧ track.resumeAt = old.resumeAt := by
  have hsame : (track.wish, track.resumeAt) ∈
      queue.tracks.map fun track => (track.wish, track.resumeAt) := by
    rw [← refresh_map _ (fun _ _ => rfl) queue]
    exact List.mem_map_of_mem h
  obtain ⟨old, hold, heq⟩ := List.mem_map.mp hsame
  obtain ⟨hwish, hresume⟩ := Prod.mk.inj heq
  exact ⟨old, hold, hwish.symm, hresume.symm⟩

/-- A take gives the track as it was asked for, leaves the others, and keeps the track for a later
play only from its start. -/
theorem takeAt_leaves (queue : TrackQueue) (position : Nat) (track : Track) :
    (queue.takeAt position track).1.wish = track.wish ∧
      (queue.takeAt position track).1.resumeAt = track.resumeAt ∧
      (queue.takeAt position track).2.tracks ⊆
        queue.tracks.eraseIdx position ++ [(queue.takeAt position track).1.fromStart] ∧
      (queue.takeAt position track).2.lastTaken =
        some (queue.takeAt position track).1.fromStart := by
  by_cases hmode : queue.repeatMode = .all
  · rw [takeAt_all hmode]
    exact ⟨track.wish_demote queue.dice, track.demote_resumeAt queue.dice, List.Subset.refl _, rfl⟩
  · rw [takeAt_once hmode]
    exact ⟨rfl, rfl, List.subset_append_left _ _, rfl⟩

/-- No id waits more often after a take. -/
theorem count_takeAt_le (queue : TrackQueue) {position : Nat} {track : Track}
    (h : queue.tracks[position]? = some track) (id : TrackId) :
    (queue.takeAt position track).2.ids.count id ≤ queue.ids.count id := by
  by_cases hmode : queue.repeatMode = .all
  · exact Nat.le_of_eq ((ids_takeAt_all_perm h hmode).count_eq id).symm
  · rw [(ids_takeAt_perm h hmode).count_eq id]
    exact List.count_le_count_cons

theorem wishes_takeAt {queue : TrackQueue} {position : Nat} {track : Track}
    (h : queue.tracks[position]? = some track) :
    ((queue.takeAt position track).1 :: (queue.takeAt position track).2.tracks).map Track.wish ⊆
      queue.tracks.map Track.wish := by
  obtain ⟨hwish, -, hleft, -⟩ := queue.takeAt_leaves position track
  have hgiven : (queue.takeAt position track).1.wish ∈ queue.tracks.map Track.wish :=
    hwish ▸ List.mem_map_of_mem (List.mem_of_getElem? h)
  intro wish hmem
  obtain ⟨other, hother, rfl⟩ := List.mem_map.mp hmem
  rcases List.mem_cons.mp hother with rfl | hlater
  · exact hgiven
  · rcases List.mem_append.mp (hleft hlater) with hold | hback
    · exact List.mem_map_of_mem (List.mem_of_mem_eraseIdx hold)
    · rw [List.mem_singleton.mp hback, Track.wish_fromStart]
      exact hgiven

/-- A take that is not bound to the last track gives a track of the queue. -/
theorem wishes_take {queue : TrackQueue} (h : queue.repeatMode ≠ .single) :
    (queue.take.1.toList ++ queue.take.2.tracks).map Track.wish ⊆ queue.tracks.map Track.wish := by
  have hrefresh := refresh_map Track.wish (fun _ _ => rfl) queue
  rcases take_cases queue with ⟨track, hsticky, -⟩ | ⟨-, heq⟩ | ⟨-, position, track, -, hfound, heq⟩
  · rw [sticky?_of_not_single h] at hsticky
    cases hsticky
  · rw [heq, ← hrefresh]
    exact List.Subset.refl _
  · rw [heq, ← hrefresh]
    exact wishes_takeAt hfound

/-- A take leaves the settings alone. -/
theorem take_modes (queue : TrackQueue) : queue.take.2.repeatMode = queue.repeatMode ∧
    queue.take.2.shuffle = queue.shuffle ∧ queue.take.2.roundRobin = queue.roundRobin := by
  have hrefresh := refresh_settings queue
  rcases take_cases queue with ⟨track, -, heq⟩ | ⟨-, heq⟩ | ⟨-, position, track, -, -, heq⟩
  · rw [heq]
    exact ⟨rfl, rfl, rfl⟩
  · rw [heq]
    exact ⟨hrefresh.repeatMode, hrefresh.shuffle, hrefresh.roundRobin⟩
  · rw [heq, ← hrefresh.repeatMode, ← hrefresh.shuffle, ← hrefresh.roundRobin]
    by_cases hmode : queue.refresh.repeatMode = .all
    · rw [takeAt_all hmode]
      exact ⟨rfl, rfl, rfl⟩
    · rw [takeAt_once hmode]
      exact ⟨rfl, rfl, rfl⟩

/-- A queue that is not empty has a next track. -/
theorem exists_next {queue : TrackQueue} (h : queue.tracks ≠ []) :
    ∃ position track, queue.nextPosition? = some position ∧
      queue.tracks[position]? = some track := by
  have hlength := length_tracksAt_activePositions queue
  have hsize := length_activePositions queue
  have hpos : 0 < queue.size := List.length_pos_iff.mpr h
  unfold nextPosition?
  cases hpositions : queue.activePositions with
  | nil =>
    rw [hpositions] at hsize
    exact absurd hsize.symm (Nat.ne_of_gt hpos)
  | cons position rest =>
    rw [hpositions] at hlength hsize
    cases htrack : queue.tracks[position]? with
    | some track => exact ⟨position, track, rfl, htrack⟩
    | none =>
      have hfew := List.length_filterMap_le (queue.tracks[·]?) rest
      rw [List.length_cons] at hsize
      simp only [tracksAt, List.filterMap_cons, htrack] at hlength
      omega

/-- A take that is not bound to the last track takes out a track, if there is one. -/
theorem take_of_ne_nil {queue : TrackQueue} (hsticky : queue.sticky? = none)
    (h : queue.tracks ≠ []) : ∃ position track, queue.refresh.nextPosition? = some position ∧
      queue.refresh.tracks[position]? = some track ∧
      queue.take = (some (queue.refresh.takeAt position track).1,
        (queue.refresh.takeAt position track).2) := by
  have hrefresh : queue.refresh.tracks ≠ [] := by
    have hsize : queue.refresh.tracks.length = queue.tracks.length := size_refresh queue
    rw [← List.length_pos_iff] at h ⊢
    rwa [hsize]
  obtain ⟨position, track, hnext, htrack⟩ := exists_next hrefresh
  exact ⟨position, track, hnext, htrack, by simp only [take, hsticky, hnext, htrack]⟩

/-- A take that gives nothing does no more than bring the views up to date. -/
theorem take_of_none {queue : TrackQueue} (h : queue.take.1 = none) :
    queue.take.2 = queue.refresh := by
  rcases take_cases queue with ⟨_, _, heq⟩ | ⟨_, heq⟩ | ⟨_, _, _, _, _, heq⟩
  · rw [heq] at h
    cases h
  · rw [heq]
  · rw [heq] at h
    cases h

/-- A take that is not bound to the last track gives a track only if there is one. -/
theorem ne_nil_of_take {queue : TrackQueue} (hsticky : queue.sticky? = none) {track : Track}
    (h : queue.take.1 = some track) : queue.tracks ≠ [] := by
  obtain ⟨position, found, -, hfound, -⟩ := exists_takeAt_of_take hsticky h
  have hpos : 0 < queue.refresh.size := List.length_pos_of_mem (List.mem_of_getElem? hfound)
  rw [size_refresh] at hpos
  exact List.ne_nil_of_length_pos hpos

/-- Outside repeat all, a take moves a track out of the queue. -/
theorem take_once {queue : TrackQueue} (hmode : queue.repeatMode ≠ .all)
    (hsticky : queue.sticky? = none) (h : queue.tracks ≠ []) :
    ∃ track, queue.take.1 = some track ∧
      queue.refresh.tracks.Perm (track :: queue.take.2.tracks) := by
  obtain ⟨position, track, -, htrack, htake⟩ := take_of_ne_nil hsticky h
  have honce := takeAt_once ((refresh_settings queue).repeatMode ▸ hmode) position track
  obtain ⟨hlt, hget⟩ := List.getElem?_eq_some_iff.mp htrack
  have hperm := List.getElem_cons_eraseIdx_perm hlt
  rw [hget] at hperm
  rw [htake, honce]
  exact ⟨track, rfl, hperm.symm⟩

/-- In plain order, a take takes out the first track. -/
theorem take_plain {queue : TrackQueue} (hshuffle : queue.shuffle = false)
    (hrotation : queue.roundRobin = false) (hsticky : queue.sticky? = none) {head : Track}
    {rest : List Track} (h : queue.tracks = head :: rest) :
    queue.take = (some (queue.takeAt 0 head).1, (queue.takeAt 0 head).2) := by
  have hrefresh : queue.refresh = queue := by simp [refresh, hshuffle, hrotation]
  have hfirst : queue.nextPosition? = some 0 := by
    simp [nextPosition?, activePositions, basePositions, size, hshuffle, hrotation, h,
      List.range_succ_eq_map]
  obtain ⟨position, track, hnext, htrack, htake⟩ := take_of_ne_nil hsticky (by simp [h])
  rw [hrefresh] at hnext htrack htake
  obtain rfl : 0 = position := Option.some.inj (hfirst.symm.trans hnext)
  obtain rfl : head = track := by simpa [h] using htrack
  exact htake

/-- Under repeat all, it moves that track to the end. -/
theorem take_in_order {queue : TrackQueue} (hmode : queue.repeatMode = .all)
    (hshuffle : queue.shuffle = false) (hrotation : queue.roundRobin = false) {head : Track}
    {rest : List Track} (h : queue.tracks = head :: rest) :
    ∃ track, queue.take.1 = some track ∧ track.wish = head.wish ∧
      queue.take.2.tracks = rest ++ [track.fromStart] := by
  have hsticky : queue.sticky? = none := sticky?_of_not_single (by simp [hmode])
  rw [take_plain hshuffle hrotation hsticky h, takeAt_all hmode]
  exact ⟨_, rfl, head.wish_demote queue.dice, by simp [h]⟩

theorem sticky?_skipped (queue : TrackQueue) : queue.skipped.sticky? = none := by
  unfold sticky? skipped
  split <;> rfl

end TrackQueue

end Jukebox
