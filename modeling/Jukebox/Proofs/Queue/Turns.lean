import Jukebox.Proofs.Order.Rotation
import Jukebox.Proofs.Queue.Run

/-!
The round-robin view over a run. A view that stands is either as it was dealt, less some of its
priority tracks, or what is left of its rounds; each operation keeps this, or makes sure that the
view is dealt anew before it is used.
-/
namespace Jukebox

namespace TrackQueue

def viewStands (queue : TrackQueue) : Bool :=
  (queue.resolve? queue.roundRobinView).isSome &&
    (! queue.shuffle || (queue.resolve? queue.shuffleView).isSome)

theorem shuffledIfOn_of_viewStands {queue : TrackQueue} (h : queue.viewStands = true) :
    queue.shuffledIfOn = queue := by
  unfold shuffledIfOn
  split
  · next hshuffle =>
    simp only [viewStands, hshuffle, Bool.not_true, Bool.false_or, Bool.and_eq_true] at h
    obtain ⟨positions, hpositions⟩ := Option.isSome_iff_exists.mp h.2
    exact withShuffleView_of_resolve hpositions
  · rfl

/-- A view that does not stand does not fit, or it is dropped with the shuffled one. -/
theorem resolve?_of_not_viewStands {queue : TrackQueue} (h : queue.viewStands = false) :
    queue.shuffledIfOn.resolve? queue.shuffledIfOn.roundRobinView = none := by
  unfold shuffledIfOn
  split
  · next hshuffle =>
    unfold withShuffleView
    split
    · next positions hpositions =>
      simp only [viewStands, hshuffle, hpositions, Option.isSome_some, Bool.not_true,
        Bool.false_or, Bool.and_true] at h
      exact Option.isSome_eq_false_iff.mp h |> Option.isNone_iff_eq_none.mp
    · rfl
  · next hshuffle =>
    simp only [viewStands, Bool.not_eq_true] at h hshuffle
    simp only [hshuffle, Bool.not_false, Bool.true_or, Bool.and_true] at h
    exact Option.isSome_eq_false_iff.mp h |> Option.isNone_iff_eq_none.mp

/-- Under round robin, a look keeps a view that stands and else deals a new one. -/
theorem refresh_of_roundRobin {queue : TrackQueue} (hon : queue.roundRobin = true) :
    queue.refresh = if queue.viewStands then queue else queue.shuffledIfOn.redealt := by
  rw [refresh, if_pos hon, withRoundRobinView_eq]
  cases hstands : queue.viewStands with
  | true =>
    rw [shuffledIfOn_of_viewStands hstands]
    simp only [viewStands, Bool.and_eq_true] at hstands
    rw [if_pos hstands.1]
    rfl
  | false =>
    rw [resolve?_of_not_viewStands hstands]
    rfl

theorem viewStands_redealt (queue : TrackQueue) :
    queue.shuffledIfOn.redealt.viewStands = true := by
  obtain ⟨positions, hpositions⟩ := resolve?_redealt queue.shuffledIfOn
  rw [viewStands, hpositions]
  cases hshuffle : queue.shuffle with
  | false =>
    have hoff : queue.shuffledIfOn.redealt.shuffle = false :=
      queue.shuffledIfOn_settings.shuffle.trans hshuffle
    rw [hoff]
    rfl
  | true =>
    obtain ⟨drawn, hdrawn⟩ := queue.resolve?_withShuffleView
    have heq : queue.shuffledIfOn = queue.withShuffleView := by
      rw [shuffledIfOn, if_pos hshuffle]
    have hfits : queue.shuffledIfOn.redealt.resolve? queue.shuffledIfOn.redealt.shuffleView =
        some drawn := by
      rw [heq]
      exact hdrawn
    rw [hfits]
    simp

theorem viewStands_refresh {queue : TrackQueue} (hon : queue.roundRobin = true) :
    queue.refresh.viewStands = true := by
  rw [refresh_of_roundRobin hon]
  split
  · next hstands => exact hstands
  · exact viewStands_redealt queue

theorem view_of_viewStands {queue : TrackQueue} (h : queue.viewStands = true) :
    ∃ view positions, queue.roundRobinView = some view ∧ queue.positions? view = some positions ∧
      queue.resolve? queue.roundRobinView = some positions := by
  simp only [viewStands, Bool.and_eq_true] at h
  obtain ⟨positions, hpositions⟩ := Option.isSome_iff_exists.mp h.1
  obtain ⟨view, hview, hfits⟩ := Option.bind_eq_some_iff.mp hpositions
  exact ⟨view, positions, hview, hfits, hpositions⟩

/-- A view that stands is an order of the whole queue. -/
theorem view_perm {queue : TrackQueue} (h : queue.Coherent) (hstands : queue.viewStands = true) :
    ∃ view, queue.roundRobinView = some view ∧ view.Perm queue.ids := by
  obtain ⟨view, positions, hview, hfits, _⟩ := view_of_viewStands hstands
  exact ⟨view, hview, perm_of_positions? (h.dealt_part view hview) hfits⟩

/-- No view stands that is shorter than the queue. -/
theorem not_viewStands_of_short {queue : TrackQueue}
    (h : ∀ view, queue.roundRobinView = some view → view.length < queue.size) :
    queue.viewStands = false := by
  cases hview : queue.roundRobinView with
  | none => simp [viewStands, resolve?, hview]
  | some view =>
    have hshort := h view hview
    have hnone : queue.positions? view = none := if_neg (by omega)
    simp [viewStands, resolve?, hview, hnone]

theorem not_viewStands_of_dropped {queue : TrackQueue} (h : queue.roundRobinView = none) :
    queue.viewStands = false :=
  not_viewStands_of_short fun view hview => by rw [h] at hview; cases hview

theorem size_of_ids_perm {queue other : TrackQueue} {added : List TrackId}
    (h : other.ids.Perm (added ++ queue.ids)) : other.size = added.length + queue.size := by
  have hlength := h.length_eq
  rwa [length_ids, List.length_append, length_ids] at hlength

theorem not_viewStands_of_grown {queue other : TrackQueue} (h : queue.Contained)
    (hview : other.roundRobinView = queue.roundRobinView) {added : List TrackId}
    (hids : other.ids.Perm (added ++ queue.ids)) (hne : added ≠ []) : other.viewStands = false := by
  apply not_viewStands_of_short
  intro view heq
  have hpart := (h.dealt_part view (hview ▸ heq)).length_le
  have hpos := List.length_pos_iff.mpr hne
  rw [length_ids] at hpart
  rw [size_of_ids_perm hids]
  omega

/-- No view stands after tracks were added, silently or not. -/
theorem not_viewStands_add {queue : TrackQueue} (h : queue.Contained) (track : Track)
    (silent : Bool) : (queue.add track silent).viewStands = false := by
  cases silent with
  | false => exact not_viewStands_of_dropped rfl
  | true =>
    have hids : (queue.add track true).ids.Perm ([track.id] ++ queue.ids) :=
      ids_add_perm queue track true
    exact not_viewStands_of_grown h rfl hids (List.cons_ne_nil _ _)

theorem addAll_nil (queue : TrackQueue) : queue.addAll [] true = queue := by
  simp [addAll, dropViewsUnless]

theorem not_viewStands_addAll {queue : TrackQueue} (h : queue.Contained) {tracks : List Track}
    (hne : tracks ≠ []) : (queue.addAll tracks true).viewStands = false :=
  not_viewStands_of_grown h rfl (ids_addAll_perm queue tracks true)
    (mt List.map_eq_nil_iff.mp hne)

/-- The next track under round robin is the first of a view that stands. -/
theorem view_of_nextPosition? {queue : TrackQueue} (hon : queue.roundRobin = true)
    (hstands : queue.viewStands = true) {position : Nat} {track : Track}
    (hnext : queue.nextPosition? = some position)
    (htrack : queue.tracks[position]? = some track) :
    ∃ rest, queue.roundRobinView = some (track.id :: rest) := by
  obtain ⟨view, positions, hview, hfits, hpositions⟩ := view_of_viewStands hstands
  rw [nextPosition?, activePositions, if_pos hon, hpositions, Option.getD_some,
    List.head?_eq_some_iff] at hnext
  obtain ⟨later, rfl⟩ := hnext
  have hids := (positions?_eq_some hfits).2.2
  have hfirst : queue.tracksAt (position :: later) = track :: queue.tracksAt later := by
    simp only [tracksAt, List.filterMap_cons, htrack]
  rw [hfirst, List.map_cons] at hids
  exact ⟨_, hids ▸ hview⟩

/-! ### The queue without one track -/

theorem eraseIdx_eq_filter {queue : TrackQueue} (hids : queue.ids.Nodup) {position : Nat}
    {track : Track} (h : queue.tracks[position]? = some track) :
    queue.tracks.eraseIdx position = queue.tracks.filter (·.id ≠ track.id) := by
  obtain ⟨hlt, hget⟩ := List.getElem?_eq_some_iff.mp h
  have hsplit : queue.tracks =
      queue.tracks.take position ++ track :: queue.tracks.drop (position + 1) := by
    rw [← hget, List.getElem_cons_drop, List.take_append_drop]
  have hnodup := hids
  rw [ids, hsplit, List.map_append, List.map_cons] at hnodup
  have hmiddle := (List.perm_middle.nodup_iff.mp hnodup)
  have hnotin := (List.nodup_cons.mp hmiddle).1
  have hother : ∀ other ∈ queue.tracks.take position ++ queue.tracks.drop (position + 1),
      other.id ≠ track.id := by
    intro other hmem heq
    rw [← List.map_append] at hnotin
    exact hnotin (heq ▸ List.mem_map_of_mem hmem)
  have hkept : (queue.tracks.take position ++ queue.tracks.drop (position + 1)).filter
      (·.id ≠ track.id) = queue.tracks.take position ++ queue.tracks.drop (position + 1) := by
    rw [List.filter_eq_self]
    intro other hmem
    simpa using hother other hmem
  rw [List.eraseIdx_eq_take_drop_succ]
  conv_rhs => rw [hsplit, List.filter_append, List.filter_cons_of_neg (by simp)]
  rw [← List.filter_append, hkept]

theorem map_id_filter_ne (tracks : List Track) (id : TrackId) :
    (tracks.filter (·.id ≠ id)).map (·.id) = (tracks.map (·.id)).filter (· ≠ id) := by
  rw [List.filter_map]
  rfl

theorem map_id_dealingTracks {queue : TrackQueue} (hshuffle : queue.shuffle = true)
    (hstands : queue.viewStands = true) :
    ∃ view, queue.shuffleView = some view ∧ queue.dealingTracks.map (·.id) = view := by
  simp only [viewStands, hshuffle, Bool.not_true, Bool.false_or, Bool.and_eq_true] at hstands
  obtain ⟨positions, hpositions⟩ := Option.isSome_iff_exists.mp hstands.2
  obtain ⟨view, hview, hfits⟩ := Option.bind_eq_some_iff.mp hpositions
  refine ⟨view, hview, ?_⟩
  rw [dealingTracks, dealingPositions, if_pos hshuffle, hpositions, Option.getD_some]
  exact (positions?_eq_some hfits).2.2

theorem dealingTracks_of_plain {queue : TrackQueue} (hshuffle : queue.shuffle = false) :
    queue.dealingTracks = queue.tracks := by
  rw [dealingTracks, dealingPositions, hshuffle]
  exact tracksAt_basePositions queue

/-- As long as the view stands, a take strikes its track from the dealing order. -/
theorem dealingTracks_takeAt {queue : TrackQueue} (h : queue.Coherent)
    (hstands : queue.viewStands = true) (hmode : queue.repeatMode ≠ .all) {position : Nat}
    {track : Track} (htrack : queue.tracks[position]? = some track)
    (hstill : (queue.takeAt position track).2.viewStands = true) :
    (queue.takeAt position track).2.dealingTracks =
      queue.dealingTracks.filter (·.id ≠ track.id) := by
  have hleft : (queue.takeAt position track).2.tracks =
      queue.tracks.filter (·.id ≠ track.id) := by
    rw [takeAt_once hmode]
    exact eraseIdx_eq_filter h.ids_nodup htrack
  have hsettings : (queue.takeAt position track).2.shuffle = queue.shuffle := by
    rw [takeAt_once hmode]
  cases hshuffle : queue.shuffle with
  | false =>
    rw [dealingTracks_of_plain (hsettings.trans hshuffle), dealingTracks_of_plain hshuffle, hleft]
  | true =>
    obtain ⟨view, hview, hids⟩ := map_id_dealingTracks hshuffle hstands
    obtain ⟨later, hlater, hleftIds⟩ :=
      map_id_dealingTracks (hsettings.trans hshuffle) hstill
    have hfiltered : later = view.filter (· ≠ track.id) := by
      rw [(takeAt_views queue position track).1, hview, Option.map_some] at hlater
      exact (Option.some.inj hlater).symm
    refine eq_of_map_id_eq (coherent_takeAt h htrack).ids_nodup (tracksAt_subset _ _) ?_ ?_
    · intro other hmem
      obtain ⟨hdealt, hne⟩ := List.mem_filter.mp hmem
      rw [hleft]
      exact List.mem_filter.mpr ⟨tracksAt_subset _ _ hdealt, hne⟩
    · rw [hleftIds, hfiltered, map_id_filter_ne, hids]

end TrackQueue

end Jukebox
