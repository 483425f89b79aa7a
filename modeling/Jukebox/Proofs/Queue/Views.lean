import Jukebox.Proofs.Order.Deal
import Jukebox.Proofs.Order.Draw
import Jukebox.Queue.Basic

/-!
What the stored views of a queue stand for. A queue is coherent if no id is queued twice and each
stored view is a part of the queue; then a view that has the right length is an order of the whole
queue, and bringing the views up to date changes no more than keys.
-/
namespace Jukebox.TrackQueue

def tracksAt (queue : TrackQueue) (positions : List Nat) : List Track :=
  positions.filterMap (queue.tracks[·]?)

/-! ### Resolving a view -/

theorem lastPosition?_eq_none {id : TrackId} {ids : List TrackId} (h : id ∉ ids) :
    lastPosition? id ids = none := by
  induction ids with
  | nil => rfl
  | cons head rest ih =>
    obtain ⟨hhead, hrest⟩ := not_or.mp (fun hor => h (List.mem_cons.mpr hor))
    simp only [lastPosition?, ih hrest]
    exact if_neg (Ne.symm hhead)

theorem lastPosition?_isSome {id : TrackId} {ids : List TrackId} (h : id ∈ ids) :
    ∃ position, lastPosition? id ids = some position := by
  induction ids with
  | nil => cases h
  | cons head rest ih =>
    by_cases hrest : id ∈ rest
    · obtain ⟨position, hposition⟩ := ih hrest
      exact ⟨position + 1, by simp only [lastPosition?, hposition]⟩
    · have hhead : head = id := by
        rcases List.mem_cons.mp h with heq | hmem
        · exact heq.symm
        · exact absurd hmem hrest
      exact ⟨0, by simp only [lastPosition?, lastPosition?_eq_none hrest, hhead, if_true]⟩

theorem getElem?_lastPosition? {id : TrackId} {ids : List TrackId} {position : Nat}
    (h : lastPosition? id ids = some position) : ids[position]? = some id := by
  induction ids generalizing position with
  | nil => cases h
  | cons head rest ih =>
    simp only [lastPosition?] at h
    split at h
    · next later hlater =>
      cases h
      exact ih hlater
    · next hnone =>
      split at h
      · next heq =>
        cases h
        simp [heq]
      · cases h

theorem map_id_tracksAt {queue : TrackQueue} {view : List TrackId} {positions : List Nat}
    (h : view.mapM (lastPosition? · queue.ids) = some positions) :
    (queue.tracksAt positions).map (·.id) = view ∧ positions.length = view.length := by
  induction view generalizing positions with
  | nil =>
    cases h
    exact ⟨rfl, rfl⟩
  | cons id rest ih =>
    simp only [List.mapM_cons, Option.pure_def, Option.bind_eq_bind,
      Option.bind_eq_some_iff] at h
    obtain ⟨position, hposition, later, hlater, heq⟩ := h
    cases heq
    obtain ⟨hids, hlength⟩ := ih hlater
    have hid : (queue.tracks.map (·.id))[position]? = some id := getElem?_lastPosition? hposition
    rw [List.getElem?_map, Option.map_eq_some_iff] at hid
    obtain ⟨track, htrack, heq⟩ := hid
    have hcons : queue.tracksAt (position :: later) = track :: queue.tracksAt later := by
      simp only [tracksAt, List.filterMap_cons, htrack]
    rw [hcons, List.map_cons, hids, heq]
    exact ⟨rfl, by rw [List.length_cons, List.length_cons, hlength]⟩

theorem positions?_eq_some {queue : TrackQueue} {view : List TrackId} {positions : List Nat}
    (h : queue.positions? view = some positions) :
    view.length = queue.size ∧ positions.length = queue.size ∧
      (queue.tracksAt positions).map (·.id) = view := by
  unfold positions? at h
  split at h
  · next hlength =>
    obtain ⟨hids, heq⟩ := map_id_tracksAt h
    exact ⟨hlength, heq.trans hlength, hids⟩
  · cases h

theorem exists_mapM_lastPosition? {ids view : List TrackId} (h : view ⊆ ids) :
    ∃ positions, view.mapM (lastPosition? · ids) = some positions := by
  induction view with
  | nil => exact ⟨[], rfl⟩
  | cons id rest ih =>
    obtain ⟨later, hlater⟩ := ih (List.subset_of_cons_subset h)
    obtain ⟨position, hposition⟩ := lastPosition?_isSome (h (List.mem_cons_self ..))
    exact ⟨position :: later, by simp [List.mapM_cons, hposition, hlater]⟩

theorem exists_positions? {queue : TrackQueue} {view : List TrackId}
    (hlength : view.length = queue.size) (hsubset : view ⊆ queue.ids) :
    ∃ positions, queue.positions? view = some positions := by
  obtain ⟨positions, hpositions⟩ := exists_mapM_lastPosition? hsubset
  exact ⟨positions, by rw [positions?, if_pos hlength, hpositions]⟩

theorem tracksAt_subset (queue : TrackQueue) (positions : List Nat) :
    queue.tracksAt positions ⊆ queue.tracks := by
  intro track hmem
  obtain ⟨position, _, htrack⟩ := List.mem_filterMap.mp hmem
  exact List.mem_of_getElem? htrack

theorem length_ids (queue : TrackQueue) : queue.ids.length = queue.size :=
  List.length_map _

theorem filterMap_getElem?_range {α : Type} (list : List α) :
    (List.range list.length).filterMap (list[·]?) = list := by
  induction list with
  | nil => rfl
  | cons head rest ih =>
    rw [List.length_cons, List.range_succ_eq_map, List.filterMap_cons, List.filterMap_map]
    exact congrArg (head :: ·) ih

theorem tracksAt_basePositions (queue : TrackQueue) :
    queue.tracksAt queue.basePositions = queue.tracks :=
  filterMap_getElem?_range queue.tracks

/-! ### Coherent queues -/

structure Contained (queue : TrackQueue) : Prop where
  shuffled_part : ∀ view, queue.shuffleView = some view → view.Subperm queue.ids
  dealt_part : ∀ view, queue.roundRobinView = some view → view.Subperm queue.ids

/-- No id is queued twice and each stored view is a part of the queue. -/
structure Coherent (queue : TrackQueue) : Prop where
  ids_nodup : queue.ids.Nodup
  shuffled_part : ∀ view, queue.shuffleView = some view → view.Subperm queue.ids
  dealt_part : ∀ view, queue.roundRobinView = some view → view.Subperm queue.ids

theorem Coherent.contained {queue : TrackQueue} (h : queue.Coherent) : queue.Contained :=
  ⟨h.shuffled_part, h.dealt_part⟩

theorem Contained.coherent {queue : TrackQueue} (h : queue.Contained) (hids : queue.ids.Nodup) :
    queue.Coherent :=
  ⟨hids, h.shuffled_part, h.dealt_part⟩

theorem contained_empty (dice : Dice) : (empty dice).Contained :=
  ⟨nofun, nofun⟩

theorem coherent_empty (dice : Dice) : (empty dice).Coherent :=
  (contained_empty dice).coherent List.nodup_nil

/-- A view that fits has every id of the queue. -/
theorem perm_of_positions? {queue : TrackQueue} {view : List TrackId}
    (hpart : view.Subperm queue.ids) {positions : List Nat}
    (h : queue.positions? view = some positions) : view.Perm queue.ids :=
  hpart.perm_of_length_le (Nat.le_of_eq (by rw [length_ids, (positions?_eq_some h).1]))

/-- A part of the queue that is as long as the queue stands for all of it. -/
theorem tracksAt_positions_perm {queue : TrackQueue} (hids : queue.ids.Nodup)
    {view : List TrackId} (hpart : view.Subperm queue.ids) {positions : List Nat}
    (h : queue.positions? view = some positions) :
    (queue.tracksAt positions).Perm queue.tracks := by
  obtain ⟨hlength, _, hview⟩ := positions?_eq_some h
  have hperm := perm_of_positions? hpart h
  have hnodup : (queue.tracksAt positions).Nodup := by
    apply List.Nodup.of_map (·.id)
    rw [hview]
    exact hperm.nodup_iff.mpr hids
  have hsub := List.subperm_of_subset hnodup (queue.tracksAt_subset positions)
  apply hsub.perm_of_length_le
  have hcount := congrArg List.length hview
  rw [List.length_map, hlength] at hcount
  exact Nat.le_of_eq hcount.symm

/-- Tracks of the queue are determined by their ids. -/
theorem eq_of_map_id_eq {queue : TrackQueue} (hids : queue.ids.Nodup) {left right : List Track}
    (hleft : left ⊆ queue.tracks) (hright : right ⊆ queue.tracks)
    (h : left.map (·.id) = right.map (·.id)) : left = right := by
  induction left generalizing right with
  | nil =>
    rw [List.map_nil, eq_comm, List.map_eq_nil_iff] at h
    exact h.symm
  | cons first rest ih =>
    cases right with
    | nil => cases h
    | cons other others =>
      obtain ⟨hhead, htail⟩ := List.cons.inj h
      have hfirst : first = other :=
        List.inj_on_of_nodup_map hids (hleft (List.mem_cons_self ..))
          (hright (List.mem_cons_self ..)) hhead
      rw [hfirst, ih (List.subset_of_cons_subset hleft) (List.subset_of_cons_subset hright) htail]

/-- What a stored view stands for, or the base order if it does not fit. -/
theorem tracksAt_resolve?_perm {queue : TrackQueue} (hids : queue.ids.Nodup)
    {stored : Option (List TrackId)}
    (hpart : ∀ view, stored = some view → view.Subperm queue.ids) :
    (queue.tracksAt ((queue.resolve? stored).getD queue.basePositions)).Perm queue.tracks := by
  cases h : queue.resolve? stored with
  | none =>
    rw [Option.getD_none, tracksAt_basePositions]
  | some positions =>
    obtain ⟨view, hview, hpositions⟩ := Option.bind_eq_some_iff.mp h
    exact tracksAt_positions_perm hids (hpart view hview) hpositions

theorem length_resolve? {queue : TrackQueue} (stored : Option (List TrackId)) :
    ((queue.resolve? stored).getD queue.basePositions).length = queue.size := by
  cases h : queue.resolve? stored with
  | none => exact List.length_range
  | some positions =>
    obtain ⟨view, _, hpositions⟩ := Option.bind_eq_some_iff.mp h
    exact (positions?_eq_some hpositions).2.1

/-- Every position that is resolved is one of a track. -/
theorem length_tracksAt_resolve? (queue : TrackQueue) (stored : Option (List TrackId)) :
    (queue.tracksAt ((queue.resolve? stored).getD queue.basePositions)).length = queue.size := by
  cases hresolve : queue.resolve? stored with
  | none =>
    rw [Option.getD_none, tracksAt_basePositions]
    rfl
  | some positions =>
    obtain ⟨view, -, hpositions⟩ := Option.bind_eq_some_iff.mp hresolve
    obtain ⟨hlength, -, hids⟩ := positions?_eq_some hpositions
    rw [Option.getD_some, ← hlength, ← hids, List.length_map]

theorem map_id_tracksAt_resolve?_part {queue : TrackQueue} {stored : Option (List TrackId)}
    (hpart : ∀ view, stored = some view → view.Subperm queue.ids) :
    ((queue.tracksAt ((queue.resolve? stored).getD queue.basePositions)).map (·.id)).Subperm
      queue.ids := by
  cases hresolve : queue.resolve? stored with
  | none =>
    rw [Option.getD_none, tracksAt_basePositions]
    exact List.Subperm.refl _
  | some positions =>
    obtain ⟨view, hview, hpositions⟩ := Option.bind_eq_some_iff.mp hresolve
    rw [Option.getD_some, (positions?_eq_some hpositions).2.2]
    exact hpart view hview

theorem length_tracksAt_activePositions (queue : TrackQueue) :
    (queue.tracksAt queue.activePositions).length = queue.size := by
  unfold activePositions
  split
  · exact length_tracksAt_resolve? queue _
  · split
    · exact length_tracksAt_resolve? queue _
    · exact length_tracksAt_resolve? queue none

theorem tracksAt_activePositions_perm {queue : TrackQueue} (h : queue.Coherent) :
    (queue.tracksAt queue.activePositions).Perm queue.tracks := by
  unfold activePositions
  split
  · exact tracksAt_resolve?_perm h.ids_nodup h.dealt_part
  · split
    · exact tracksAt_resolve?_perm h.ids_nodup h.shuffled_part
    · rw [tracksAt_basePositions]

theorem length_activePositions (queue : TrackQueue) :
    queue.activePositions.length = queue.size := by
  unfold activePositions
  split
  · exact length_resolve? _
  · split
    · exact length_resolve? _
    · exact List.length_range

theorem tracksAt_dealingPositions_perm {queue : TrackQueue} (h : queue.Coherent) :
    (queue.tracksAt queue.dealingPositions).Perm queue.tracks := by
  unfold dealingPositions
  split
  · exact tracksAt_resolve?_perm h.ids_nodup h.shuffled_part
  · rw [tracksAt_basePositions]

/-! ### Bringing the views up to date -/

/-- A queue with another one's settings and memory; only tracks, views and dice may differ. -/
structure SameSettings (queue other : TrackQueue) : Prop where
  shuffle : queue.shuffle = other.shuffle
  roundRobin : queue.roundRobin = other.roundRobin
  repeatMode : queue.repeatMode = other.repeatMode
  lastTaken : queue.lastTaken = other.lastTaken
  anchor : queue.anchor = other.anchor

theorem SameSettings.rfl {queue : TrackQueue} : queue.SameSettings queue :=
  ⟨Eq.refl _, Eq.refl _, Eq.refl _, Eq.refl _, Eq.refl _⟩

theorem withShuffleView_of_resolve {queue : TrackQueue} {positions : List Nat}
    (h : queue.resolve? queue.shuffleView = some positions) : queue.withShuffleView = queue := by
  simp only [withShuffleView, h]

theorem withShuffleView_settings (queue : TrackQueue) :
    queue.withShuffleView.SameSettings queue := by
  unfold withShuffleView
  split
  · exact SameSettings.rfl
  · exact ⟨rfl, rfl, rfl, rfl, rfl⟩

/-- A new draw changes nothing but keys. -/
theorem withShuffleView_map {β : Type} (f : Track → β)
    (hf : ∀ track key, f { track with sortKey := key } = f track) (queue : TrackQueue) :
    queue.withShuffleView.tracks.map f = queue.tracks.map f := by
  unfold withShuffleView
  split
  · rfl
  · exact Shuffle.rekeyFromDice_map f hf queue.tracks queue.dice

theorem ids_withShuffleView (queue : TrackQueue) : queue.withShuffleView.ids = queue.ids :=
  withShuffleView_map (·.id) (fun _ _ => rfl) queue

theorem contained_withShuffleView {queue : TrackQueue} (h : queue.Contained) :
    queue.withShuffleView.Contained := by
  unfold withShuffleView
  split
  · exact h
  · refine ⟨?_, nofun⟩
    intro view hview
    cases hview
    exact ((Shuffle.byKey_perm _).map _).subperm

/-- After a look the shuffled view fits. -/
theorem resolve?_withShuffleView (queue : TrackQueue) :
    ∃ positions,
      queue.withShuffleView.resolve? queue.withShuffleView.shuffleView = some positions := by
  unfold withShuffleView
  split
  · next positions h => exact ⟨positions, h⟩
  · refine exists_positions? ?_ ?_
    · rw [List.length_map, (Shuffle.byKey_perm _).length_eq, size]
    · exact ((Shuffle.byKey_perm _).map _).subset

def shuffledIfOn (queue : TrackQueue) : TrackQueue :=
  if queue.shuffle then queue.withShuffleView else queue

theorem shuffledIfOn_settings (queue : TrackQueue) : queue.shuffledIfOn.SameSettings queue := by
  unfold shuffledIfOn
  split
  · exact withShuffleView_settings queue
  · exact SameSettings.rfl

theorem shuffledIfOn_map {β : Type} (f : Track → β)
    (hf : ∀ track key, f { track with sortKey := key } = f track) (queue : TrackQueue) :
    queue.shuffledIfOn.tracks.map f = queue.tracks.map f := by
  unfold shuffledIfOn
  split
  · exact withShuffleView_map f hf queue
  · rfl

theorem contained_shuffledIfOn {queue : TrackQueue} (h : queue.Contained) :
    queue.shuffledIfOn.Contained := by
  unfold shuffledIfOn
  split
  · exact contained_withShuffleView h
  · exact h

def dealingTracks (queue : TrackQueue) : List Track := queue.tracksAt queue.dealingPositions

theorem length_dealingTracks (queue : TrackQueue) : queue.dealingTracks.length = queue.size := by
  unfold dealingTracks dealingPositions
  split
  · exact length_tracksAt_resolve? queue _
  · exact length_tracksAt_resolve? queue none

theorem map_id_dealingTracks_part {queue : TrackQueue} (h : queue.Contained) :
    (queue.dealingTracks.map (·.id)).Subperm queue.ids := by
  unfold dealingTracks dealingPositions
  split
  · exact map_id_tracksAt_resolve?_part h.shuffled_part
  · have hnone : ∀ view : List TrackId, none = some view → view.Subperm queue.ids := fun _ => nofun
    exact map_id_tracksAt_resolve?_part hnone

def redealt (queue : TrackQueue) : TrackQueue :=
  { queue with
    roundRobinView := some ((RoundRobin.order queue.dealingTracks queue.anchor).map (·.id)) }

/-- The stored round-robin view is kept if it fits, else a new one is dealt. -/
theorem withRoundRobinView_eq (queue : TrackQueue) :
    queue.withRoundRobinView =
      if (queue.shuffledIfOn.resolve? queue.shuffledIfOn.roundRobinView).isSome
      then queue.shuffledIfOn else queue.shuffledIfOn.redealt := by
  have hshuffled : (if queue.shuffle = true then queue.withShuffleView else queue) =
      queue.shuffledIfOn := rfl
  unfold withRoundRobinView
  rw [hshuffled]
  dsimp only
  cases queue.shuffledIfOn.resolve? queue.shuffledIfOn.roundRobinView <;> rfl

theorem contained_redealt {queue : TrackQueue} (h : queue.Contained) :
    queue.redealt.Contained := by
  refine ⟨h.shuffled_part, ?_⟩
  intro view hview
  cases hview
  have hperm := (RoundRobin.order_perm queue.dealingTracks queue.anchor).map (·.id)
  exact hperm.subperm.trans (map_id_dealingTracks_part h)

theorem resolve?_redealt (queue : TrackQueue) :
    ∃ positions, queue.redealt.resolve? queue.redealt.roundRobinView = some positions := by
  have hperm := RoundRobin.order_perm queue.dealingTracks queue.anchor
  refine exists_positions? ?_ ?_
  · rw [List.length_map, hperm.length_eq, length_dealingTracks]
    rfl
  · exact List.Subset.trans (hperm.map (·.id)).subset
      (List.map_subset _ (tracksAt_subset queue _))

theorem withRoundRobinView_settings (queue : TrackQueue) :
    queue.withRoundRobinView.SameSettings queue := by
  have h := queue.shuffledIfOn_settings
  rw [withRoundRobinView_eq]
  split
  · exact h
  · exact ⟨h.shuffle, h.roundRobin, h.repeatMode, h.lastTaken, h.anchor⟩

theorem contained_withRoundRobinView {queue : TrackQueue} (h : queue.Contained) :
    queue.withRoundRobinView.Contained := by
  rw [withRoundRobinView_eq]
  split
  · exact contained_shuffledIfOn h
  · exact contained_redealt (contained_shuffledIfOn h)

theorem withRoundRobinView_tracks (queue : TrackQueue) :
    queue.withRoundRobinView.tracks = queue.shuffledIfOn.tracks := by
  rw [withRoundRobinView_eq]
  split <;> rfl

theorem refresh_settings (queue : TrackQueue) : queue.refresh.SameSettings queue := by
  unfold refresh
  split
  · exact withRoundRobinView_settings queue
  · split
    · exact withShuffleView_settings queue
    · exact SameSettings.rfl

/-- Bringing the views up to date changes nothing but keys. -/
theorem refresh_map {β : Type} (f : Track → β)
    (hf : ∀ track key, f { track with sortKey := key } = f track) (queue : TrackQueue) :
    queue.refresh.tracks.map f = queue.tracks.map f := by
  unfold refresh
  split
  · rw [withRoundRobinView_tracks]
    exact shuffledIfOn_map f hf queue
  · split
    · exact withShuffleView_map f hf queue
    · rfl

theorem ids_refresh (queue : TrackQueue) : queue.refresh.ids = queue.ids :=
  refresh_map (·.id) (fun _ _ => rfl) queue

theorem size_refresh (queue : TrackQueue) : queue.refresh.size = queue.size := by
  rw [← length_ids, ids_refresh, length_ids]

theorem contained_refresh {queue : TrackQueue} (h : queue.Contained) :
    queue.refresh.Contained := by
  unfold refresh
  split
  · exact contained_withRoundRobinView h
  · split
    · exact contained_withShuffleView h
    · exact h

theorem coherent_refresh {queue : TrackQueue} (h : queue.Coherent) : queue.refresh.Coherent :=
  (contained_refresh h.contained).coherent (ids_refresh queue ▸ h.ids_nodup)

/-- Listing the whole queue brings the views up to date and gives all tracks in the active
order. -/
theorem ordered_eq (queue : TrackQueue) :
    queue.ordered =
      if 0 < queue.size then (queue.refresh.tracksAt queue.refresh.activePositions, queue.refresh)
      else ([], queue) := by
  have hwhole : (queue.refresh.activePositions.drop 0).take (queue.size - 0) =
      queue.refresh.activePositions := by
    rw [List.drop_zero, Nat.sub_zero, ← size_refresh queue, ← length_activePositions,
      List.take_length]
  simp only [ordered, range, hwhole]
  rfl

theorem ordered_perm {queue : TrackQueue} (h : queue.Coherent) :
    queue.ordered.1.Perm queue.ordered.2.tracks := by
  rw [ordered_eq]
  split
  · exact tracksAt_activePositions_perm (coherent_refresh h)
  · next hempty =>
    have hnil : queue.tracks = [] := List.length_eq_zero_iff.mp (Nat.eq_zero_of_not_pos hempty)
    rw [hnil]

theorem ids_ordered (queue : TrackQueue) : queue.ordered.2.ids = queue.ids := by
  rw [ordered_eq]
  split
  · exact ids_refresh queue
  · rfl

end Jukebox.TrackQueue
