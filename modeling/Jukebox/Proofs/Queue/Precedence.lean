import Jukebox.Proofs.Order.Priority
import Jukebox.Proofs.Queue.Listing

/-!
Priority over a run. The base list has its priority tracks at the front, and each stored view puts
those of them that it knows first, in base order. A view that fits knows them all, so whichever
order is active, the priority tracks come first.
-/
namespace Jukebox

namespace QueueStep

def addedTracks : QueueStep → List Track
  | .add track _ => [track]
  | .addAll tracks _ => tracks
  | _ => []

end QueueStep

namespace TrackQueue

/-! ### Views that put some ids first -/

/-- The view begins with some of the urgent ids, in their order, and has no others of them. -/
def Ranks (urgent view : List TrackId) : Prop :=
  ∃ front rest, view = front ++ rest ∧ front.Sublist urgent ∧ ∀ id ∈ rest, id ∉ urgent

theorem Ranks.filter {urgent view : List TrackId} (h : Ranks urgent view) (keep : TrackId → Bool) :
    Ranks (urgent.filter keep) (view.filter keep) := by
  obtain ⟨front, rest, rfl, hfront, hrest⟩ := h
  refine ⟨front.filter keep, rest.filter keep, List.filter_append .., hfront.filter keep, ?_⟩
  intro id hid hurgent
  exact hrest id (List.mem_filter.mp hid).1 (List.mem_filter.mp hurgent).1

/-- Ids that the view does not know may become urgent. -/
theorem Ranks.grown {urgent view : List TrackId} (h : Ranks urgent view) {new : List TrackId}
    (hnew : ∀ id ∈ new, id ∉ view) : Ranks (new ++ urgent) view := by
  obtain ⟨front, rest, rfl, hfront, hrest⟩ := h
  refine ⟨front, rest, rfl, hfront.trans (List.sublist_append_right _ _), ?_⟩
  intro id hid hurgent
  rcases List.mem_append.mp hurgent with hmem | hmem
  · exact hnew id hmem (List.mem_append_right _ hid)
  · exact hrest id hid hmem

/-- A view with every urgent id begins with all of them. -/
theorem Ranks.eq_append {urgent view : List TrackId} (h : Ranks urgent view)
    (hnodup : urgent.Nodup) (hall : urgent ⊆ view) :
    ∃ rest, view = urgent ++ rest ∧ ∀ id ∈ rest, id ∉ urgent := by
  obtain ⟨front, rest, rfl, hfront, hrest⟩ := h
  have hsubset : urgent ⊆ front := by
    intro id hid
    rcases List.mem_append.mp (hall hid) with hmem | hmem
    · exact hmem
    · exact absurd hid (hrest id hmem)
  have hwhole := hfront.eq_of_length_le (List.subperm_of_subset hnodup hsubset).length_le
  exact ⟨rest, by rw [hwhole], hrest⟩

def urgentIds (queue : TrackQueue) : List TrackId :=
  (queue.tracks.filter (·.isPriority)).map (·.id)

theorem urgentIds_sublist (queue : TrackQueue) : queue.urgentIds.Sublist queue.ids :=
  List.filter_sublist.map _

theorem isPriority_eq_false {queue : TrackQueue} {track : Track} (hmem : track ∈ queue.tracks)
    (h : track.id ∉ queue.urgentIds) : track.isPriority = false := by
  cases hurgent : track.isPriority with
  | false => rfl
  | true =>
    exact absurd (List.mem_map_of_mem (List.mem_filter.mpr ⟨hmem, hurgent⟩)) h

theorem notMem_urgentIds {queue : TrackQueue} (hids : queue.ids.Nodup) {track : Track}
    (hmem : track ∈ queue.tracks) (h : track.isPriority = false) :
    track.id ∉ queue.urgentIds := by
  intro hid
  obtain ⟨other, hother, heq⟩ := List.mem_map.mp hid
  obtain ⟨hqueued, hurgent⟩ := List.mem_filter.mp hother
  rw [List.inj_on_of_nodup_map hids hqueued hmem heq, h] at hurgent
  cases hurgent

/-- The ids of an order of the queue that puts its priority tracks first. -/
theorem ranks_of_priorityFirst {queue : TrackQueue} (hids : queue.ids.Nodup) {order : List Track}
    (horder : order ⊆ queue.tracks) (h : PriorityFirst queue.tracks order) :
    Ranks queue.urgentIds (order.map (·.id)) := by
  refine ⟨_, _, (congrArg (List.map (·.id)) h).trans List.map_append, List.Sublist.refl _, ?_⟩
  intro id hid
  obtain ⟨track, hmem, rfl⟩ := List.mem_map.mp hid
  obtain ⟨hlisted, hordinary⟩ := List.mem_filter.mp hmem
  exact notMem_urgentIds hids (horder hlisted) (by simpa using hordinary)

/-! ### Ranked queues -/

/-- Priority tracks stand first in the base list and in every view, and the keys tell them. -/
structure Ranked (queue : TrackQueue) : Prop where
  urgent_first : UrgentFirst queue.tracks
  keyed : ∀ track ∈ queue.tracks, track.IsKeyed
  shuffled_ranks : ∀ view, queue.shuffleView = some view → Ranks queue.urgentIds view
  dealt_ranks : ∀ view, queue.roundRobinView = some view → Ranks queue.urgentIds view

theorem ranked_empty (dice : Dice) : (empty dice).Ranked :=
  ⟨List.Pairwise.nil, List.forall_mem_nil _, nofun, nofun⟩

/-- What a stored view stands for puts the priority tracks first, and so does the base order. -/
theorem priorityFirst_resolve? {queue : TrackQueue} (hids : queue.ids.Nodup) (h : queue.Ranked)
    {stored : Option (List TrackId)}
    (hpart : ∀ view, stored = some view → view.Subperm queue.ids)
    (hranks : ∀ view, stored = some view → Ranks queue.urgentIds view) :
    PriorityFirst queue.tracks
      (queue.tracksAt ((queue.resolve? stored).getD queue.basePositions)) := by
  cases hresolve : queue.resolve? stored with
  | none =>
    rw [Option.getD_none, tracksAt_basePositions]
    exact h.urgent_first.priorityFirst
  | some positions =>
    obtain ⟨view, hview, hpositions⟩ := Option.bind_eq_some_iff.mp hresolve
    have hperm := perm_of_positions? (hpart view hview) hpositions
    have hall : queue.urgentIds ⊆ view :=
      List.Subset.trans queue.urgentIds_sublist.subset hperm.symm.subset
    obtain ⟨rest, hsplit, hrest⟩ :=
      (hranks view hview).eq_append (hids.sublist queue.urgentIds_sublist) hall
    have hviewIds := (positions?_eq_some hpositions).2.2
    rw [hsplit, List.map_eq_append_iff] at hviewIds
    obtain ⟨front, back, heq, hfront, hback⟩ := hviewIds
    have hqueued := queue.tracksAt_subset positions
    rw [heq] at hqueued
    rw [Option.getD_some, heq]
    refine priorityFirst_of_append ?_ ?_
    · have hfrontQueued := (List.append_subset.mp hqueued).1
      exact eq_of_map_id_eq hids hfrontQueued (List.filter_subset_self _) hfront
    · intro track hmem
      refine isPriority_eq_false (hqueued (List.mem_append_right _ hmem)) (hrest _ ?_)
      rw [← hback]
      exact List.mem_map_of_mem hmem

theorem Ranked.priorityFirst_lineup {queue : TrackQueue} (hcoherent : queue.Coherent)
    (h : queue.Ranked) : PriorityFirst queue.tracks queue.lineup := by
  unfold lineup activePositions
  split
  · exact priorityFirst_resolve? hcoherent.ids_nodup h hcoherent.dealt_part h.dealt_ranks
  · split
    · exact priorityFirst_resolve? hcoherent.ids_nodup h hcoherent.shuffled_part h.shuffled_ranks
    · rw [tracksAt_basePositions]
      exact h.urgent_first.priorityFirst

theorem Ranked.priorityFirst_dealingTracks {queue : TrackQueue} (hcoherent : queue.Coherent)
    (h : queue.Ranked) : PriorityFirst queue.tracks queue.dealingTracks := by
  unfold dealingTracks dealingPositions
  split
  · exact priorityFirst_resolve? hcoherent.ids_nodup h hcoherent.shuffled_part h.shuffled_ranks
  · rw [tracksAt_basePositions]
    exact h.urgent_first.priorityFirst

/-! ### Bringing the views up to date -/

theorem urgent_withShuffleView (queue : TrackQueue) :
    queue.withShuffleView.tracks.filter (·.isPriority) = queue.tracks.filter (·.isPriority) := by
  unfold withShuffleView
  split
  · rfl
  · exact Shuffle.rekeyFromDice_filter queue.tracks queue.dice

theorem urgent_shuffledIfOn (queue : TrackQueue) :
    queue.shuffledIfOn.tracks.filter (·.isPriority) = queue.tracks.filter (·.isPriority) := by
  unfold shuffledIfOn
  split
  · exact urgent_withShuffleView queue
  · rfl

/-- Bringing the views up to date leaves the priority tracks as they are. -/
theorem urgent_refresh (queue : TrackQueue) :
    queue.refresh.tracks.filter (·.isPriority) = queue.tracks.filter (·.isPriority) := by
  unfold refresh
  split
  · rw [withRoundRobinView_tracks]
    exact urgent_shuffledIfOn queue
  · split
    · exact urgent_withShuffleView queue
    · rfl

theorem ranked_withShuffleView {queue : TrackQueue} (hids : queue.ids.Nodup) (h : queue.Ranked) :
    queue.withShuffleView.Ranked := by
  have hpriorities := withShuffleView_map (·.isPriority) (fun _ _ => rfl) queue
  have hleft := queue.ids_withShuffleView
  unfold withShuffleView at hpriorities hleft ⊢
  split
  · exact h
  · next hnone =>
    rw [hnone] at hpriorities hleft
    have hkeyed := Shuffle.rekeyFromDice_isKeyed h.keyed queue.dice
    refine ⟨?_, hkeyed, ?_, nofun⟩
    · rw [urgentFirst_iff, hpriorities, ← urgentFirst_iff]
      exact h.urgent_first
    · intro view hview
      cases hview
      exact ranks_of_priorityFirst (hleft ▸ hids) (Shuffle.byKey_perm _).subset
        (Shuffle.byKey_priorityFirst hkeyed)

theorem ranked_shuffledIfOn {queue : TrackQueue} (hids : queue.ids.Nodup) (h : queue.Ranked) :
    queue.shuffledIfOn.Ranked := by
  unfold shuffledIfOn
  split
  · exact ranked_withShuffleView hids h
  · exact h

theorem ranked_redealt {queue : TrackQueue} (hcoherent : queue.Coherent) (h : queue.Ranked) :
    queue.redealt.Ranked := by
  refine ⟨h.urgent_first, h.keyed, h.shuffled_ranks, ?_⟩
  intro view hview
  cases hview
  have hdealing := h.priorityFirst_dealingTracks hcoherent
  have horder := RoundRobin.order_priorityFirst queue.dealingTracks queue.anchor
  rw [PriorityFirst, hdealing.filter_eq] at horder
  have hsubset := (RoundRobin.order_perm queue.dealingTracks queue.anchor).subset
  exact ranks_of_priorityFirst hcoherent.ids_nodup
    (List.Subset.trans hsubset (tracksAt_subset queue _)) horder

theorem ranked_refresh {queue : TrackQueue} (hcoherent : queue.Coherent) (h : queue.Ranked) :
    queue.refresh.Ranked := by
  have hshuffled := ranked_shuffledIfOn hcoherent.ids_nodup h
  unfold refresh
  split
  · rw [withRoundRobinView_eq]
    split
    · exact hshuffled
    · have hids : queue.shuffledIfOn.ids = queue.ids :=
        shuffledIfOn_map (·.id) (fun _ _ => rfl) queue
      refine ranked_redealt ((contained_shuffledIfOn hcoherent.contained).coherent ?_) hshuffled
      rw [hids]
      exact hcoherent.ids_nodup
  · split
    · exact ranked_withShuffleView hcoherent.ids_nodup h
    · exact h

/-- The listing gives the priority tracks first, in base order. -/
theorem Ranked.priorityFirst_ordered {queue : TrackQueue} (hcoherent : queue.Coherent)
    (h : queue.Ranked) : PriorityFirst queue.tracks queue.ordered.1 := by
  have hlineup := (ranked_refresh hcoherent h).priorityFirst_lineup (coherent_refresh hcoherent)
  rw [PriorityFirst, urgent_refresh] at hlineup
  rw [ordered_fst]
  exact hlineup

/-! ### Operations -/

namespace Ranked

variable {queue other : TrackQueue}

theorem dropViewsUnless (h : queue.Ranked) (silent : Bool) :
    (queue.dropViewsUnless silent).Ranked := by
  unfold TrackQueue.dropViewsUnless
  split
  · exact h
  · exact ⟨h.urgent_first, h.keyed, nofun, nofun⟩

/-- Ids may be struck from the queue if they are struck from the views as well. -/
theorem of_filter (h : queue.Ranked) (keep : TrackId → Bool)
    (htracks : other.tracks = queue.tracks.filter fun track => keep track.id)
    (hshuffled : other.shuffleView = queue.shuffleView.map (·.filter keep))
    (hdealt : other.roundRobinView = queue.roundRobinView.map (·.filter keep)) :
    other.Ranked := by
  have hurgent : other.urgentIds = queue.urgentIds.filter keep := by
    rw [urgentIds, urgentIds, htracks, List.filter_map, List.filter_filter, List.filter_filter]
    simp only [Function.comp_def, Bool.and_comm]
  refine ⟨?_, fun track hmem => ?_, fun view hview => ?_, fun view hview => ?_⟩
  · rw [htracks]
    exact h.urgent_first.sublist List.filter_sublist
  · rw [htracks] at hmem
    exact h.keyed track (List.mem_filter.mp hmem).1
  · rw [hshuffled, Option.map_eq_some_iff] at hview
    obtain ⟨whole, hwhole, rfl⟩ := hview
    rw [hurgent]
    exact (h.shuffled_ranks whole hwhole).filter keep
  · rw [hdealt, Option.map_eq_some_iff] at hview
    obtain ⟨whole, hwhole, rfl⟩ := hview
    rw [hurgent]
    exact (h.dealt_ranks whole hwhole).filter keep

/-- Tracks that no view knows may come in, the urgent ones in front and the others behind. -/
theorem of_append (h : queue.Ranked) (urgent ordinary : List Track)
    (htracks : other.tracks = urgent ++ queue.tracks ++ ordinary)
    (hurgent : ∀ track ∈ urgent, track.isPriority = true)
    (hordinary : ∀ track ∈ ordinary, track.isPriority = false)
    (hkeyed : ∀ track ∈ urgent ++ ordinary, track.IsKeyed)
    (hnew : ∀ view, queue.shuffleView = some view ∨ queue.roundRobinView = some view →
      ∀ track ∈ urgent, track.id ∉ view)
    (hshuffled : other.shuffleView = queue.shuffleView)
    (hdealt : other.roundRobinView = queue.roundRobinView) : other.Ranked := by
  have hids : other.urgentIds = urgent.map (·.id) ++ queue.urgentIds := by
    have hall : urgent.filter (·.isPriority) = urgent := List.filter_eq_self.mpr hurgent
    have hnone : ordinary.filter (·.isPriority) = [] := by
      rw [List.filter_eq_nil_iff]
      intro track hmem
      simp [hordinary track hmem]
    rw [urgentIds, urgentIds, htracks, List.filter_append, List.filter_append, hall, hnone,
      List.append_nil, List.map_append]
  have hunknown (view : List TrackId)
      (hview : queue.shuffleView = some view ∨ queue.roundRobinView = some view) :
      ∀ id ∈ urgent.map (·.id), id ∉ view := by
    intro id hid
    obtain ⟨track, hmem, rfl⟩ := List.mem_map.mp hid
    exact hnew view hview track hmem
  refine ⟨?_, fun track hmem => ?_, fun view hview => ?_, fun view hview => ?_⟩
  · rw [htracks]
    refine List.pairwise_append.mpr ⟨List.pairwise_append.mpr ⟨?_, h.urgent_first, ?_⟩, ?_, ?_⟩
    · exact List.pairwise_of_forall_mem_list fun before hbefore _ _ _ => hurgent before hbefore
    · exact fun before hbefore _ _ _ => hurgent before hbefore
    · refine List.pairwise_of_forall_mem_list fun before _ later hlater hpriority => ?_
      rw [hordinary later hlater] at hpriority
      cases hpriority
    · intro before _ later hlater hpriority
      rw [hordinary later hlater] at hpriority
      cases hpriority
  · rw [htracks, List.append_assoc] at hmem
    rcases List.mem_append.mp hmem with hfront | hmem
    · exact hkeyed track (List.mem_append_left _ hfront)
    · rcases List.mem_append.mp hmem with hold | hback
      · exact h.keyed track hold
      · exact hkeyed track (List.mem_append_right _ hback)
  · rw [hshuffled] at hview
    rw [hids]
    exact (h.shuffled_ranks view hview).grown (hunknown view (Or.inl hview))
  · rw [hdealt] at hview
    rw [hids]
    exact (h.dealt_ranks view hview).grown (hunknown view (Or.inr hview))

end Ranked

/-- A view does not know ids that are not queued. -/
theorem Contained.notMem_view {queue : TrackQueue} (h : queue.Contained) {view : List TrackId}
    (hview : queue.shuffleView = some view ∨ queue.roundRobinView = some view) {id : TrackId}
    (hid : id ∉ queue.ids) : id ∉ view := by
  intro hmem
  rcases hview with hview | hview
  · exact hid ((h.shuffled_part view hview).subset hmem)
  · exact hid ((h.dealt_part view hview).subset hmem)

theorem ranked_addAll {queue : TrackQueue} (hcontained : queue.Contained) (h : queue.Ranked)
    {tracks : List Track} (hkeyed : ∀ track ∈ tracks, track.IsKeyed)
    (hnew : ∀ track ∈ tracks, track.id ∉ queue.ids) (silent : Bool) :
    (queue.addAll tracks silent).Ranked := by
  have hloud : (queue.addAll tracks true).Ranked := by
    refine h.of_append (tracks.filter (·.isPriority)) (tracks.filter (! ·.isPriority))
      ?_ ?_ ?_ ?_ ?_ rfl rfl
    · rw [addAll, List.partition_eq_filter_filter]
      rfl
    · exact fun track hmem => (List.mem_filter.mp hmem).2
    · exact fun track hmem => by simpa using (List.mem_filter.mp hmem).2
    · intro track hmem
      rcases List.mem_append.mp hmem with hmem | hmem
      · exact hkeyed track (List.mem_filter.mp hmem).1
      · exact hkeyed track (List.mem_filter.mp hmem).1
    · intro view hview track hmem
      exact hcontained.notMem_view hview (hnew track (List.mem_filter.mp hmem).1)
  exact hloud.dropViewsUnless silent

theorem ranked_takeAt {queue : TrackQueue} (hids : queue.ids.Nodup) (h : queue.Ranked)
    {position : Nat} {track : Track} (htrack : queue.tracks[position]? = some track) :
    (queue.takeAt position track).2.Ranked := by
  have herase := eraseIdx_eq_filter hids htrack
  obtain ⟨hshuffled, hdealt⟩ := takeAt_views queue position track
  by_cases hmode : queue.repeatMode = .all
  · have hrest : ({ queue with tracks := queue.tracks.eraseIdx position }.forget track.id).Ranked :=
      h.of_filter (· ≠ track.id) herase rfl rfl
    have hkeyed := Track.isKeyed_demote (h.keyed track (List.mem_of_getElem? htrack)) queue.dice
    refine hrest.of_append [] [(track.demote queue.dice).1.fromStart]
      ?_ (List.forall_mem_nil _) ?_ ?_ (fun _ _ => List.forall_mem_nil _) hshuffled hdealt
    · rw [takeAt_all hmode]
      rfl
    · exact fun other hother => List.mem_singleton.mp hother ▸ demote_isPriority track queue.dice
    · exact fun other hother => List.mem_singleton.mp hother ▸ hkeyed
  · refine h.of_filter (· ≠ track.id) ?_ hshuffled hdealt
    rw [takeAt_once hmode]
    exact herase

theorem ranked_take {queue : TrackQueue} (hcoherent : queue.Coherent) (h : queue.Ranked) :
    queue.take.2.Ranked := by
  have hrefresh := ranked_refresh hcoherent h
  rcases take_cases queue with ⟨track, -, heq⟩ | ⟨-, heq⟩ | ⟨-, position, track, -, htrack, heq⟩
  · rw [heq]
    exact h
  · rw [heq]
    exact hrefresh
  · rw [heq]
    exact ranked_takeAt (coherent_refresh hcoherent).ids_nodup hrefresh htrack

theorem eraseP_eq_filter {tracks : List Track} (hids : (tracks.map (·.id)).Nodup) (id : TrackId) :
    tracks.eraseP (·.id = id) = tracks.filter (·.id ≠ id) := by
  induction tracks with
  | nil => rfl
  | cons track rest ih =>
    obtain ⟨hhead, hrest⟩ := List.nodup_cons.mp hids
    by_cases heq : track.id = id
    · rw [List.eraseP_cons_of_pos (by simpa using heq),
        List.filter_cons_of_neg (by simpa using heq), eq_comm, List.filter_eq_self]
      intro other hother
      have hne : other.id ≠ id := fun hid =>
        hhead (List.mem_map.mpr ⟨other, hother, hid.trans heq.symm⟩)
      simpa using hne
    · rw [List.eraseP_cons_of_neg (by simpa using heq),
        List.filter_cons_of_pos (by simpa using heq), ih hrest]

theorem ranked_remove {queue : TrackQueue} (hids : queue.ids.Nodup) (h : queue.Ranked)
    (id : TrackId) (silent : Bool) : (queue.remove id silent).2.Ranked := by
  cases hfind : queue.tracks.find? (·.id = id) with
  | none =>
    simp only [remove, hfind]
    exact h
  | some track =>
    simp only [remove, hfind]
    refine Ranked.dropViewsUnless (h.of_filter (· ≠ id) ?_ rfl rfl) silent
    exact eraseP_eq_filter hids id

theorem ranked_removeAll {queue : TrackQueue} (h : queue.Ranked) (ids : List TrackId)
    (silent : Bool) : (queue.removeAll ids silent).2.Ranked := by
  rw [removeAll_eq]
  refine Ranked.dropViewsUnless (h.of_filter
    (· ∉ (queue.tracks.filter (·.id ∈ ids)).map (·.id)) ?_ rfl rfl) silent
  apply List.filter_congr
  intro track hmem
  rw [decide_eq_decide, not_iff_not]
  constructor
  · exact fun hid => List.mem_map_of_mem (List.mem_filter.mpr ⟨hmem, decide_eq_true hid⟩)
  · intro hid
    obtain ⟨other, hother, heq⟩ := List.mem_map.mp hid
    rw [← heq]
    exact of_decide_eq_true (List.mem_filter.mp hother).2

theorem ranked_after {queue : TrackQueue} (hcoherent : queue.Coherent) (h : queue.Ranked)
    {step : QueueStep} (hkeyed : ∀ track ∈ step.addedTracks, track.IsKeyed)
    (hnew : (step.addedIds ++ queue.ids).Nodup) : (queue.after step).Ranked := by
  have hids := hcoherent.ids_nodup
  have hdisjoint := (List.nodup_append.mp hnew).2.2
  have hnone {p : List TrackId → Prop} : ∀ view, none = some view → p view :=
    fun _ hview => absurd hview.symm (Option.some_ne_none _)
  cases step with
  | add track silent =>
    rw [after, ← addAll_singleton]
    refine ranked_addAll hcoherent.contained h hkeyed ?_ silent
    intro other hother hid
    obtain rfl := List.mem_singleton.mp hother
    exact hdisjoint other.id List.mem_cons_self other.id hid rfl
  | addAll tracks silent =>
    refine ranked_addAll hcoherent.contained h hkeyed ?_ silent
    exact fun track hmem hid => hdisjoint track.id (List.mem_map_of_mem hmem) track.id hid rfl
  | take => exact ranked_take hcoherent h
  | peek =>
    rw [after, peek]
    split
    · exact h
    · exact ranked_refresh hcoherent h
  | range start stop =>
    rw [after, range_eq]
    split
    · exact ranked_refresh hcoherent h
    · exact h
  | remove id silent => exact ranked_remove hids h id silent
  | removeAll ids silent => exact ranked_removeAll h ids silent
  | clear => exact ⟨List.Pairwise.nil, List.forall_mem_nil _, hnone, hnone⟩
  | skipped | setRepeat => exact ⟨h.urgent_first, h.keyed, h.shuffled_ranks, h.dealt_ranks⟩
  | reshuffle | setShuffle => exact ⟨h.urgent_first, h.keyed, hnone, hnone⟩
  | setRoundRobin on => exact ⟨h.urgent_first, h.keyed, h.shuffled_ranks, hnone⟩

theorem ranked_foldl {queue : TrackQueue} (hcoherent : queue.Coherent) (h : queue.Ranked)
    {steps : List QueueStep} (hkeyed : ∀ step ∈ steps, ∀ track ∈ step.addedTracks, track.IsKeyed)
    (hnew : (QueueStep.allAddedIds steps ++ queue.ids).Nodup) :
    (steps.foldl after queue).Coherent ∧ (steps.foldl after queue).Ranked := by
  induction steps generalizing queue with
  | nil => exact ⟨hcoherent, h⟩
  | cons step rest ih =>
    obtain ⟨hnow, hlater⟩ := nodup_after hnew
    exact ih (coherent_after hcoherent hnow)
      (ranked_after hcoherent h (hkeyed step List.mem_cons_self) hnow)
      (fun other hother => hkeyed other (List.mem_cons_of_mem step hother)) hlater

/-- A run that adds no id twice leads to a ranked queue. -/
theorem ranked_run (dice : Dice) {steps : List QueueStep} (fresh : QueueStep.Fresh steps)
    (hkeyed : ∀ step ∈ steps, ∀ track ∈ step.addedTracks, track.IsKeyed) :
    (steps.foldl after (empty dice)).Coherent ∧ (steps.foldl after (empty dice)).Ranked := by
  refine ranked_foldl (coherent_empty dice) (ranked_empty dice) hkeyed ?_
  simpa [QueueStep.Fresh, ids, empty] using fresh

/-- What a take gives of the first track of the active order: the track itself, unless repeat all
takes its priority away. -/
theorem take_of_head?_lineup {queue : TrackQueue} (hsticky : queue.sticky? = none) {track : Track}
    (h : queue.refresh.lineup.head? = some track) :
    queue.take.1 = some (if queue.repeatMode = .all then (track.demote queue.refresh.dice).1
      else track) := by
  obtain ⟨position, -, -, htake⟩ := take_of_head? hsticky h
  have hmode := queue.refresh_settings.repeatMode
  rw [htake]
  split
  · next hall => rw [takeAt_all (hmode.trans hall)]
  · next hnot => rw [takeAt_once (fun hall => hnot (hmode.symm.trans hall))]

/-- In every reachable queue the priority tracks are at the front of the base list and of the
listing, and are known by their keys; one that has just been added is taken next. -/
theorem priority_comes_first (dice : Dice) (steps : List QueueStep)
    (fresh : QueueStep.Fresh steps)
    (hkeyed : ∀ step ∈ steps, ∀ track ∈ step.addedTracks, track.IsKeyed) {queue : TrackQueue}
    (hreached : steps.foldl after (empty dice) = queue) :
    PriorityFirst queue.tracks queue.tracks ∧
    (∀ track ∈ queue.tracks, track.IsKeyed) ∧
    PriorityFirst queue.tracks queue.ordered.1 ∧
    ∀ (track : Track) (silent : Bool), track.isPriority = true → track.IsKeyed →
      QueueStep.Fresh (steps ++ [.add track silent]) →
      (queue.add track silent).sticky? = none →
      (queue.add track silent).take.1 = some (if queue.repeatMode = .all
        then (track.demote (queue.add track silent).refresh.dice).1 else track) := by
  obtain ⟨hcoherent, hranked⟩ := hreached ▸ ranked_run dice fresh hkeyed
  refine ⟨hranked.urgent_first.priorityFirst, hranked.keyed,
    hranked.priorityFirst_ordered hcoherent, ?_⟩
  intro track silent hurgent htrack hfresh hsticky
  have hadded : (steps ++ [QueueStep.add track silent]).foldl after (empty dice) =
      queue.add track silent := by
    rw [List.foldl_append, hreached]
    rfl
  have hkeyedToo : ∀ step ∈ steps ++ [QueueStep.add track silent],
      ∀ other ∈ step.addedTracks, other.IsKeyed := by
    intro step hstep other hother
    rcases List.mem_append.mp hstep with hold | hlast
    · exact hkeyed step hold other hother
    · obtain rfl := List.mem_singleton.mp hlast
      obtain rfl := List.mem_singleton.mp hother
      exact htrack
  obtain ⟨hcoherent, hranked⟩ := hadded ▸ ranked_run dice hfresh hkeyedToo
  have hfirst : (queue.add track silent).tracks.filter (·.isPriority) =
      track :: queue.tracks.filter (·.isPriority) := by
    have htracks : (queue.add track silent).tracks = track :: queue.tracks := by
      cases silent <;> simp [add, place, hurgent, dropViewsUnless, dropViews]
    rw [htracks, List.filter_cons_of_pos hurgent]
  have hlisted := hranked.priorityFirst_ordered hcoherent
  rw [PriorityFirst, hfirst, ordered_fst] at hlisted
  have hhead : (queue.add track silent).refresh.lineup.head? = some track := by
    rw [hlisted]
    rfl
  have htake := take_of_head?_lineup hsticky hhead
  have hmode : (queue.add track silent).repeatMode = queue.repeatMode := by
    cases silent <;> rfl
  rwa [hmode] at htake

theorem priority_comes_first_silentlyChanged :
    QueueStep.Fresh (silentlyChanged ++ [.add (sampleTrack 6 firstUser true) true]) ∧
    (∀ step ∈ silentlyChanged, ∀ track ∈ step.addedTracks, track.IsKeyed) ∧
    ((silentlyChanged.foldl after (empty (.ofSeed 1))).add (sampleTrack 6 firstUser true)
      true).take.1 = some (sampleTrack 6 firstUser true) :=
  ⟨by decide, by decide,
    (priority_comes_first (.ofSeed 1) silentlyChanged (by decide) (by decide) rfl).2.2.2
      (sampleTrack 6 firstUser true) true rfl (by decide) (by decide) rfl⟩

end TrackQueue

end Jukebox
