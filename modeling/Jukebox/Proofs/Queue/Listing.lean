import Jukebox.Proofs.Queue.Takes
import Jukebox.Proofs.Queue.Turns

/-!
What is listed is what is taken. The first read brings the views up to date and the reads after it
change nothing. A take strikes its track from the views, which then still fit the queue, so that
whatever was listed first is taken in that order, with any reads in between.
-/
namespace Jukebox

namespace QueueStep

/-- Whether an operation only reads. A listing of the whole queue is a range up to its size. -/
def isRead : QueueStep → Bool
  | .peek | .range .. => true
  | _ => false

def isTake : QueueStep → Bool
  | .take => true
  | _ => false

end QueueStep

namespace TrackQueue

/-! ### Views that are up to date -/

structure UpToDate (queue : TrackQueue) : Prop where
  shuffled : queue.shuffle = true → (queue.resolve? queue.shuffleView).isSome = true
  dealt : queue.roundRobin = true → (queue.resolve? queue.roundRobinView).isSome = true

theorem upToDate_refresh (queue : TrackQueue) : queue.refresh.UpToDate := by
  have hsettings := queue.refresh_settings
  cases hon : queue.roundRobin with
  | true =>
    have hstands := viewStands_refresh hon
    simp only [viewStands, Bool.and_eq_true, Bool.or_eq_true, Bool.not_eq_true'] at hstands
    refine ⟨fun hshuffle => ?_, fun _ => hstands.1⟩
    exact hstands.2.resolve_left (by simp [hshuffle])
  | false =>
    refine ⟨fun hshuffle => ?_, fun hround => ?_⟩
    · have hdrawn : queue.refresh = queue.withShuffleView := by
        rw [refresh, if_neg (by simp [hon]), if_pos (hsettings.shuffle.symm.trans hshuffle)]
      obtain ⟨positions, hfits⟩ := queue.resolve?_withShuffleView
      rw [hdrawn, hfits]
      rfl
    · rw [hsettings.roundRobin, hon] at hround
      cases hround

theorem UpToDate.refresh_eq {queue : TrackQueue} (h : queue.UpToDate) : queue.refresh = queue := by
  cases hon : queue.roundRobin with
  | true =>
    have hstands : queue.viewStands = true := by
      cases hshuffle : queue.shuffle with
      | true => simp [viewStands, h.dealt hon, h.shuffled hshuffle]
      | false => simp [viewStands, h.dealt hon, hshuffle]
    rw [refresh_of_roundRobin hon, if_pos hstands]
  | false =>
    rw [refresh, if_neg (by simp [hon])]
    split
    · next hshuffle =>
      obtain ⟨positions, hfits⟩ := Option.isSome_iff_exists.mp (h.shuffled hshuffle)
      exact withShuffleView_of_resolve hfits
    · rfl

theorem refresh_refresh (queue : TrackQueue) : queue.refresh.refresh = queue.refresh :=
  queue.upToDate_refresh.refresh_eq

/-- The tracks in the order of the active policy, as far as the stored views tell. -/
def lineup (queue : TrackQueue) : List Track := queue.tracksAt queue.activePositions

theorem length_lineup (queue : TrackQueue) : queue.lineup.length = queue.size :=
  length_tracksAt_activePositions queue

theorem map_lineup (queue : TrackQueue) :
    queue.lineup.map some = queue.activePositions.map (queue.tracks[·]?) := by
  have hall : ∀ position ∈ queue.activePositions, (queue.tracks[position]?).isSome = true := by
    rw [← List.filterMap_length_eq_length, length_activePositions]
    exact queue.length_lineup
  have hmap (positions : List Nat)
      (h : ∀ position ∈ positions, (queue.tracks[position]?).isSome = true) :
      (queue.tracksAt positions).map some = positions.map (queue.tracks[·]?) := by
    induction positions with
    | nil => rfl
    | cons position rest ih =>
      obtain ⟨track, htrack⟩ := Option.isSome_iff_exists.mp (h position List.mem_cons_self)
      have hrest := ih fun other hother => h other (List.mem_cons_of_mem position hother)
      have hcons : queue.tracksAt (position :: rest) = track :: queue.tracksAt rest := by
        simp only [tracksAt, List.filterMap_cons, htrack]
      rw [hcons, List.map_cons, List.map_cons, hrest, htrack]
  exact hmap _ hall

/-- The tracks at some places of the active order. -/
theorem filterMap_of_map_lineup {queue : TrackQueue} {positions : List Nat} {tracks : List Track}
    (h : tracks.map some = positions.map (queue.tracks[·]?)) :
    positions.filterMap (queue.tracks[·]?) = tracks := by
  have hid := congrArg (List.filterMap id) h
  rw [List.filterMap_map, List.filterMap_map] at hid
  simpa [Function.comp_def] using hid.symm

theorem head?_lineup (queue : TrackQueue) :
    queue.lineup.head? = queue.nextPosition?.bind (queue.tracks[·]?) := by
  have hmap := queue.map_lineup
  unfold nextPosition?
  cases hpositions : queue.activePositions with
  | nil =>
    rw [hpositions, List.map_nil, List.map_eq_nil_iff] at hmap
    rw [hmap]
    rfl
  | cons position rest =>
    rw [hpositions, List.map_cons, List.map_eq_cons_iff] at hmap
    obtain ⟨track, later, hlineup, htrack, -⟩ := hmap
    rw [hlineup]
    exact htrack

/-! ### Reads -/

theorem range_eq (queue : TrackQueue) (start stop : Nat) :
    queue.range start stop =
      if start < stop then ((queue.refresh.lineup.drop start).take (stop - start), queue.refresh)
      else ([], queue) := by
  have hpage : ((queue.refresh.activePositions.drop start).take (stop - start)).filterMap
      (queue.refresh.tracks[·]?) = (queue.refresh.lineup.drop start).take (stop - start) := by
    apply filterMap_of_map_lineup
    rw [List.map_take, List.map_drop, map_lineup, List.map_take, List.map_drop]
  simp only [range, hpage]

/-- An empty range reads nothing, however it is placed. -/
theorem range_fst (queue : TrackQueue) (start stop : Nat) :
    (queue.range start stop).1 = (queue.refresh.lineup.drop start).take (stop - start) := by
  rw [range_eq]
  split
  · rfl
  · next hle => rw [Nat.sub_eq_zero_of_le (Nat.not_lt.mp hle), List.take_zero]

theorem ordered_fst (queue : TrackQueue) : queue.ordered.1 = queue.refresh.lineup := by
  have hlength : queue.refresh.lineup.length = queue.size :=
    queue.refresh.length_lineup.trans (size_refresh queue)
  rw [ordered, range_fst, List.drop_zero, Nat.sub_zero, ← hlength, List.take_length]

theorem peek_of_not_sticky {queue : TrackQueue} (h : queue.sticky? = none) :
    queue.peek = (queue.refresh.lineup.head?, queue.refresh) := by
  simp only [peek, h, head?_lineup]

/-- Reads do no more than bring the views up to date. -/
theorem refresh_peek (queue : TrackQueue) : queue.peek.2.refresh = queue.refresh := by
  unfold peek
  split
  · rfl
  · exact queue.refresh_refresh

theorem refresh_range (queue : TrackQueue) (start stop : Nat) :
    (queue.range start stop).2.refresh = queue.refresh := by
  rw [range_eq]
  split
  · exact queue.refresh_refresh
  · rfl

theorem withShuffleView_skipped (queue : TrackQueue) :
    queue.skipped.withShuffleView = queue.withShuffleView.skipped := by
  have hsame : queue.skipped.resolve? queue.skipped.shuffleView =
      queue.resolve? queue.shuffleView := rfl
  simp only [withShuffleView, hsame]
  split <;> rfl

theorem shuffledIfOn_skipped (queue : TrackQueue) :
    queue.skipped.shuffledIfOn = queue.shuffledIfOn.skipped := by
  have hsame : queue.skipped.shuffle = queue.shuffle := rfl
  unfold shuffledIfOn
  rw [hsame, withShuffleView_skipped]
  split <;> rfl

theorem withRoundRobinView_skipped (queue : TrackQueue) :
    queue.skipped.withRoundRobinView = queue.withRoundRobinView.skipped := by
  have hsame : queue.shuffledIfOn.skipped.resolve? queue.shuffledIfOn.skipped.roundRobinView =
      queue.shuffledIfOn.resolve? queue.shuffledIfOn.roundRobinView := rfl
  rw [withRoundRobinView_eq, withRoundRobinView_eq, shuffledIfOn_skipped, hsame]
  split <;> rfl

/-- The views do not depend on what repeat single would give again. -/
theorem refresh_skipped (queue : TrackQueue) : queue.skipped.refresh = queue.refresh.skipped := by
  have hround : queue.skipped.roundRobin = queue.roundRobin := rfl
  have hshuffle : queue.skipped.shuffle = queue.shuffle := rfl
  rw [refresh, refresh, hround, hshuffle, withRoundRobinView_skipped, withShuffleView_skipped]
  split
  · rfl
  · split <;> rfl

/-! ### Takes -/

theorem sticky?_refresh (queue : TrackQueue) : queue.refresh.sticky? = queue.sticky? := by
  simp only [sticky?, queue.refresh_settings.repeatMode, queue.refresh_settings.lastTaken]

/-- A take brings the views up to date itself. -/
theorem take_refresh {queue : TrackQueue} (h : queue.sticky? = none) :
    queue.refresh.take = queue.take := by
  simp only [take, sticky?_refresh, h, refresh_refresh]

theorem take_of_head? {queue : TrackQueue} (hsticky : queue.sticky? = none) {track : Track}
    (h : queue.refresh.lineup.head? = some track) :
    ∃ position, queue.refresh.nextPosition? = some position ∧
      queue.refresh.tracks[position]? = some track ∧
      queue.take = (some (queue.refresh.takeAt position track).1,
        (queue.refresh.takeAt position track).2) := by
  rw [head?_lineup] at h
  obtain ⟨position, hnext, htrack⟩ := Option.bind_eq_some_iff.mp h
  exact ⟨position, hnext, htrack, by simp only [take, hsticky, hnext, htrack]⟩

/-- Unless the last track is given again, a take gives the first track of the active order. -/
theorem map_id_take {queue : TrackQueue} (h : queue.sticky? = none) :
    queue.take.1.map (·.id) = queue.refresh.lineup.head?.map (·.id) := by
  cases hhead : queue.refresh.lineup.head? with
  | some track =>
    obtain ⟨position, -, -, htake⟩ := take_of_head? h hhead
    rw [htake]
    exact congrArg some (takeAt_given _ _ _).1
  | none =>
    rw [List.head?_eq_none_iff] at hhead
    have hempty : queue.refresh.tracks = [] := by
      have hlength := queue.refresh.length_lineup
      rw [hhead] at hlength
      exact List.length_eq_zero_iff.mp hlength.symm
    rcases take_cases queue with ⟨_, hsome, -⟩ | ⟨-, heq⟩ | ⟨-, _, _, -, htrack, -⟩
    · rw [h] at hsome
      cases hsome
    · rw [heq]
    · rw [hempty] at htrack
      cases htrack

/-- What a peek shows, the take after it gives. -/
theorem map_id_take_peek (queue : TrackQueue) :
    queue.peek.2.take.1.map (·.id) = queue.peek.1.map (·.id) := by
  cases hsticky : queue.sticky? with
  | some track => simp only [peek, take, hsticky]
  | none =>
    rw [peek_of_not_sticky hsticky, take_refresh hsticky]
    exact map_id_take hsticky

/-! ### Views after a take -/

theorem resolve?_eq_some {queue : TrackQueue} {stored : Option (List TrackId)}
    {positions : List Nat} (h : queue.resolve? stored = some positions) :
    stored = some ((queue.tracksAt positions).map (·.id)) := by
  obtain ⟨view, hview, hpositions⟩ := Option.bind_eq_some_iff.mp h
  rw [hview, (positions?_eq_some hpositions).2.2]

/-- The active order is that of the view in use. -/
theorem UpToDate.view_of_roundRobin {queue : TrackQueue} (h : queue.UpToDate)
    (hon : queue.roundRobin = true) : queue.roundRobinView = some (queue.lineup.map (·.id)) := by
  obtain ⟨positions, hfits⟩ := Option.isSome_iff_exists.mp (h.dealt hon)
  have hactive : queue.activePositions = positions := by
    rw [activePositions, if_pos hon, hfits, Option.getD_some]
  rw [lineup, hactive]
  exact resolve?_eq_some hfits

theorem UpToDate.view_of_shuffle {queue : TrackQueue} (h : queue.UpToDate)
    (hoff : queue.roundRobin = false) (hon : queue.shuffle = true) :
    queue.shuffleView = some (queue.lineup.map (·.id)) := by
  obtain ⟨positions, hfits⟩ := Option.isSome_iff_exists.mp (h.shuffled hon)
  have hactive : queue.activePositions = positions := by
    rw [activePositions, if_neg (by simp [hoff]), if_pos hon, hfits, Option.getD_some]
  rw [lineup, hactive]
  exact resolve?_eq_some hfits

theorem lineup_of_plain {queue : TrackQueue} (hoff : queue.roundRobin = false)
    (hplain : queue.shuffle = false) : queue.lineup = queue.tracks := by
  rw [lineup, activePositions, if_neg (by simp [hoff]), if_neg (by simp [hplain]),
    tracksAt_basePositions]

section Take

variable {queue : TrackQueue} {position : Nat} {track : Track}

theorem ids_takeAt (h : queue.Coherent) (hmode : queue.repeatMode ≠ .all)
    (htrack : queue.tracks[position]? = some track) :
    (queue.takeAt position track).2.ids = queue.ids.filter (· ≠ track.id) := by
  rw [takeAt_once hmode, ids, ids, ← map_id_filter_ne]
  exact congrArg (List.map (·.id)) (eraseIdx_eq_filter h.ids_nodup htrack)

/-- If a view fits, what a take leaves of it fits what the take leaves of the queue. -/
theorem resolve?_takeAt (h : queue.Coherent) (hmode : queue.repeatMode ≠ .all)
    (htrack : queue.tracks[position]? = some track) {stored : Option (List TrackId)}
    (hpart : ∀ view, stored = some view → view.Subperm queue.ids)
    (hfits : (queue.resolve? stored).isSome = true) :
    ((queue.takeAt position track).2.resolve?
      (stored.map (·.filter (· ≠ track.id)))).isSome = true := by
  obtain ⟨positions, hpositions⟩ := Option.isSome_iff_exists.mp hfits
  obtain ⟨view, hview, hpositions⟩ := Option.bind_eq_some_iff.mp hpositions
  have hperm := perm_of_positions? (hpart view hview) hpositions
  have hleft : (view.filter (· ≠ track.id)).Perm (queue.takeAt position track).2.ids :=
    ids_takeAt h hmode htrack ▸ hperm.filter _
  obtain ⟨later, hlater⟩ := exists_positions? (hleft.length_eq.trans (length_ids _)) hleft.subset
  rw [hview, resolve?, Option.map_some, Option.bind_some, hlater]
  rfl

theorem UpToDate.takeAt (hdate : queue.UpToDate) (h : queue.Coherent)
    (hmode : queue.repeatMode ≠ .all) (htrack : queue.tracks[position]? = some track) :
    (queue.takeAt position track).2.UpToDate := by
  obtain ⟨hshuffled, hdealt⟩ := takeAt_views queue position track
  refine ⟨fun hon => ?_, fun hon => ?_⟩
  · rw [takeAt_once hmode] at hon
    rw [hshuffled]
    exact resolve?_takeAt h hmode htrack h.shuffled_part (hdate.shuffled hon)
  · rw [takeAt_once hmode] at hon
    rw [hdealt]
    exact resolve?_takeAt h hmode htrack h.dealt_part (hdate.dealt hon)

/-- A take strikes its track from the active order. -/
theorem map_id_lineup_takeAt (h : queue.Coherent) (hdate : queue.UpToDate)
    (hmode : queue.repeatMode ≠ .all) (htrack : queue.tracks[position]? = some track) :
    (queue.takeAt position track).2.lineup.map (·.id) =
      (queue.lineup.map (·.id)).filter (· ≠ track.id) := by
  have hlater := hdate.takeAt h hmode htrack
  obtain ⟨hshuffled, hdealt⟩ := takeAt_views queue position track
  have hround : (queue.takeAt position track).2.roundRobin = queue.roundRobin := by
    rw [takeAt_once hmode]
  have hmixed : (queue.takeAt position track).2.shuffle = queue.shuffle := by
    rw [takeAt_once hmode]
  cases hon : queue.roundRobin with
  | true =>
    rw [hdate.view_of_roundRobin hon, hlater.view_of_roundRobin (hround.trans hon)] at hdealt
    exact Option.some.inj hdealt
  | false =>
    cases hshuffle : queue.shuffle with
    | true =>
      rw [hdate.view_of_shuffle hon hshuffle,
        hlater.view_of_shuffle (hround.trans hon) (hmixed.trans hshuffle)] at hshuffled
      exact Option.some.inj hshuffled
    | false =>
      rw [lineup_of_plain hon hshuffle,
        lineup_of_plain (hround.trans hon) (hmixed.trans hshuffle)]
      exact ids_takeAt h hmode htrack

end Take

/-- Under repeat off a take gives the first track of the active order and leaves the others. -/
theorem take_lineup {queue : TrackQueue} (h : queue.Coherent) (hmode : queue.repeatMode = .off) :
    queue.take.1.map (·.id) = (queue.refresh.lineup.map (·.id)).head? ∧
      queue.take.2.refresh.lineup.map (·.id) = (queue.refresh.lineup.map (·.id)).tail ∧
      queue.take.2.Coherent ∧ queue.take.2.repeatMode = .off := by
  have hsticky : queue.sticky? = none := sticky?_of_not_single (by simp [hmode])
  have hleft : queue.refresh.repeatMode ≠ .all := by simp [queue.refresh_settings.repeatMode, hmode]
  have hcoherent := coherent_refresh h
  refine ⟨by rw [map_id_take hsticky, List.head?_map], ?_, coherent_take h, ?_⟩
  · cases hlineup : queue.refresh.lineup with
    | nil =>
      have hnone : queue.take.1 = none := by
        have hid := map_id_take hsticky
        rwa [hlineup, List.head?_nil, Option.map_none, Option.map_eq_none_iff] at hid
      rw [take_of_none hnone, refresh_refresh, hlineup]
      rfl
    | cons track rest =>
      obtain ⟨position, -, htrack, htake⟩ := take_of_head? hsticky (by rw [hlineup]; rfl)
      have hstill := queue.upToDate_refresh.takeAt hcoherent hleft htrack
      have hnodup : (track.id :: rest.map (·.id)).Nodup := by
        rw [← List.map_cons, ← hlineup]
        exact ((tracksAt_activePositions_perm hcoherent).map _).nodup_iff.mpr hcoherent.ids_nodup
      rw [htake, hstill.refresh_eq,
        map_id_lineup_takeAt hcoherent queue.upToDate_refresh hleft htrack, hlineup, List.map_cons,
        List.filter_cons_of_neg (by simp), List.tail_cons, List.filter_eq_self]
      intro id hid
      have hne : id ≠ track.id := fun heq => (List.nodup_cons.mp hnodup).1 (heq ▸ hid)
      simpa using hne
  · exact (take_modes queue).1.trans hmode

/-! ### Listing and taking -/

def pages (queue : TrackQueue) (start : Nat) : List Nat → List Track × TrackQueue
  | [] => ([], queue)
  | stop :: stops =>
    let (page, queue) := queue.range start stop
    let (rest, queue) := queue.pages stop stops
    (page ++ rest, queue)

/-- Whatever is read, the next takes give the listed ids in turn; then they give nothing. -/
structure PlaysOut (queue : TrackQueue) (listed : List TrackId) : Prop where
  taken : ∀ steps : List QueueStep, (∀ step ∈ steps, step.isRead || step.isTake) →
    (steps.foldl after queue).take.1.map (·.id) = listed[steps.countP (·.isTake)]?
  peeked : ∀ steps : List QueueStep, (∀ step ∈ steps, step.isRead || step.isTake) →
    (steps.foldl after queue).peek.1.map (·.id) = listed[steps.countP (·.isTake)]?
  listedAgain : ∀ steps : List QueueStep, (∀ step ∈ steps, step.isRead || step.isTake) →
    (steps.foldl after queue).ordered.1.map (·.id) = listed.drop (steps.countP (·.isTake))

theorem lineup_foldl {queue : TrackQueue} (h : queue.Coherent) (hmode : queue.repeatMode = .off)
    (steps : List QueueStep) (hsteps : ∀ step ∈ steps, step.isRead || step.isTake) :
    (steps.foldl after queue).refresh.lineup.map (·.id) =
        (queue.refresh.lineup.map (·.id)).drop (steps.countP (·.isTake)) ∧
      (steps.foldl after queue).repeatMode = .off := by
  induction steps generalizing queue with
  | nil => exact ⟨rfl, hmode⟩
  | cons step rest ih =>
    have hrest := fun other hother => hsteps other (List.mem_cons_of_mem step hother)
    have hread (hrefresh : (queue.after step).refresh = queue.refresh)
        (hcoherent : (queue.after step).Coherent) (htake : step.isTake = false) :
        ((step :: rest).foldl after queue).refresh.lineup.map (·.id) =
            (queue.refresh.lineup.map (·.id)).drop ((step :: rest).countP (·.isTake)) ∧
          ((step :: rest).foldl after queue).repeatMode = .off := by
      have hstill : (queue.after step).repeatMode = .off := by
        rw [← (queue.after step).refresh_settings.repeatMode, hrefresh,
          queue.refresh_settings.repeatMode, hmode]
      rw [List.countP_cons_of_neg (by simp [htake]), ← hrefresh]
      exact ih hcoherent hstill hrest
    cases step with
    | take =>
      obtain ⟨-, hlineup, hcoherent, hstill⟩ := take_lineup h hmode
      obtain ⟨hlater, hoff⟩ := ih hcoherent hstill hrest
      refine ⟨?_, hoff⟩
      rw [List.countP_cons_of_pos rfl, List.foldl_cons]
      refine hlater.trans ?_
      rw [hlineup, List.drop_tail]
    | peek => exact hread queue.refresh_peek (coherent_after h h.ids_nodup) rfl
    | range start stop =>
      exact hread (queue.refresh_range start stop) (coherent_after h h.ids_nodup) rfl
    | _ => cases hsteps _ List.mem_cons_self

theorem playsOut {queue : TrackQueue} (h : queue.Coherent) (hmode : queue.repeatMode = .off) :
    queue.PlaysOut (queue.ordered.1.map (·.id)) := by
  have hsticky {other : TrackQueue} (hoff : other.repeatMode = .off) : other.sticky? = none :=
    sticky?_of_not_single (by simp [hoff])
  rw [ordered_fst]
  refine ⟨fun steps hsteps => ?_, fun steps hsteps => ?_, fun steps hsteps => ?_⟩
  · obtain ⟨hlineup, hoff⟩ := lineup_foldl h hmode steps hsteps
    rw [map_id_take (hsticky hoff), ← List.head?_map, hlineup, List.head?_drop]
  · obtain ⟨hlineup, hoff⟩ := lineup_foldl h hmode steps hsteps
    rw [peek_of_not_sticky (hsticky hoff), ← List.head?_map, hlineup, List.head?_drop]
  · rw [ordered_fst]
    exact (lineup_foldl h hmode steps hsteps).1

theorem refresh_pages (queue : TrackQueue) (start : Nat) (stops : List Nat) :
    (queue.pages start stops).2.refresh = queue.refresh := by
  induction stops generalizing queue start with
  | nil => rfl
  | cons stop stops ih => exact (ih _ stop).trans (queue.refresh_range start stop)

theorem contained_pages {queue : TrackQueue} (h : queue.Contained) (start : Nat)
    (stops : List Nat) : (queue.pages start stops).2.Contained := by
  induction stops generalizing queue start with
  | nil => exact h
  | cons stop stops ih => exact ih (contained_range h start stop) stop

/-- Pages that cover the queue show all of it, each track once. -/
theorem pages_fst (queue : TrackQueue) {start : Nat} {stops : List Nat}
    (hstops : (start :: stops).Pairwise (· ≤ ·)) (hcover : queue.size ≤ stops.getLastD start) :
    (queue.pages start stops).1 = queue.refresh.lineup.drop start := by
  induction stops generalizing queue start with
  | nil =>
    have hlength : queue.refresh.lineup.length = queue.size :=
      queue.refresh.length_lineup.trans (size_refresh queue)
    exact (List.drop_eq_nil_of_le (hlength ▸ hcover)).symm
  | cons stop stops ih =>
    obtain ⟨hstart, hlater⟩ := List.pairwise_cons.mp hstops
    have hle : start ≤ stop := hstart stop List.mem_cons_self
    have hsize : (queue.range start stop).2.size = queue.size := by
      rw [← length_ids, ids_range, length_ids]
    have hrest := ih (queue.range start stop).2 hlater (by rwa [hsize, ← List.getLastD_cons])
    have hdrop : queue.refresh.lineup.drop stop =
        (queue.refresh.lineup.drop start).drop (stop - start) := by
      rw [List.drop_drop, Nat.add_sub_cancel' hle]
    calc (queue.pages start (stop :: stops)).1
        = (queue.range start stop).1 ++ ((queue.range start stop).2.pages stop stops).1 := rfl
      _ = (queue.refresh.lineup.drop start).take (stop - start) ++
            (queue.refresh.lineup.drop start).drop (stop - start) := by
          rw [hrest, range_fst, refresh_range, hdrop]
      _ = queue.refresh.lineup.drop start := List.take_append_drop _ _

theorem contained_foldl {queue : TrackQueue} (h : queue.Contained) (steps : List QueueStep) :
    (steps.foldl after queue).Contained := by
  induction steps generalizing queue with
  | nil => exact h
  | cons step rest ih => exact ih (contained_after h step)

/-- A queue without repeated ids is listed, in pages or at once, in the order in which it will be
taken, whatever views earlier operations have left; a peek tells the next take in every mode. -/
theorem listed_is_taken (dice : Dice) (steps : List QueueStep) {queue : TrackQueue}
    (hreached : steps.foldl after (empty dice) = queue) (hids : queue.ids.Nodup) :
    (queue.repeatMode = .off →
      queue.PlaysOut (queue.ordered.1.map (·.id)) ∧
      ∀ stops : List Nat, (0 :: stops).Pairwise (· ≤ ·) → queue.size ≤ stops.getLastD 0 →
        (queue.pages 0 stops).1.map (·.id) = queue.ordered.1.map (·.id) ∧
        (queue.pages 0 stops).2.PlaysOut (queue.ordered.1.map (·.id))) ∧
    queue.peek.2.take.1.map (·.id) = queue.peek.1.map (·.id) := by
  have hcontained : queue.Contained := hreached ▸ contained_foldl (contained_empty dice) steps
  refine ⟨fun hmode => ⟨playsOut (hcontained.coherent hids) hmode, ?_⟩, map_id_take_peek queue⟩
  intro stops hstops hcover
  have hrefresh := queue.refresh_pages 0 stops
  have hsame : (queue.pages 0 stops).2.ordered.1 = queue.ordered.1 := by
    rw [ordered_fst, ordered_fst, hrefresh]
  have hpagedIds : (queue.pages 0 stops).2.ids.Nodup := by
    rw [← ids_refresh, hrefresh, ids_refresh]
    exact hids
  have hpagedMode : (queue.pages 0 stops).2.repeatMode = .off := by
    rw [← (queue.pages 0 stops).2.refresh_settings.repeatMode, hrefresh,
      queue.refresh_settings.repeatMode, hmode]
  refine ⟨by rw [pages_fst queue hstops hcover, List.drop_zero, ordered_fst], ?_⟩
  rw [← hsame]
  exact playsOut ((contained_pages hcontained 0 stops).coherent hpagedIds) hpagedMode

def silentlyChanged : List QueueStep :=
  [.setRoundRobin true, .add (sampleTrack 1 firstUser false) false,
    .addAll [sampleTrack 2 firstUser false, sampleTrack 3 secondUser false,
      sampleTrack 4 secondUser true] false,
    .take, .remove ⟨1⟩ true, .add (sampleTrack 5 firstUser false) true, .remove ⟨5⟩ true]

theorem listed_is_taken_silentlyChanged :
    (silentlyChanged.foldl after (empty (.ofSeed 1))).ids.Nodup ∧
    (silentlyChanged.foldl after (empty (.ofSeed 1))).repeatMode = .off ∧
    [0, 1, 1, 2].Pairwise (· ≤ ·) ∧ (silentlyChanged.foldl after (empty (.ofSeed 1))).size ≤ 2 ∧
    ((silentlyChanged.foldl after (empty (.ofSeed 1))).pages 0 [1, 1, 2]).1.map (·.id) =
      (silentlyChanged.foldl after (empty (.ofSeed 1))).ordered.1.map (·.id) :=
  ⟨by decide, rfl, by decide, by decide,
    (((listed_is_taken (.ofSeed 1) silentlyChanged rfl (by decide)).1 rfl).2 [1, 1, 2] (by decide)
      (by decide)).1⟩

end TrackQueue

end Jukebox
