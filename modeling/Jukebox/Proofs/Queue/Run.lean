import Jukebox.Proofs.Queue.Views
import Jukebox.Player.Session

/-!
Runs of a queue: operations one after another, in any order and with any draws. If every id is
added once in a run, every queue that the run reaches is coherent. Some tracks of two users and a
session without any stand at the front, for the fixed runs that go with general statements.
-/
namespace Jukebox

def firstUser : UserId := ⟨1, by decide⟩

def secondUser : UserId := ⟨2, by decide⟩

def sampleTrack (number : UInt64) (requester : UserId) (urgent : Bool) : Track where
  id := ⟨number⟩
  audio := .recording "song" "Song" 180000
  requester := requester
  isPriority := urgent
  sortKey := if urgent then prioritySortKey else 1
  fromPlaylist := false
  chapter := none
  resumeAt := none

def sampleSession : Session where
  guild := ⟨firstUser.word, firstUser.word_ne_zero⟩
  player := .fresh (.ofSeed 1) maxVolume
  node := {}
  services := { catalogue := { mint := { dice := .ofSeed 1 } }, limits := .ok {}, today := 0 }

inductive QueueStep
  | add (track : Track) (silent : Bool)
  | addAll (tracks : List Track) (silent : Bool)
  | take
  | peek
  | range (start stop : Nat)
  | remove (id : TrackId) (silent : Bool)
  | removeAll (ids : List TrackId) (silent : Bool)
  | clear
  | skipped
  | reshuffle
  | setShuffle (on : Bool)
  | setRoundRobin (on : Bool)
  | setRepeat (mode : RepeatMode)

namespace QueueStep

def addedIds : QueueStep → List TrackId
  | .add track _ => [track.id]
  | .addAll tracks _ => tracks.map (·.id)
  | _ => []

/-- Whether an operation removes tracks and leaves the views as they are. -/
def removesSilently : QueueStep → Bool
  | .remove _ silent => silent
  | .removeAll _ silent => silent
  | _ => false

end QueueStep

namespace TrackQueue

def after (queue : TrackQueue) : QueueStep → TrackQueue
  | .add track silent => queue.add track silent
  | .addAll tracks silent => queue.addAll tracks silent
  | .take => queue.take.2
  | .peek => queue.peek.2
  | .range start stop => (queue.range start stop).2
  | .remove id silent => (queue.remove id silent).2
  | .removeAll ids silent => (queue.removeAll ids silent).2
  | .clear => queue.clear
  | .skipped => queue.skipped
  | .reshuffle => queue.reshuffle
  | .setShuffle on => queue.setShuffle on
  | .setRoundRobin on => queue.setRoundRobin on
  | .setRepeat mode => queue.setRepeat mode

/-- Operations one after another, with an account of what they do that is kept beside. -/
def runWith {σ : Type} (note : TrackQueue → QueueStep → σ → σ) :
    List QueueStep → TrackQueue × σ → TrackQueue × σ
  | [], state => state
  | step :: rest, (queue, account) => runWith note rest (queue.after step, note queue step account)

/-! ### Views after the single operations -/

namespace Contained

variable {queue other : TrackQueue}

theorem of_same_views (h : queue.Contained) (hpart : queue.ids.Subperm other.ids)
    (hshuffled : other.shuffleView = queue.shuffleView)
    (hdealt : other.roundRobinView = queue.roundRobinView) : other.Contained where
  shuffled_part := fun view hview => (h.shuffled_part view (hshuffled ▸ hview)).trans hpart
  dealt_part := fun view hview => (h.dealt_part view (hdealt ▸ hview)).trans hpart

/-- Ids may be struck from the queue if they are struck from the views as well. -/
theorem of_filtered_views (h : queue.Contained) (keep : TrackId → Bool)
    (hpart : (queue.ids.filter keep).Subperm other.ids)
    (hshuffled : other.shuffleView = queue.shuffleView.map (·.filter keep))
    (hdealt : other.roundRobinView = queue.roundRobinView.map (·.filter keep)) :
    other.Contained where
  shuffled_part := by
    intro view hview
    rw [hshuffled, Option.map_eq_some_iff] at hview
    obtain ⟨whole, hwhole, rfl⟩ := hview
    exact ((h.shuffled_part whole hwhole).filter keep).trans hpart
  dealt_part := by
    intro view hview
    rw [hdealt, Option.map_eq_some_iff] at hview
    obtain ⟨whole, hwhole, rfl⟩ := hview
    exact ((h.dealt_part whole hwhole).filter keep).trans hpart

theorem of_no_views (hshuffled : other.shuffleView = none) (hdealt : other.roundRobinView = none) :
    other.Contained where
  shuffled_part := by intro view hview; rw [hshuffled] at hview; cases hview
  dealt_part := by intro view hview; rw [hdealt] at hview; cases hview

theorem dropViewsUnless (h : queue.Contained) (silent : Bool) :
    (queue.dropViewsUnless silent).Contained := by
  unfold TrackQueue.dropViewsUnless
  split
  · exact h
  · exact of_no_views rfl rfl

end Contained

theorem ids_dropViewsUnless (queue : TrackQueue) (silent : Bool) :
    (queue.dropViewsUnless silent).ids = queue.ids := by
  unfold dropViewsUnless
  split <;> rfl

theorem ids_place_perm (queue : TrackQueue) (track : Track) :
    (queue.place track).ids.Perm (track.id :: queue.ids) := by
  unfold place ids
  split
  · exact List.Perm.refl _
  · rw [List.map_append]
    exact List.perm_append_singleton _ _

theorem ids_add_perm (queue : TrackQueue) (track : Track) (silent : Bool) :
    (queue.add track silent).ids.Perm (track.id :: queue.ids) := by
  rw [add, ids_dropViewsUnless]
  exact ids_place_perm queue track

theorem contained_add {queue : TrackQueue} (h : queue.Contained) (track : Track)
    (silent : Bool) : (queue.add track silent).Contained := by
  have hpart : queue.ids.Subperm (queue.place track).ids :=
    (List.sublist_cons_self _ _).subperm.trans (ids_place_perm queue track).symm.subperm
  have hplace : (queue.place track).Contained := h.of_same_views hpart rfl rfl
  exact hplace.dropViewsUnless silent

/-- A single track is added like a list of one. -/
theorem addAll_singleton (queue : TrackQueue) (track : Track) (silent : Bool) :
    queue.addAll [track] silent = queue.add track silent := by
  cases hpriority : track.isPriority <;> simp [addAll, add, place, hpriority]

theorem tracks_dropViewsUnless (queue : TrackQueue) (silent : Bool) :
    (queue.dropViewsUnless silent).tracks = queue.tracks := by
  unfold dropViewsUnless
  split <;> rfl

theorem tracks_addAll_perm (queue : TrackQueue) (tracks : List Track) (silent : Bool) :
    (queue.addAll tracks silent).tracks.Perm (tracks ++ queue.tracks) := by
  have hsplit : (tracks.filter (·.isPriority) ++ tracks.filter (! ·.isPriority)).Perm tracks :=
    List.filter_append_perm (·.isPriority) tracks
  have hmove : (tracks.filter (·.isPriority) ++ queue.tracks ++
      tracks.filter (! ·.isPriority)).Perm
      (tracks.filter (·.isPriority) ++ tracks.filter (! ·.isPriority) ++ queue.tracks) := by
    rw [List.append_assoc, List.append_assoc]
    exact List.perm_append_comm.append_left _
  rw [addAll, List.partition_eq_filter_filter, tracks_dropViewsUnless]
  exact hmove.trans (hsplit.append_right queue.tracks)

theorem ids_addAll_perm (queue : TrackQueue) (tracks : List Track) (silent : Bool) :
    (queue.addAll tracks silent).ids.Perm (tracks.map (·.id) ++ queue.ids) := by
  have hids : (tracks ++ queue.tracks).map (·.id) = tracks.map (·.id) ++ queue.ids :=
    List.map_append
  rw [← hids]
  exact (queue.tracks_addAll_perm tracks silent).map _

theorem contained_addAll {queue : TrackQueue} (h : queue.Contained) (tracks : List Track)
    (silent : Bool) : (queue.addAll tracks silent).Contained := by
  have hperm := ids_addAll_perm queue tracks silent
  have hpart := (List.sublist_append_right (tracks.map (·.id)) queue.ids).subperm.trans
    hperm.symm.subperm
  cases silent with
  | true => exact h.of_same_views hpart rfl rfl
  | false => exact Contained.of_no_views rfl rfl

theorem contained_range {queue : TrackQueue} (h : queue.Contained) (start stop : Nat) :
    (queue.range start stop).2.Contained := by
  unfold range
  split
  · exact contained_refresh h
  · exact h

theorem ids_range (queue : TrackQueue) (start stop : Nat) :
    (queue.range start stop).2.ids = queue.ids := by
  unfold range
  split
  · exact ids_refresh queue
  · rfl

theorem contained_peek {queue : TrackQueue} (h : queue.Contained) : queue.peek.2.Contained := by
  unfold peek
  split
  · exact h
  · exact contained_refresh h

theorem ids_peek (queue : TrackQueue) : queue.peek.2.ids = queue.ids := by
  unfold peek
  split
  · rfl
  · exact ids_refresh queue

/-! ### Taking -/

theorem ids_eraseIdx_perm {tracks : List Track} {position : Nat} {track : Track}
    (h : tracks[position]? = some track) :
    (tracks.map (·.id)).Perm (track.id :: (tracks.eraseIdx position).map (·.id)) := by
  obtain ⟨hlt, hget⟩ := List.getElem?_eq_some_iff.mp h
  have hperm := (List.getElem_cons_eraseIdx_perm hlt).map (·.id)
  rw [hget, List.map_cons] at hperm
  exact hperm.symm

theorem filter_part_of_perm {ids rest : List TrackId} {id : TrackId}
    (h : ids.Perm (id :: rest)) : (ids.filter (· ≠ id)).Subperm rest := by
  have hperm := h.filter (· ≠ id)
  rw [List.filter_cons_of_neg (by simp)] at hperm
  exact hperm.subperm.trans (List.filter_sublist).subperm

theorem demote_isPriority (track : Track) (dice : Dice) :
    (track.demote dice).1.isPriority = false := by
  unfold Track.demote
  split
  · rfl
  · next h => simpa using h

/-- Under repeat all the taken track comes back at the end of the base list. -/
theorem takeAt_all {queue : TrackQueue} (hmode : queue.repeatMode = .all) (position : Nat)
    (track : Track) :
    queue.takeAt position track =
      ((track.demote queue.dice).1,
        { queue with
          tracks := queue.tracks.eraseIdx position ++ [(track.demote queue.dice).1.fromStart]
          shuffleView := queue.shuffleView.map (·.filter (· ≠ track.id))
          roundRobinView := queue.roundRobinView.map (·.filter (· ≠ track.id))
          lastTaken := some (track.demote queue.dice).1.fromStart
          anchor := some (track.demote queue.dice).1.requester
          dice := (track.demote queue.dice).2 }) := by
  have hordinary : (track.demote queue.dice).1.fromStart.isPriority = false :=
    demote_isPriority track queue.dice
  simp only [takeAt, requeue, forget, hmode, if_true, add, place, hordinary, dropViewsUnless]
  rfl

theorem takeAt_once {queue : TrackQueue} (hmode : queue.repeatMode ≠ .all) (position : Nat)
    (track : Track) :
    queue.takeAt position track =
      (track,
        { queue with
          tracks := queue.tracks.eraseIdx position
          shuffleView := queue.shuffleView.map (·.filter (· ≠ track.id))
          roundRobinView := queue.roundRobinView.map (·.filter (· ≠ track.id))
          lastTaken := some track.fromStart
          anchor := some track.requester }) := by
  simp only [takeAt, requeue, forget, hmode, if_false]

theorem takeAt_views (queue : TrackQueue) (position : Nat) (track : Track) :
    (queue.takeAt position track).2.shuffleView =
        queue.shuffleView.map (·.filter (· ≠ track.id)) ∧
      (queue.takeAt position track).2.roundRobinView =
        queue.roundRobinView.map (·.filter (· ≠ track.id)) := by
  by_cases hmode : queue.repeatMode = .all
  · rw [takeAt_all hmode]
    exact ⟨rfl, rfl⟩
  · rw [takeAt_once hmode]
    exact ⟨rfl, rfl⟩

theorem demote_requester (track : Track) (dice : Dice) :
    (track.demote dice).1.requester = track.requester := by
  unfold Track.demote
  split <;> rfl

theorem demote_id (track : Track) (dice : Dice) :
    (track.demote dice).1.id = track.id := by
  unfold Track.demote
  split <;> rfl

/-- The track that is given is the one that was found, except that repeat all demotes it. -/
theorem takeAt_given (queue : TrackQueue) (position : Nat) (track : Track) :
    (queue.takeAt position track).1.id = track.id ∧
      (queue.takeAt position track).1.requester = track.requester := by
  by_cases hmode : queue.repeatMode = .all
  · rw [takeAt_all hmode]
    exact ⟨demote_id track queue.dice, demote_requester track queue.dice⟩
  · rw [takeAt_once hmode]
    exact ⟨rfl, rfl⟩

/-- Outside repeat all a taken id leaves the queue. -/
theorem ids_takeAt_perm {queue : TrackQueue} {position : Nat} {track : Track}
    (h : queue.tracks[position]? = some track) (hmode : queue.repeatMode ≠ .all) :
    queue.ids.Perm (track.id :: (queue.takeAt position track).2.ids) := by
  rw [takeAt_once hmode]
  exact ids_eraseIdx_perm h

/-- Under repeat all a taken id stays in the queue. -/
theorem ids_takeAt_all_perm {queue : TrackQueue} {position : Nat} {track : Track}
    (h : queue.tracks[position]? = some track) (hmode : queue.repeatMode = .all) :
    queue.ids.Perm (queue.takeAt position track).2.ids := by
  have hperm := (ids_eraseIdx_perm h).trans (List.perm_append_singleton track.id _).symm
  rw [takeAt_all hmode]
  simpa only [ids, List.map_append, List.map_cons, List.map_nil, Track.fromStart, demote_id]
    using hperm

theorem contained_takeAt {queue : TrackQueue} (h : queue.Contained) {position : Nat}
    {track : Track} (htrack : queue.tracks[position]? = some track) :
    (queue.takeAt position track).2.Contained := by
  obtain ⟨hshuffled, hdealt⟩ := takeAt_views queue position track
  by_cases hmode : queue.repeatMode = .all
  · have hperm := ids_takeAt_all_perm htrack hmode
    exact h.of_filtered_views (· ≠ track.id)
      (List.filter_sublist.subperm.trans hperm.subperm) hshuffled hdealt
  · have hperm := ids_takeAt_perm htrack hmode
    exact h.of_filtered_views (· ≠ track.id) (filter_part_of_perm hperm) hshuffled hdealt

theorem coherent_takeAt {queue : TrackQueue} (h : queue.Coherent) {position : Nat}
    {track : Track} (htrack : queue.tracks[position]? = some track) :
    (queue.takeAt position track).2.Coherent := by
  refine (contained_takeAt h.contained htrack).coherent ?_
  by_cases hmode : queue.repeatMode = .all
  · exact (ids_takeAt_all_perm htrack hmode).nodup_iff.mp h.ids_nodup
  · exact ((ids_takeAt_perm htrack hmode).nodup_iff.mp h.ids_nodup).of_cons

/-- What a take does: it gives the sticky track and changes nothing, or it finds nothing, or it
takes out the track at the first position of the active order. -/
theorem take_cases (queue : TrackQueue) :
    (∃ track, queue.sticky? = some track ∧ queue.take = (some track, queue)) ∨
    (queue.sticky? = none ∧ queue.take = (none, queue.refresh)) ∨
    (queue.sticky? = none ∧ ∃ position track,
      queue.refresh.nextPosition? = some position ∧
      queue.refresh.tracks[position]? = some track ∧
      queue.take = (some (queue.refresh.takeAt position track).1,
        (queue.refresh.takeAt position track).2)) := by
  cases hsticky : queue.sticky? with
  | some track => exact Or.inl ⟨track, rfl, by simp only [take, hsticky]⟩
  | none =>
    right
    cases hposition : queue.refresh.nextPosition? with
    | none => exact Or.inl ⟨rfl, by simp only [take, hsticky, hposition]⟩
    | some position =>
      cases htrack : queue.refresh.tracks[position]? with
      | none => exact Or.inl ⟨rfl, by simp only [take, hsticky, hposition, htrack]⟩
      | some track =>
        refine Or.inr ⟨rfl, position, track, rfl, htrack, ?_⟩
        simp only [take, hsticky, hposition, htrack]

/-- A track that is given, and is not the sticky one, was the first of the active order. -/
theorem exists_takeAt_of_take {queue : TrackQueue} (hsticky : queue.sticky? = none) {given : Track}
    (hgiven : queue.take.1 = some given) : ∃ position found,
      queue.refresh.nextPosition? = some position ∧
      queue.refresh.tracks[position]? = some found ∧
      given = (queue.refresh.takeAt position found).1 := by
  rcases take_cases queue with
    ⟨_, hsome, _⟩ | ⟨_, heq⟩ | ⟨_, position, found, hnext, hfound, heq⟩
  · rw [hsticky] at hsome
    cases hsome
  · rw [heq] at hgiven
    cases hgiven
  · rw [heq] at hgiven
    exact ⟨position, found, hnext, hfound, (Option.some.inj hgiven).symm⟩

theorem contained_take {queue : TrackQueue} (h : queue.Contained) : queue.take.2.Contained := by
  rcases take_cases queue with ⟨track, _, heq⟩ | ⟨_, heq⟩ | ⟨_, position, track, _, htrack, heq⟩
  · rw [heq]
    exact h
  · rw [heq]
    exact contained_refresh h
  · rw [heq]
    exact contained_takeAt (contained_refresh h) htrack

/-! ### Removing -/

theorem ids_remove_perm {queue : TrackQueue} {id : TrackId} {track : Track}
    (h : queue.tracks.find? (·.id = id) = some track) (silent : Bool) :
    queue.ids.Perm (id :: (queue.remove id silent).2.ids) := by
  have hmem : track ∈ queue.tracks := List.mem_of_find?_eq_some h
  have hid : track.id = id := by simpa using List.find?_some h
  obtain ⟨found, before, rest, _, hfound, hsplit, herase⟩ :=
    List.exists_of_eraseP (p := fun other : Track => other.id = id) hmem (by simpa using hid)
  have heq : found.id = id := by simpa using hfound
  simp only [remove, h, ids_dropViewsUnless]
  change (queue.tracks.map (·.id)).Perm
    (id :: (queue.tracks.eraseP fun track => track.id = id).map (·.id))
  rw [herase, hsplit, List.map_append, List.map_append, List.map_cons, heq]
  exact List.perm_middle

theorem contained_remove {queue : TrackQueue} (h : queue.Contained) (id : TrackId)
    (silent : Bool) : (queue.remove id silent).2.Contained := by
  cases hfind : queue.tracks.find? (·.id = id) with
  | none =>
    simp only [remove, hfind]
    exact h
  | some track =>
    have hpart := filter_part_of_perm (ids_remove_perm hfind silent)
    cases silent with
    | true =>
      refine h.of_filtered_views (· ≠ id) hpart ?_ ?_
      · simp only [remove, hfind, dropViewsUnless, if_true, forget]
      · simp only [remove, hfind, dropViewsUnless, if_true, forget]
    | false =>
      simp only [remove, hfind]
      exact Contained.of_no_views rfl rfl

theorem filter_filter_notMem (ids : List TrackId) (id : TrackId) (view : List TrackId) :
    (view.filter (· ≠ id)).filter (· ∉ ids) = view.filter (· ∉ id :: ids) := by
  rw [List.filter_filter]
  apply List.filter_congr
  intro other _
  simp [Bool.and_comm]

theorem foldl_forget (removed : List Track) (queue : TrackQueue) :
    removed.foldl (fun queue track => queue.forget track.id) queue =
      { queue with
        shuffleView := queue.shuffleView.map (·.filter (· ∉ removed.map (·.id)))
        roundRobinView := queue.roundRobinView.map (·.filter (· ∉ removed.map (·.id))) } := by
  induction removed generalizing queue with
  | nil => simp
  | cons track rest ih =>
    rw [List.foldl_cons, ih]
    simp only [forget, Option.map_map, Function.comp_def, filter_filter_notMem, List.map_cons]

/-- The queue without the listed tracks, which are struck from the views as well. -/
def strike (queue : TrackQueue) (ids : List TrackId) : TrackQueue :=
  let gone := (queue.tracks.filter (·.id ∈ ids)).map (·.id)
  { queue with
    tracks := queue.tracks.filter (·.id ∉ ids)
    shuffleView := queue.shuffleView.map (·.filter (· ∉ gone))
    roundRobinView := queue.roundRobinView.map (·.filter (· ∉ gone)) }

theorem removeAll_eq (queue : TrackQueue) (ids : List TrackId) (silent : Bool) :
    queue.removeAll ids silent =
      (queue.tracks.filter (·.id ∈ ids), (queue.strike ids).dropViewsUnless silent) := by
  have hkept : queue.tracks.filter (not ∘ fun track => decide (track.id ∈ ids)) =
      queue.tracks.filter (·.id ∉ ids) :=
    List.filter_congr (by intro track _; simp)
  simp only [removeAll, List.partition_eq_filter_filter, foldl_forget, hkept, strike]

theorem filter_notMem_part {ids rest gone : List TrackId} (h : ids.Perm (rest ++ gone)) :
    (ids.filter (· ∉ gone)).Subperm rest := by
  have hgone : gone.filter (· ∉ gone) = [] := by
    rw [List.filter_eq_nil_iff]
    intro id hid
    simpa using hid
  have hperm := h.filter (· ∉ gone)
  rw [List.filter_append, hgone, List.append_nil] at hperm
  exact hperm.subperm.trans List.filter_sublist.subperm

theorem ids_removeAll_perm (queue : TrackQueue) (ids : List TrackId) (silent : Bool) :
    queue.ids.Perm ((queue.removeAll ids silent).2.ids ++
      (queue.removeAll ids silent).1.map (·.id)) := by
  have hnot : (queue.tracks.filter fun track => !decide (track.id ∈ ids)) =
      queue.tracks.filter (·.id ∉ ids) :=
    List.filter_congr (by intro track _; simp)
  have hperm := (List.filter_append_perm (·.id ∈ ids) queue.tracks).map (·.id)
  rw [List.map_append, hnot] at hperm
  rw [removeAll_eq, ids_dropViewsUnless]
  exact hperm.symm.trans List.perm_append_comm

theorem contained_removeAll {queue : TrackQueue} (h : queue.Contained) (ids : List TrackId)
    (silent : Bool) : (queue.removeAll ids silent).2.Contained := by
  have hperm := ids_removeAll_perm queue ids silent
  rw [removeAll_eq, ids_dropViewsUnless] at hperm
  have hstruck : (queue.strike ids).Contained :=
    h.of_filtered_views _ (filter_notMem_part hperm) rfl rfl
  rw [removeAll_eq]
  exact hstruck.dropViewsUnless silent

/-! ### Coherence of runs -/

/-- The ids that leave the queue in an operation: what is taken outside repeat all, unless the
sticky track is given, what is removed, and what is cleared away. -/
def departing (queue : TrackQueue) : QueueStep → List TrackId
  | .take =>
    if queue.sticky?.isNone && queue.repeatMode ≠ .all then (queue.take.1.map (·.id)).toList
    else []
  | .remove id silent => ((queue.remove id silent).1.map (·.id)).toList
  | .removeAll ids silent => (queue.removeAll ids silent).1.map (·.id)
  | .clear => queue.ids
  | _ => []

theorem ids_take_perm (queue : TrackQueue) :
    queue.ids.Perm (queue.take.2.ids ++ queue.departing .take) := by
  rcases take_cases queue with
    ⟨track, hsticky, heq⟩ | ⟨hsticky, heq⟩ | ⟨hsticky, position, track, _, htrack, heq⟩
  · simp [departing, hsticky, heq]
  · simp [departing, heq, ids_refresh]
  · have hmode : queue.refresh.repeatMode = queue.repeatMode := queue.refresh_settings.repeatMode
    have hids := queue.ids_refresh
    by_cases hall : queue.repeatMode = .all
    · have hperm := ids_takeAt_all_perm htrack (hmode.trans hall)
      rw [hids] at hperm
      simpa [departing, hall, heq] using hperm
    · have hleave : queue.refresh.repeatMode ≠ .all := hmode ▸ hall
      have hperm := ids_takeAt_perm htrack hleave
      rw [hids] at hperm
      have hgiven : queue.take.1 = some track := by rw [heq, takeAt_once hleave]
      have hdeparting : queue.departing .take = [track.id] := by
        simp [departing, hsticky, hall, hgiven]
      rw [hdeparting, heq]
      exact hperm.trans (List.perm_append_singleton _ _).symm

theorem ids_remove_departing_perm (queue : TrackQueue) (id : TrackId) (silent : Bool) :
    queue.ids.Perm
      ((queue.remove id silent).2.ids ++ queue.departing (.remove id silent)) := by
  cases hfind : queue.tracks.find? (·.id = id) with
  | none =>
    have heq : queue.remove id silent = (none, queue) := by simp only [remove, hfind]
    simp [departing, heq]
  | some track =>
    have hperm := ids_remove_perm hfind silent
    have hid : track.id = id := by simpa using List.find?_some hfind
    have hgone : (queue.remove id silent).1 = some track := by simp only [remove, hfind]
    have hdeparting : queue.departing (.remove id silent) = [id] := by
      simp [departing, hgone, hid]
    rw [hdeparting]
    exact hperm.trans (List.perm_append_singleton _ _).symm

/-- An operation keeps every id: what was there or is added stays or departs. -/
theorem ids_after_perm (queue : TrackQueue) (step : QueueStep) :
    (step.addedIds ++ queue.ids).Perm ((queue.after step).ids ++ queue.departing step) := by
  cases step with
  | add track silent =>
    simpa [QueueStep.addedIds, after, departing] using (ids_add_perm queue track silent).symm
  | addAll tracks silent =>
    simpa [QueueStep.addedIds, after, departing] using (ids_addAll_perm queue tracks silent).symm
  | take => exact ids_take_perm queue
  | peek => simp [QueueStep.addedIds, after, departing, ids_peek]
  | range start stop => simp [QueueStep.addedIds, after, departing, ids_range]
  | remove id silent => exact ids_remove_departing_perm queue id silent
  | removeAll ids silent => exact ids_removeAll_perm queue ids silent
  | clear => simp [QueueStep.addedIds, after, departing, clear, ids]
  | skipped | reshuffle | setShuffle | setRoundRobin | setRepeat =>
    simp only [QueueStep.addedIds, after, departing, List.nil_append, List.append_nil]
    exact List.Perm.refl _

/-- In every operation the views stay parts of the queue, even if ids are queued twice. -/
theorem contained_after {queue : TrackQueue} (h : queue.Contained) (step : QueueStep) :
    (queue.after step).Contained := by
  cases step with
  | add track silent => exact contained_add h track silent
  | addAll tracks silent => exact contained_addAll h tracks silent
  | take => exact contained_take h
  | peek => exact contained_peek h
  | range start stop => exact contained_range h start stop
  | remove id silent => exact contained_remove h id silent
  | removeAll ids silent => exact contained_removeAll h ids silent
  | clear | reshuffle | setShuffle => exact Contained.of_no_views rfl rfl
  | skipped | setRepeat => exact ⟨h.shuffled_part, h.dealt_part⟩
  | setRoundRobin on => exact ⟨h.shuffled_part, nofun⟩

theorem coherent_after {queue : TrackQueue} (h : queue.Coherent) {step : QueueStep}
    (hnew : (step.addedIds ++ queue.ids).Nodup) : (queue.after step).Coherent := by
  refine (contained_after h.contained step).coherent ?_
  exact (List.nodup_append.mp ((ids_after_perm queue step).nodup_iff.mp hnew)).1

theorem coherent_take {queue : TrackQueue} (h : queue.Coherent) : queue.take.2.Coherent := by
  have hnew : (QueueStep.take.addedIds ++ queue.ids).Nodup := h.ids_nodup
  exact coherent_after h hnew

end TrackQueue

namespace QueueStep

def allAddedIds (steps : List QueueStep) : List TrackId := steps.flatMap addedIds

/-- No id is added twice. -/
def Fresh (steps : List QueueStep) : Prop := (allAddedIds steps).Nodup

instance (steps : List QueueStep) : Decidable (Fresh steps) :=
  inferInstanceAs (Decidable (allAddedIds steps).Nodup)

end QueueStep

namespace TrackQueue

variable {σ : Type}

/-- Ids that are new to a run stay new after its first operation. -/
theorem nodup_after {queue : TrackQueue} {step : QueueStep} {later : List TrackId}
    (h : (step.addedIds ++ later ++ queue.ids).Nodup) :
    (step.addedIds ++ queue.ids).Nodup ∧ (later ++ (queue.after step).ids).Nodup := by
  have hmoved : (later ++ (step.addedIds ++ queue.ids)).Nodup := by
    rw [← List.append_assoc]
    exact (List.perm_append_comm.append_right queue.ids).nodup_iff.mp h
  have hperm := (ids_after_perm queue step).append_left later
  rw [hperm.nodup_iff, ← List.append_assoc] at hmoved
  have hnow := (ids_after_perm queue step).nodup_iff
  refine ⟨?_, (List.nodup_append.mp hmoved).1⟩
  rw [List.append_assoc] at h
  have hsub : (step.addedIds ++ queue.ids).Sublist (step.addedIds ++ (later ++ queue.ids)) :=
    List.Sublist.append_left (List.sublist_append_right later queue.ids) _
  exact h.sublist hsub

theorem coherent_runWith_of_nodup (note : TrackQueue → QueueStep → σ → σ)
    {queue : TrackQueue} (h : queue.Coherent) (steps : List QueueStep)
    (hnew : (QueueStep.allAddedIds steps ++ queue.ids).Nodup) (account : σ) :
    (runWith note steps (queue, account)).1.Coherent := by
  induction steps generalizing queue account with
  | nil => exact h
  | cons step rest ih =>
    obtain ⟨hnow, hlater⟩ := nodup_after hnew
    exact ih (coherent_after h hnow) hlater _

/-- Every queue that a run with new ids reaches is coherent. -/
theorem coherent_runWith (note : TrackQueue → QueueStep → σ → σ) (dice : Dice)
    {steps : List QueueStep} (fresh : QueueStep.Fresh steps) (account : σ) :
    (runWith note steps (empty dice, account)).1.Coherent := by
  refine coherent_runWith_of_nodup note (coherent_empty dice) steps ?_ account
  simpa [QueueStep.Fresh, ids, empty] using fresh

end TrackQueue

end Jukebox
