import Jukebox.Proofs.Queue.Turns

/-!
Fairness of round robin over whole runs. Beside a run it is noted which track was given last and
for whom the stored view was dealt, the latter as long as only priority tracks have been taken from
the view. A take is unfair to those who wait exactly if such a view goes on to the very user whose
priority track was given last: the rotation was fixed before that track was taken.
-/
namespace Jukebox

open RoundRobin

def TrackQueue.isUrgent (queue : TrackQueue) (id : TrackId) : Bool :=
  queue.tracks.any fun track => track.id = id && track.isPriority

structure Turn where
  /-- The track given last since the queue was cleared. -/
  previous : Option Track := none
  /-- The requester after whom the stored view was dealt, as long as only priority tracks have
  been taken from it. -/
  dealtFor : Option (Option UserId) := none

namespace Turn

/-- A look deals a new view unless the stored one stands. -/
def look (queue : TrackQueue) (turn : Turn) : Turn :=
  if queue.roundRobin && ! queue.viewStands then { turn with dealtFor := some queue.anchor }
  else turn

def note (queue : TrackQueue) (step : QueueStep) (turn : Turn) : Turn :=
  match step with
  | .take =>
    match queue.sticky?, queue.take.1 with
    | some given, _ => { turn with previous := some given }
    | none, none => turn.look queue
    | none, some given =>
      { previous := some given
        dealtFor := if queue.isUrgent given.id then (turn.look queue).dealtFor else none }
  | .peek => if queue.sticky?.isSome then turn else turn.look queue
  | .range start stop => if start < stop then turn.look queue else turn
  | .clear => {}
  | _ => turn

end Turn

namespace TrackQueue

def ordinaryTracks (queue : TrackQueue) : List Track :=
  queue.dealingTracks.filter (! ·.isPriority)

/-- A view that is as it was dealt for somebody, less priority tracks, or else what is left of its
rounds. -/
def ViewAsDealt (queue : TrackQueue) : Option (Option UserId) → Prop
  | some anchor => queue.roundRobinView = some ((order queue.dealingTracks anchor).map (·.id))
  | none => ∃ left : List Track, left ⊆ queue.tracks ∧
      queue.roundRobinView = some (left.map (·.id)) ∧ (∀ track ∈ left, track.isPriority = false) ∧
      Fair (queue.anchor.toList ++ left.map (·.requester))

structure TurnKept (queue : TrackQueue) (turn : Turn) : Prop where
  coherent : queue.Coherent
  anchor_eq : queue.anchor = turn.previous.map (·.requester)
  remembered : ∀ track, queue.lastTaken = some track → queue.anchor = some track.requester
  off : queue.roundRobin = false → queue.roundRobinView = none
  stands : queue.roundRobin = true → queue.viewStands = true → queue.ViewAsDealt turn.dealtFor

theorem turnKept_empty (dice : Dice) : TurnKept (empty dice) {} where
  coherent := coherent_empty dice
  anchor_eq := rfl
  remembered := by intro track h; cases h
  off := fun _ => rfl
  stands := by intro h; cases h

/-! ### Looking -/

theorem turnKept_look {queue : TrackQueue} {turn : Turn} (h : TurnKept queue turn) :
    TurnKept queue.refresh (turn.look queue) := by
  have hsettings := queue.refresh_settings
  have hprevious : (turn.look queue).previous = turn.previous := by
    unfold Turn.look
    split <;> rfl
  refine ⟨coherent_refresh h.coherent, ?_, ?_, ?_, ?_⟩
  · rw [hsettings.anchor, hprevious]
    exact h.anchor_eq
  · intro track hlast
    rw [hsettings.anchor]
    exact h.remembered track (hsettings.lastTaken ▸ hlast)
  · intro hoff
    have hoff : queue.roundRobin = false := hsettings.roundRobin.symm.trans hoff
    have hview := h.off hoff
    rw [refresh, if_neg (by simp [hoff])]
    split
    · unfold withShuffleView
      split
      · exact hview
      · rfl
    · exact hview
  · intro hon _
    have hon : queue.roundRobin = true := hsettings.roundRobin.symm.trans hon
    rw [refresh_of_roundRobin hon]
    cases hstands : queue.viewStands with
    | true =>
      simpa [Turn.look, hstands] using h.stands hon hstands
    | false =>
      have hnoted : (turn.look queue).dealtFor = some queue.anchor := by
        simp [Turn.look, hon, hstands]
      rw [hnoted, ← queue.shuffledIfOn_settings.anchor]
      rfl

theorem turnKept_peek {queue : TrackQueue} {turn : Turn} (h : TurnKept queue turn) :
    TurnKept queue.peek.2 (turn.note queue .peek) := by
  cases hsticky : queue.sticky? with
  | some track =>
    simpa [peek, Turn.note, hsticky] using h
  | none =>
    simpa [peek, Turn.note, hsticky] using turnKept_look h

theorem turnKept_range {queue : TrackQueue} {turn : Turn} (h : TurnKept queue turn)
    (start stop : Nat) :
    TurnKept (queue.range start stop).2 (turn.note queue (.range start stop)) := by
  by_cases hlt : start < stop
  · simpa [range, Turn.note, hlt] using turnKept_look h
  · simpa [range, Turn.note, hlt] using h

/-! ### Taking -/

theorem isUrgent_refresh (queue : TrackQueue) (id : TrackId) :
    queue.refresh.isUrgent id = queue.isUrgent id := by
  have hmap := queue.refresh_map (fun track => (track.id, track.isPriority)) (fun _ _ => rfl)
  have hany : ∀ tracks : List Track, tracks.any (fun track => track.id = id && track.isPriority) =
      (tracks.map fun track => (track.id, track.isPriority)).any
        (fun traits => traits.1 = id && traits.2) := by
    intro tracks
    rw [List.any_map]
    rfl
  rw [isUrgent, isUrgent, hany, hmap, ← hany]

theorem isUrgent_of_mem {queue : TrackQueue} (hids : queue.ids.Nodup) {track : Track}
    (h : track ∈ queue.tracks) : queue.isUrgent track.id = track.isPriority := by
  cases hpriority : track.isPriority with
  | true =>
    rw [isUrgent, List.any_eq_true]
    exact ⟨track, h, by simp [hpriority]⟩
  | false =>
    rw [isUrgent, List.any_eq_false]
    intro other hother
    by_cases heq : other.id = track.id
    · have hsame : other = track := List.inj_on_of_nodup_map hids hother h heq
      simp [hsame, hpriority]
    · simp [heq]

/-- The first track of a list whose ids begin with the id of a queued track is that track. -/
theorem exists_cons_of_map_id {queue : TrackQueue} (hids : queue.ids.Nodup) {track : Track}
    (htrack : track ∈ queue.tracks) {list : List Track} (hlist : list ⊆ queue.tracks)
    {rest : List TrackId} (h : list.map (·.id) = track.id :: rest) :
    ∃ others, list = track :: others ∧ others.map (·.id) = rest := by
  cases list with
  | nil => cases h
  | cons first others =>
    obtain ⟨hfirst, hothers⟩ := List.cons.inj h
    have hsame : first = track :=
      List.inj_on_of_nodup_map hids (hlist (List.mem_cons_self ..)) htrack hfirst
    exact ⟨others, by rw [hsame], hothers⟩

theorem order_subset (queue : TrackQueue) (anchor : Option UserId) :
    order queue.dealingTracks anchor ⊆ queue.tracks := by
  intro track hmem
  exact tracksAt_subset _ _ ((order_perm queue.dealingTracks anchor).subset hmem)

/-- A priority track that is struck from the dealing order is struck from the dealt view. -/
theorem order_filter_ne {tracks : List Track} (hids : (tracks.map (·.id)).Nodup) {track : Track}
    (htrack : track ∈ tracks) (hpriority : track.isPriority = true) (anchor : Option UserId) :
    order (tracks.filter (·.id ≠ track.id)) anchor =
      (order tracks anchor).filter (·.id ≠ track.id) := by
  have hordinary : (tracks.filter (·.id ≠ track.id)).filter (! ·.isPriority) =
      tracks.filter (! ·.isPriority) := by
    rw [List.filter_filter]
    apply List.filter_congr
    intro other hother
    by_cases heq : other.id = track.id
    · have hsame : other = track := List.inj_on_of_nodup_map hids hother htrack heq
      simp [hsame, hpriority]
    · simp [heq]
  have hrounds : (rounds anchor (tracks.filter (! ·.isPriority))).filter (·.id ≠ track.id) =
      rounds anchor (tracks.filter (! ·.isPriority)) := by
    rw [List.filter_eq_self]
    intro other hother
    obtain ⟨hmem, hplain⟩ := List.mem_filter.mp ((rounds_perm anchor _).subset hother)
    have hne : other.id ≠ track.id := by
      intro heq
      have hsame : other = track := List.inj_on_of_nodup_map hids hmem htrack heq
      simp [hsame, hpriority] at hplain
    simpa using hne
  rw [order_eq, order_eq, hordinary, List.filter_append, hrounds, List.filter_filter,
    List.filter_filter]
  congr 2
  funext other
  exact Bool.and_comm _ _

/-- Under repeat all the view is one id short after a take. -/
theorem not_viewStands_takeAt_all {queue : TrackQueue} (h : queue.Coherent)
    (hstands : queue.viewStands = true) (hmode : queue.repeatMode = .all) {position : Nat}
    {track : Track} (htrack : queue.tracks[position]? = some track) :
    (queue.takeAt position track).2.viewStands = false := by
  apply not_viewStands_of_short
  intro later hlater
  obtain ⟨view, hview, hperm⟩ := view_perm h hstands
  rw [(takeAt_views queue position track).2, hview, Option.map_some] at hlater
  have hlater := Option.some.inj hlater
  have hin : track.id ∈ view :=
    hperm.mem_iff.mpr (List.mem_map_of_mem (List.mem_of_getElem? htrack))
  have hshort : later.length < view.length := by
    rw [← hlater, List.length_filter_lt_length_iff_exists]
    exact ⟨track.id, hin, by simp⟩
  have hsize := (ids_takeAt_all_perm htrack hmode).length_eq
  rw [length_ids, length_ids] at hsize
  rw [hperm.length_eq, length_ids, hsize] at hshort
  exact hshort

/-- The take of the first id of the view leaves the rest of the view. -/
theorem view_takeAt {queue : TrackQueue} (h : queue.Coherent) {track : Track}
    {rest : List TrackId} (hview : queue.roundRobinView = some (track.id :: rest))
    (position : Nat) : (queue.takeAt position track).2.roundRobinView = some rest := by
  have hnodup : (track.id :: rest).Nodup := by
    obtain ⟨whole, hwhole, hperm⟩ := h.dealt_part _ hview
    exact hwhole.nodup_iff.mp (h.ids_nodup.sublist hperm)
  have hrest : rest.filter (· ≠ track.id) = rest := by
    rw [List.filter_eq_self]
    intro id hid
    have hne : id ≠ track.id := fun heq => (List.nodup_cons.mp hnodup).1 (heq ▸ hid)
    simpa using hne
  rw [(takeAt_views queue position track).2, hview, Option.map_some,
    List.filter_cons_of_neg (by simp), hrest]

/-- If the view begins with an ordinary track, the take leaves rounds. -/
theorem roundsLeft_takeAt {queue : TrackQueue} (h : queue.Coherent)
    (hmode : queue.repeatMode ≠ .all) {position : Nat} {track : Track} {others : List Track}
    (htrack : queue.tracks[position]? = some track) (hsub : others ⊆ queue.tracks)
    (hview : queue.roundRobinView = some (track.id :: others.map (·.id)))
    (hordinary : ∀ other ∈ others, other.isPriority = false)
    (hfair : Fair (track.requester :: others.map (·.requester))) :
    (queue.takeAt position track).2.ViewAsDealt none := by
  have hleft := view_takeAt h hview position
  refine ⟨others, ?_, hleft, hordinary, ?_⟩
  · intro other hother
    have hin : other.id ∈ (queue.takeAt position track).2.ids := by
      have hpart := (coherent_takeAt h htrack).dealt_part _ hleft
      exact hpart.subset (List.mem_map_of_mem hother)
    obtain ⟨found, hfound, hid⟩ := List.mem_map.mp hin
    have hold : found ∈ queue.tracks := by
      rw [takeAt_once hmode] at hfound
      exact List.mem_of_mem_eraseIdx hfound
    have hsame : found = other := List.inj_on_of_nodup_map h.ids_nodup hold (hsub hother) hid
    exact hsame ▸ hfound
  · have hanchor : (queue.takeAt position track).2.anchor = some track.requester := by
      rw [takeAt_once hmode]
    rw [hanchor]
    exact hfair

theorem nodup_dealingTracks {queue : TrackQueue} (h : queue.Coherent) :
    (queue.dealingTracks.map (·.id)).Nodup := by
  have hperm : (queue.dealingTracks.map (·.id)).Perm queue.ids :=
    (tracksAt_dealingPositions_perm h).map _
  exact hperm.nodup_iff.mpr h.ids_nodup

/-- If a dealt view begins with an ordinary track, its priority tracks are used up. -/
theorem rounds_of_order_eq_cons {tracks others : List Track} {track : Track}
    {anchor : Option UserId} (hordinary : track.isPriority = false)
    (h : order tracks anchor = track :: others) :
    rounds anchor (tracks.filter (! ·.isPriority)) = track :: others := by
  rw [order_eq] at h
  cases hurgent : tracks.filter (·.isPriority) with
  | nil => rwa [hurgent, List.nil_append] at h
  | cons urgent more =>
    rw [hurgent, List.cons_append] at h
    have hin : urgent ∈ tracks.filter (·.isPriority) := hurgent ▸ List.mem_cons_self ..
    simp [(List.cons.inj h).1, hordinary] at hin

theorem mem_ordinary_of_mem_rounds {tracks : List Track} {anchor : Option UserId} {track : Track}
    (h : track ∈ rounds anchor (tracks.filter (! ·.isPriority))) :
    track ∈ tracks ∧ track.isPriority = false := by
  have hmem := (rounds_perm anchor _).subset h
  simpa using List.mem_filter.mp hmem

/-- A take under round robin, while the view stands, leaves the view as it was dealt or rounds. -/
theorem viewAsDealt_takeAt {queue : TrackQueue} (h : queue.Coherent)
    (hon : queue.roundRobin = true) (hstands : queue.viewStands = true)
    (hmode : queue.repeatMode ≠ .all) {dealtFor : Option (Option UserId)}
    (hdealt : queue.ViewAsDealt dealtFor) {position : Nat} {track : Track}
    (hnext : queue.nextPosition? = some position) (htrack : queue.tracks[position]? = some track)
    (hstill : (queue.takeAt position track).2.viewStands = true) :
    (queue.takeAt position track).2.ViewAsDealt (if track.isPriority then dealtFor else none) := by
  have hmem : track ∈ queue.tracks := List.mem_of_getElem? htrack
  obtain ⟨rest, hview⟩ := view_of_nextPosition? hon hstands hnext htrack
  cases dealtFor with
  | some anchor =>
    rw [ViewAsDealt, hview] at hdealt
    obtain ⟨others, horder, hids⟩ := exists_cons_of_map_id h.ids_nodup hmem
      (order_subset queue anchor) (Option.some.inj hdealt).symm
    cases hpriority : track.isPriority with
    | true =>
      have hin : track ∈ queue.dealingTracks :=
        (tracksAt_dealingPositions_perm h).mem_iff.mpr hmem
      have hshrunk : (order (queue.dealingTracks.filter (·.id ≠ track.id)) anchor).map (·.id) =
          rest := by
        have hleft := view_takeAt h hview position
        rw [(takeAt_views queue position track).2, hview, Option.map_some] at hleft
        rw [order_filter_ne (nodup_dealingTracks h) hin hpriority, map_id_filter_ne, horder,
          List.map_cons, hids]
        exact Option.some.inj hleft
      rw [if_pos rfl, ViewAsDealt, view_takeAt h hview position,
        dealingTracks_takeAt h hstands hmode htrack hstill, hshrunk]
    | false =>
      have hrounds := rounds_of_order_eq_cons hpriority horder
      have hround : ∀ other ∈ others,
          other ∈ queue.dealingTracks ∧ other.isPriority = false := fun other hother =>
        mem_ordinary_of_mem_rounds (hrounds ▸ List.mem_cons_of_mem track hother)
      rw [if_neg (by simp)]
      refine roundsLeft_takeAt h hmode htrack ?_ (hids ▸ hview)
        (fun other hother => (hround other hother).2) ?_
      · intro other hother
        exact tracksAt_subset _ _ (hround other hother).1
      · have hfair := fair_rounds anchor (queue.dealingTracks.filter (! ·.isPriority))
        rw [hrounds, List.map_cons] at hfair
        cases anchor with
        | none => exact hfair
        | some user => exact hfair.tail
  | none =>
    obtain ⟨left, hsub, hleft, hordinary, hfair⟩ := hdealt
    rw [hview] at hleft
    obtain ⟨others, rfl, hids⟩ := exists_cons_of_map_id h.ids_nodup hmem hsub
      (Option.some.inj hleft).symm
    rw [ite_self]
    refine roundsLeft_takeAt h hmode htrack (List.subset_of_cons_subset hsub) (hids ▸ hview)
      (fun other hother => hordinary other (List.mem_cons_of_mem _ hother)) ?_
    cases hbefore : queue.anchor with
    | none => simpa [hbefore] using hfair
    | some user =>
      rw [hbefore] at hfair
      exact hfair.tail

theorem turnKept_takeAt {queue : TrackQueue} {turn : Turn} (h : TurnKept queue turn)
    (hstands : queue.roundRobin = true → queue.viewStands = true) {position : Nat}
    {track : Track} (hnext : queue.nextPosition? = some position)
    (htrack : queue.tracks[position]? = some track) :
    TurnKept (queue.takeAt position track).2
      { previous := some (queue.takeAt position track).1
        dealtFor := if track.isPriority then turn.dealtFor else none } := by
  have hviews := takeAt_views queue position track
  have hsettings : (queue.takeAt position track).2.roundRobin = queue.roundRobin ∧
      (queue.takeAt position track).2.anchor =
        some (queue.takeAt position track).1.requester ∧
      (queue.takeAt position track).2.lastTaken =
        some (queue.takeAt position track).1.fromStart := by
    by_cases hmode : queue.repeatMode = .all
    · rw [takeAt_all hmode]
      exact ⟨rfl, rfl, rfl⟩
    · rw [takeAt_once hmode]
      exact ⟨rfl, rfl, rfl⟩
  obtain ⟨hon, hanchor, hlast⟩ := hsettings
  refine ⟨coherent_takeAt h.coherent htrack, hanchor, ?_, ?_, ?_⟩
  · intro other hother
    rw [hlast] at hother
    rw [hanchor, ← Option.some.inj hother]
    rfl
  · intro hoff
    rw [hviews.2, h.off (hon.symm.trans hoff), Option.map_none]
  · intro hstillOn hstill
    have hroundRobin : queue.roundRobin = true := hon.symm.trans hstillOn
    have hview := hstands hroundRobin
    have hmode : queue.repeatMode ≠ .all := by
      intro hall
      rw [not_viewStands_takeAt_all h.coherent hview hall htrack] at hstill
      cases hstill
    exact viewAsDealt_takeAt h.coherent hroundRobin hview hmode (h.stands hroundRobin hview) hnext
      htrack hstill

theorem turnKept_take {queue : TrackQueue} {turn : Turn} (h : TurnKept queue turn) :
    TurnKept queue.take.2 (turn.note queue .take) := by
  rcases take_cases queue with
    ⟨given, hsticky, heq⟩ | ⟨hsticky, heq⟩ | ⟨hsticky, position, track, hnext, htrack, heq⟩
  · have hlast : queue.lastTaken = some given := by
      unfold sticky? at hsticky
      split at hsticky
      · exact hsticky
      · cases hsticky
    have hanchor := h.remembered given hlast
    simp only [Turn.note, hsticky, heq]
    exact ⟨h.coherent, hanchor, h.remembered, h.off, h.stands⟩
  · simp only [Turn.note, hsticky, heq]
    exact turnKept_look h
  · have hlook := turnKept_look h
    have hstands : queue.refresh.roundRobin = true → queue.refresh.viewStands = true := fun hon =>
      viewStands_refresh (queue.refresh_settings.roundRobin.symm.trans hon)
    have htaken := turnKept_takeAt hlook hstands hnext htrack
    have hurgent : queue.isUrgent (queue.refresh.takeAt position track).1.id =
        track.isPriority := by
      rw [(takeAt_given _ _ _).1, ← isUrgent_refresh]
      exact isUrgent_of_mem hlook.coherent.ids_nodup (List.mem_of_getElem? htrack)
    simp only [Turn.note, hsticky, heq, hurgent]
    exact htaken

/-! ### Runs -/

/-- A change that leaves no view standing. -/
theorem TurnKept.of_not_stands {queue other : TrackQueue} {turn : Turn} (h : TurnKept queue turn)
    (hcoherent : other.Coherent) (hanchor : other.anchor = queue.anchor)
    (hlast : other.lastTaken = queue.lastTaken)
    (hoff : other.roundRobin = false → other.roundRobinView = none)
    (hstands : other.viewStands = false) : TurnKept other turn where
  coherent := hcoherent
  anchor_eq := hanchor.trans h.anchor_eq
  remembered := fun track htrack => hanchor.trans (h.remembered track (hlast ▸ htrack))
  off := hoff
  stands := by
    intro _ h
    rw [hstands] at h
    cases h

theorem turnKept_add {queue : TrackQueue} {turn : Turn} (h : TurnKept queue turn) {track : Track}
    {silent : Bool} (hcoherent : (queue.add track silent).Coherent) :
    TurnKept (queue.add track silent) turn := by
  have hstands := not_viewStands_add h.coherent.contained track silent
  cases silent with
  | false => exact h.of_not_stands hcoherent rfl rfl (fun _ => rfl) hstands
  | true => exact h.of_not_stands hcoherent rfl rfl h.off hstands

theorem turnKept_addAll {queue : TrackQueue} {turn : Turn} (h : TurnKept queue turn)
    {tracks : List Track} {silent : Bool} (hcoherent : (queue.addAll tracks silent).Coherent) :
    TurnKept (queue.addAll tracks silent) turn := by
  cases silent with
  | false =>
    exact h.of_not_stands hcoherent rfl rfl (fun _ => rfl) (not_viewStands_of_dropped rfl)
  | true =>
    cases tracks with
    | nil =>
      rw [addAll_nil]
      exact h
    | cons track rest =>
      have hstands := not_viewStands_addAll h.coherent.contained (List.cons_ne_nil track rest)
      exact h.of_not_stands hcoherent rfl rfl h.off hstands

theorem turnKept_remove {queue : TrackQueue} {turn : Turn} (h : TurnKept queue turn)
    {id : TrackId} (hcoherent : (queue.remove id false).2.Coherent) :
    TurnKept (queue.remove id false).2 turn := by
  cases hfind : queue.tracks.find? (·.id = id) with
  | none =>
    have hsame : (queue.remove id false).2 = queue := by simp only [remove, hfind]
    rw [hsame]
    exact h
  | some track =>
    simp only [remove, hfind] at hcoherent ⊢
    exact h.of_not_stands hcoherent rfl rfl (fun _ => rfl) (not_viewStands_of_dropped rfl)

theorem turnKept_removeAll {queue : TrackQueue} {turn : Turn} (h : TurnKept queue turn)
    {ids : List TrackId} (hcoherent : (queue.removeAll ids false).2.Coherent) :
    TurnKept (queue.removeAll ids false).2 turn := by
  rw [removeAll_eq] at hcoherent ⊢
  exact h.of_not_stands hcoherent rfl rfl (fun _ => rfl) (not_viewStands_of_dropped rfl)

theorem turnKept_after {queue : TrackQueue} {turn : Turn} (h : TurnKept queue turn)
    {step : QueueStep} (hnew : (step.addedIds ++ queue.ids).Nodup)
    (hloud : step.removesSilently = false) :
    TurnKept (queue.after step) (turn.note queue step) := by
  have hcoherent := coherent_after h.coherent hnew
  cases step with
  | add track silent => exact turnKept_add h hcoherent
  | addAll tracks silent => exact turnKept_addAll h hcoherent
  | take => exact turnKept_take h
  | peek => exact turnKept_peek h
  | range start stop => exact turnKept_range h start stop
  | remove id silent =>
    cases hloud
    exact turnKept_remove h hcoherent
  | removeAll ids silent =>
    cases hloud
    exact turnKept_removeAll h hcoherent
  | clear =>
    refine ⟨hcoherent, rfl, ?_, fun _ => rfl, ?_⟩
    · intro track hlast
      cases hlast
    · intro _ hstands
      rw [not_viewStands_of_dropped rfl] at hstands
      cases hstands
  | skipped =>
    refine ⟨hcoherent, h.anchor_eq, ?_, h.off, h.stands⟩
    intro track hlast
    cases hlast
  | reshuffle | setShuffle | setRoundRobin =>
    exact h.of_not_stands hcoherent rfl rfl (fun _ => rfl) (not_viewStands_of_dropped rfl)
  | setRepeat mode =>
    exact ⟨hcoherent, h.anchor_eq, h.remembered, h.off, h.stands⟩

theorem turnKept_runWith {queue : TrackQueue} {turn : Turn} (h : TurnKept queue turn)
    (steps : List QueueStep) (hnew : (QueueStep.allAddedIds steps ++ queue.ids).Nodup)
    (hloud : ∀ step ∈ steps, step.removesSilently = false) :
    TurnKept (runWith Turn.note steps (queue, turn)).1
      (runWith Turn.note steps (queue, turn)).2 := by
  induction steps generalizing queue turn with
  | nil => exact h
  | cons step rest ih =>
    obtain ⟨hnow, hlater⟩ := nodup_after hnew
    have hafter := turnKept_after h hnow (hloud step (List.mem_cons_self ..))
    exact ih hafter hlater fun other hother => hloud other (List.mem_cons_of_mem _ hother)

/-! ### The next take -/

/-- Whom a view that stands serves next, if only priority tracks have been taken from it since it
was dealt. -/
def servedNext (queue : TrackQueue) (turn : Turn) : Option UserId :=
  if queue.viewStands then
    turn.dealtFor.bind fun anchor => (turns anchor queue.ordinaryTracks).head?
  else none

def NobodyElseWaits (queue : TrackQueue) (user : UserId) : Prop :=
  ∀ other ∈ queue.tracks, other.isPriority = false → other.requester = user

theorem nobodyElseWaits_refresh (queue : TrackQueue) (user : UserId) :
    queue.refresh.NobodyElseWaits user ↔ queue.NobodyElseWaits user := by
  have hmap := queue.refresh_map (fun track => (track.isPriority, track.requester))
    (fun _ _ => rfl)
  have htraits : ∀ queue : TrackQueue, queue.NobodyElseWaits user ↔
      ∀ traits ∈ queue.tracks.map fun track => (track.isPriority, track.requester),
        traits.1 = false → traits.2 = user := by
    intro queue
    simp [NobodyElseWaits]
  rw [htraits, htraits, hmap]

section Served

variable {queue : TrackQueue} {turn : Turn} {position : Nat} {found : Track}

/-- While only priority tracks have been taken from a view, its first ordinary track is that of
the first user of the rotation. -/
theorem rounds_of_dealtFor (h : TurnKept queue turn) (hon : queue.roundRobin = true)
    (hstands : queue.viewStands = true) (hnext : queue.nextPosition? = some position)
    (hfound : queue.tracks[position]? = some found) (hordinary : found.isPriority = false)
    {anchor : Option UserId} (hdealt : turn.dealtFor = some anchor) :
    ∃ others, rounds anchor queue.ordinaryTracks = found :: others := by
  have hview := h.stands hon hstands
  obtain ⟨rest, hfirst⟩ := view_of_nextPosition? hon hstands hnext hfound
  rw [hdealt, ViewAsDealt, hfirst] at hview
  obtain ⟨others, horder, _⟩ := exists_cons_of_map_id h.coherent.ids_nodup
    (List.mem_of_getElem? hfound) (order_subset queue anchor) (Option.some.inj hview).symm
  exact ⟨others, rounds_of_order_eq_cons hordinary horder⟩

theorem head?_turns_of_dealtFor (h : TurnKept queue turn) (hon : queue.roundRobin = true)
    (hstands : queue.viewStands = true) (hnext : queue.nextPosition? = some position)
    (hfound : queue.tracks[position]? = some found) (hordinary : found.isPriority = false)
    {anchor : Option UserId} (hdealt : turn.dealtFor = some anchor) :
    (turns anchor queue.ordinaryTracks).head? = some found.requester := by
  obtain ⟨others, hrounds⟩ := rounds_of_dealtFor h hon hstands hnext hfound hordinary hdealt
  rw [← head?_rounds, hrounds]
  rfl

theorem mem_ordinaryTracks (h : queue.Coherent) {track : Track} (hmem : track ∈ queue.tracks)
    (hordinary : track.isPriority = false) : track ∈ queue.ordinaryTracks :=
  List.mem_filter.mpr
    ⟨(tracksAt_dealingPositions_perm h).mem_iff.mpr hmem, by simp [hordinary]⟩

/-- A view that was dealt after the last take, or whose rounds have begun, serves the same user
twice only if nobody else waits. -/
theorem nobodyElseWaits_of_served (h : TurnKept queue turn) (hon : queue.roundRobin = true)
    (hstands : queue.viewStands = true) (hnext : queue.nextPosition? = some position)
    (hfound : queue.tracks[position]? = some found) (hordinary : found.isPriority = false)
    (hanchor : queue.anchor = some found.requester)
    (hdealt : turn.dealtFor = none ∨ turn.dealtFor = some queue.anchor) :
    queue.NobodyElseWaits found.requester := by
  intro other hother hplain
  rcases hdealt with hnone | hsome
  · have hview := h.stands hon hstands
    obtain ⟨rest, hfirst⟩ := view_of_nextPosition? hon hstands hnext hfound
    rw [hnone] at hview
    obtain ⟨left, hsub, hleft, _, hfair⟩ := hview
    obtain ⟨view, hwhole, hperm⟩ := view_perm h.coherent hstands
    rw [hleft] at hwhole
    have hin : other.id ∈ left.map (·.id) := by
      rw [Option.some.inj hwhole]
      exact hperm.mem_iff.mpr (List.mem_map_of_mem hother)
    obtain ⟨same, hsame, hid⟩ := List.mem_map.mp hin
    have heq : same = other :=
      List.inj_on_of_nodup_map h.coherent.ids_nodup (hsub hsame) hother hid
    rw [hfirst] at hleft
    obtain ⟨others, rfl, _⟩ := exists_cons_of_map_id h.coherent.ids_nodup
      (List.mem_of_getElem? hfound) hsub (Option.some.inj hleft).symm
    rw [hanchor] at hfair
    rcases List.mem_cons.mp (heq ▸ hsame) with rfl | hlater
    · rfl
    · exact hfair.1 rfl _ (List.mem_map_of_mem hlater)
  · obtain ⟨others, hrounds⟩ := rounds_of_dealtFor h hon hstands hnext hfound hordinary hsome
    have hfair := fair_rounds queue.anchor queue.ordinaryTracks
    rw [hrounds, hanchor] at hfair
    have hin : other ∈ found :: others := by
      rw [← hrounds]
      exact (rounds_perm _ _).mem_iff.mpr (mem_ordinaryTracks h.coherent hother hplain)
    rcases List.mem_cons.mp hin with rfl | hlater
    · rfl
    · exact hfair.1 rfl _ (List.mem_map_of_mem hlater)

end Served

/-- A refresh does not change which tracks have priority. -/
theorem isPriority_of_refresh {queue : TrackQueue} (h : queue.Coherent) {found track : Track}
    (hfound : found ∈ queue.refresh.tracks) (htrack : track ∈ queue.tracks)
    (hid : track.id = found.id) (hordinary : track.isPriority = false) :
    found.isPriority = false := by
  rw [← isUrgent_of_mem (coherent_refresh h).ids_nodup hfound, ← hid, isUrgent_refresh,
    isUrgent_of_mem h.ids_nodup htrack]
  exact hordinary

/-- In a run without silent removals, a take under round robin that takes an ordinary track gives
way to those who wait, unless the view was dealt before the priority tracks that were taken last
and goes on with the user of the last of them. -/
theorem take_fair_iff (dice : Dice) (steps : List QueueStep) {queue : TrackQueue} {turn : Turn}
    (fresh : QueueStep.Fresh steps)
    (hloud : ∀ step ∈ steps, step.removesSilently = false)
    (hreached : runWith Turn.note steps (empty dice, {}) = (queue, turn))
    (hon : queue.roundRobin = true) (hsticky : queue.sticky? = none)
    (given track previous : Track) (hgiven : queue.take.1 = some given)
    (htrack : track ∈ queue.tracks) (hid : track.id = given.id)
    (hordinary : track.isPriority = false) (hprevious : turn.previous = some previous) :
    (given.requester = previous.requester → queue.NobodyElseWaits previous.requester) ↔
      (queue.servedNext turn = some previous.requester →
        queue.NobodyElseWaits previous.requester) := by
  have hkept : TurnKept queue turn := by
    have hrun := turnKept_runWith (turnKept_empty dice) steps
      (by simpa [QueueStep.Fresh, ids, empty] using fresh) hloud
    rwa [hreached] at hrun
  obtain ⟨position, found, hnext, hfound, hsame⟩ := exists_takeAt_of_take hsticky hgiven
  obtain ⟨hgivenId, hrequester⟩ := takeAt_given queue.refresh position found
  rw [← hsame] at hgivenId hrequester
  have hlook := turnKept_look hkept
  have hplain : found.isPriority = false :=
    isPriority_of_refresh hkept.coherent (List.mem_of_getElem? hfound) htrack
      (hid.trans hgivenId) hordinary
  have hlookOn : queue.refresh.roundRobin = true :=
    queue.refresh_settings.roundRobin.trans hon
  have hstands := viewStands_refresh hon
  have hanchor : queue.refresh.anchor = some previous.requester := by
    rw [queue.refresh_settings.anchor, hkept.anchor_eq, hprevious]
    rfl
  have hfair : (turn.look queue).dealtFor = none ∨
      (turn.look queue).dealtFor = some queue.refresh.anchor →
      given.requester = previous.requester → queue.NobodyElseWaits previous.requester := by
    intro hdealt heq
    rw [hrequester] at heq
    rw [← nobodyElseWaits_refresh, ← heq]
    exact nobodyElseWaits_of_served hlook hlookOn hstands hnext hfound hplain (heq ▸ hanchor) hdealt
  cases hold : queue.viewStands with
  | false =>
    have hredealt : (turn.look queue).dealtFor = some queue.refresh.anchor := by
      simp [Turn.look, hon, hold, queue.refresh_settings.anchor]
    refine iff_of_true (hfair (Or.inr hredealt)) ?_
    intro hserved
    simp [servedNext, hold] at hserved
  | true =>
    have hsameQueue : queue.refresh = queue := by simp [refresh_of_roundRobin hon, hold]
    have hsameTurn : turn.look queue = turn := by simp [Turn.look, hold]
    rw [hsameTurn] at hfair
    cases hdealt : turn.dealtFor with
    | none =>
      refine iff_of_true (hfair (Or.inl hdealt)) ?_
      intro hserved
      simp [servedNext, hdealt] at hserved
    | some anchor =>
      rw [hsameQueue] at hnext hfound
      have hserved : queue.servedNext turn = some given.requester := by
        rw [servedNext, if_pos hold, hdealt, Option.bind_some, hrequester]
        exact head?_turns_of_dealtFor hkept hon hold hnext hfound hplain hdealt
      rw [hserved, Option.some.injEq]

def urgentTaken : List QueueStep :=
  [.add (sampleTrack 1 firstUser false) false, .add (sampleTrack 2 secondUser false) false,
    .add (sampleTrack 3 firstUser true) false, .setRoundRobin true, .take]

theorem take_fair_iff_urgentTaken : QueueStep.Fresh urgentTaken ∧
    (∀ step ∈ urgentTaken, step.removesSilently = false) ∧
    ((firstUser = firstUser →
      (runWith Turn.note urgentTaken (empty (.ofSeed 1), {})).1.NobodyElseWaits firstUser) ↔
    ((runWith Turn.note urgentTaken (empty (.ofSeed 1), {})).1.servedNext
        (runWith Turn.note urgentTaken (empty (.ofSeed 1), {})).2 = some firstUser →
      (runWith Turn.note urgentTaken (empty (.ofSeed 1), {})).1.NobodyElseWaits firstUser)) :=
  ⟨by decide, by decide,
    take_fair_iff (.ofSeed 1) urgentTaken (by decide) (by decide) rfl rfl rfl
      (sampleTrack 1 firstUser false) (sampleTrack 1 firstUser false)
      (sampleTrack 3 firstUser true) rfl (by decide) rfl rfl rfl⟩

/-- The rotation may serve the user whose priority track was given last, although another user
waits. -/
theorem take_not_always_fair : ¬ ∀ (dice : Dice) (steps : List QueueStep) (queue : TrackQueue)
    (turn : Turn), QueueStep.Fresh steps → (∀ step ∈ steps, step.removesSilently = false) →
    runWith Turn.note steps (empty dice, {}) = (queue, turn) → queue.roundRobin = true →
    queue.repeatMode = .off → ∀ given track previous : Track, queue.take.1 = some given →
    track ∈ queue.tracks → track.id = given.id → track.isPriority = false →
    turn.previous = some previous → given.requester = previous.requester →
    queue.NobodyElseWaits previous.requester := by
  intro hfair
  have hnobody := hfair (.ofSeed 1) urgentTaken _ _ (by decide) (by decide) rfl rfl rfl
    (sampleTrack 1 firstUser false) (sampleTrack 1 firstUser false)
    (sampleTrack 3 firstUser true) rfl (by decide) rfl rfl rfl rfl
  have hsecond := hnobody (sampleTrack 2 secondUser false) (by decide) rfl
  exact absurd hsecond (by decide)

end TrackQueue

end Jukebox
