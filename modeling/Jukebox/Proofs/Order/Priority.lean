import Jukebox.Proofs.Order.Deal
import Jukebox.Proofs.Order.Draw
import Jukebox.Track.Catalogue

/-!
Priority in the orders. A track has the least key exactly if it has priority; so sorting by key,
like dealing in rounds, gives the priority tracks first, as they stand in the list.
-/
namespace Jukebox

namespace Track

/-- The key tells whether the track has priority. -/
def IsKeyed (track : Track) : Prop := track.sortKey = prioritySortKey ↔ track.isPriority = true

instance (track : Track) : Decidable track.IsKeyed :=
  inferInstanceAs (Decidable (track.sortKey = prioritySortKey ↔ track.isPriority = true))

theorem isKeyed_of_ordinary {track : Track} (hordinary : track.isPriority = false)
    (hkey : 0 < track.sortKey) : track.IsKeyed := by
  have hne : track.sortKey ≠ prioritySortKey := Nat.ne_of_gt hkey
  simp [IsKeyed, hne, hordinary]

theorem isKeyed_rekey {track : Track} (h : track.IsKeyed) (dice : Dice) :
    ((track.rekey (m := StateM Dice) Dice.roll).run dice).1.IsKeyed := by
  unfold rekey
  split
  · exact h
  · next hordinary =>
    exact isKeyed_of_ordinary (Bool.eq_false_iff.mpr hordinary) dice.roll_pos

theorem isKeyed_demote {track : Track} (h : track.IsKeyed) (dice : Dice) :
    (track.demote dice).1.IsKeyed := by
  unfold demote
  split
  · exact isKeyed_of_ordinary rfl dice.roll_pos
  · exact h

end Track

/-- Every new track is keyed, whoever asks for what. -/
theorem Catalogue.isKeyed_issue (catalogue : Catalogue) (request : TrackRequest) :
    (catalogue.issue request).1.IsKeyed := by
  unfold issue
  cases hurgent : request.urgent with
  | true => simp [Track.IsKeyed, Mint.urgent]
  | false => exact Track.isKeyed_of_ordinary rfl catalogue.mint.dice.roll_pos

/-- The order gives the priority tracks of the list first, as they stand in it. -/
def PriorityFirst (tracks order : List Track) : Prop :=
  order = tracks.filter (·.isPriority) ++ order.filter (! ·.isPriority)

theorem PriorityFirst.filter_eq {tracks order : List Track} (h : PriorityFirst tracks order) :
    order.filter (·.isPriority) = tracks.filter (·.isPriority) := by
  have hnone : (order.filter (! ·.isPriority)).filter (·.isPriority) = [] := by
    rw [List.filter_eq_nil_iff]
    intro track hmem
    simpa using (List.mem_filter.mp hmem).2
  rw [h, List.filter_append, hnone, List.append_nil, List.filter_filter]
  simp only [Bool.and_self]

theorem priorityFirst_of_append {tracks front rest : List Track}
    (hfront : front = tracks.filter (·.isPriority))
    (hrest : ∀ track ∈ rest, track.isPriority = false) : PriorityFirst tracks (front ++ rest) := by
  have hnone : front.filter (! ·.isPriority) = [] := by
    rw [List.filter_eq_nil_iff]
    intro track hmem
    rw [hfront] at hmem
    simpa using (List.mem_filter.mp hmem).2
  have hall : rest.filter (! ·.isPriority) = rest := by
    rw [List.filter_eq_self]
    intro track hmem
    rw [hrest track hmem]
    rfl
  rw [PriorityFirst, List.filter_append, hnone, hall, hfront]
  rfl

def UrgentFirst (tracks : List Track) : Prop :=
  tracks.Pairwise fun before later => later.isPriority = true → before.isPriority = true

theorem urgentFirst_iff (tracks : List Track) : UrgentFirst tracks ↔
    (tracks.map (·.isPriority)).Pairwise fun before later => later = true → before = true := by
  rw [List.pairwise_map]
  rfl

theorem UrgentFirst.priorityFirst {tracks : List Track} (h : UrgentFirst tracks) :
    PriorityFirst tracks tracks := by
  induction tracks with
  | nil => rfl
  | cons track rest ih =>
    obtain ⟨hhead, hrest⟩ := List.pairwise_cons.mp h
    cases hpriority : track.isPriority with
    | true =>
      have htail : rest = rest.filter (·.isPriority) ++ rest.filter (! ·.isPriority) := ih hrest
      rw [PriorityFirst, List.filter_cons_of_pos hpriority,
        List.filter_cons_of_neg (by simp [hpriority]), List.cons_append, ← htail]
    | false =>
      refine @priorityFirst_of_append _ [] _ ?_ ?_
      · rw [eq_comm, List.filter_eq_nil_iff]
        intro other hother hurgent
        rcases List.mem_cons.mp hother with rfl | hlater
        · simp [hpriority] at hurgent
        · simp [hhead other hlater hurgent] at hpriority
      · intro other hother
        rcases List.mem_cons.mp hother with rfl | hlater
        · exact hpriority
        · cases hurgent : other.isPriority with
          | false => rfl
          | true => simp [hhead other hlater hurgent] at hpriority

namespace Shuffle

/-- New keys are drawn for ordinary tracks only. -/
theorem rekeyFromDice_filter (tracks : List Track) (dice : Dice) :
    (rekeyFromDice tracks dice).1.filter (·.isPriority) = tracks.filter (·.isPriority) := by
  induction tracks generalizing dice with
  | nil => rfl
  | cons track rest ih =>
    have hhead := rekey_map (·.isPriority) (fun _ _ => rfl) track dice
    rw [rekeyFromDice_cons]
    by_cases hpriority : track.isPriority = true
    · have hsame : ((track.rekey (m := StateM Dice) Dice.roll).run dice).1 = track := by
        rw [Track.rekey, if_pos hpriority]
        rfl
      rw [List.filter_cons_of_pos (hhead.trans hpriority), ih, hsame,
        List.filter_cons_of_pos hpriority]
    · rw [List.filter_cons_of_neg (hhead ▸ hpriority), ih, List.filter_cons_of_neg hpriority]

theorem rekeyFromDice_isKeyed {tracks : List Track} (h : ∀ track ∈ tracks, track.IsKeyed)
    (dice : Dice) : ∀ track ∈ (rekeyFromDice tracks dice).1, track.IsKeyed := by
  induction tracks generalizing dice with
  | nil => exact h
  | cons track rest ih =>
    intro other hother
    have hrest := fun later hlater => h later (List.mem_cons_of_mem track hlater)
    rw [rekeyFromDice_cons] at hother
    rcases List.mem_cons.mp hother with rfl | hlater
    · exact Track.isKeyed_rekey (h track List.mem_cons_self) dice
    · exact ih hrest _ other hlater

/-- The sort is stable and the priority tracks share the least key. -/
theorem byKey_priorityFirst {tracks : List Track} (hkeyed : ∀ track ∈ tracks, track.IsKeyed) :
    PriorityFirst tracks (byKey tracks) := by
  have hsorted := stablySorted_byKey tracks
  have hkeyedToo : ∀ track ∈ byKey tracks, track.IsKeyed :=
    fun track hmem => hkeyed track (hsorted.perm.subset hmem)
  have hurgent {list : List Track} (hlist : ∀ track ∈ list, track.IsKeyed) :
      list.filter (·.isPriority) = list.filter (·.sortKey = prioritySortKey) := by
    refine List.filter_congr fun track hmem => ?_
    rw [Bool.eq_iff_iff, decide_eq_true_iff]
    exact (hlist track hmem).symm
  have hfirst : UrgentFirst (byKey tracks) := by
    refine hsorted.increasing.imp_of_mem fun {before later} hbefore hlater hle hpriority => ?_
    have hzero : later.sortKey = 0 := (hkeyedToo later hlater).mpr hpriority
    exact (hkeyedToo before hbefore).mp (Nat.le_zero.mp (hzero ▸ hle))
  have hsame : (byKey tracks).filter (·.isPriority) = tracks.filter (·.isPriority) := by
    rw [hurgent hkeyedToo, hurgent hkeyed, hsorted.stable]
  rw [PriorityFirst, ← hsame]
  exact hfirst.priorityFirst

end Shuffle

theorem RoundRobin.order_priorityFirst (tracks : List Track) (anchor : Option UserId) :
    PriorityFirst tracks (order tracks anchor) := by
  rw [order_eq]
  refine priorityFirst_of_append rfl ?_
  intro track hmem
  have hordinary := (rounds_perm anchor _).subset hmem
  simpa using (List.mem_filter.mp hordinary).2

end Jukebox
