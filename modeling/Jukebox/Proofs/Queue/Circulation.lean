import Jukebox.Proofs.Queue.Listing
import Mathlib.Data.List.Rotate

/-!
Repeat all in plain order. A take moves the first track to the end of the base list and takes its
priority away; a read changes nothing. So the takes turn the base order round, once for every lap,
and after one lap no priority is left to disturb it.
-/
namespace Jukebox

namespace TrackQueue

/-- Every take goes to the first track of the base list, and puts it back. -/
structure Circular (queue : TrackQueue) : Prop where
  unshuffled : queue.shuffle = false
  undealt : queue.roundRobin = false
  repeats : queue.repeatMode = .all

namespace Circular

variable {queue : TrackQueue}

theorem sticky?_eq (h : queue.Circular) : queue.sticky? = none :=
  sticky?_of_not_single (by simp [h.repeats])

theorem refresh_eq (h : queue.Circular) : queue.refresh = queue := by
  simp [refresh, h.unshuffled, h.undealt]

theorem after_read (h : queue.Circular) {step : QueueStep} (hread : step.isRead = true) :
    queue.after step = queue := by
  cases step with
  | peek => rw [after, peek_of_not_sticky h.sticky?_eq, h.refresh_eq]
  | range start stop =>
    rw [after, range_eq, h.refresh_eq]
    split <;> rfl
  | _ => cases hread

theorem after_take (h : queue.Circular) : queue.take.2.Circular where
  unshuffled := (take_modes queue).2.1.trans h.unshuffled
  undealt := (take_modes queue).2.2.trans h.undealt
  repeats := (take_modes queue).1.trans h.repeats

theorem take_eq (h : queue.Circular) {head : Track} {rest : List Track}
    (htracks : queue.tracks = head :: rest) :
    queue.take.1 = some (head.demote queue.dice).1 ∧
      queue.take.2.tracks = rest ++ [(head.demote queue.dice).1.fromStart] := by
  rw [take_plain h.unshuffled h.undealt h.sticky?_eq htracks, takeAt_all h.repeats, htracks]
  exact ⟨rfl, rfl⟩

end Circular

/-- So many takes away from `queue`: the base order is turned by them, and whatever has come round
to the end has no priority. -/
structure Turned (queue : TrackQueue) (taken : Nat) (later : TrackQueue) : Prop where
  circular : later.Circular
  wishes : later.tracks.map Track.wish = (queue.tracks.map Track.wish).rotate taken
  demoted : ∀ track ∈ later.tracks.drop (queue.size - taken), track.isPriority = false

namespace Turned

variable {queue later : TrackQueue} {taken : Nat}

theorem zero (h : queue.Circular) : queue.Turned 0 queue where
  circular := h
  wishes := (List.rotate_zero _).symm
  demoted := by simp [size]

theorem ids_eq (h : queue.Turned taken later) : later.ids = queue.ids.rotate taken := by
  have hwished (other : TrackQueue) : other.ids = (other.tracks.map Track.wish).map (·.id) := by
    rw [List.map_map]
    rfl
  rw [hwished, hwished, h.wishes, List.map_rotate]

theorem size_eq (h : queue.Turned taken later) : later.size = queue.size := by
  rw [← length_ids, h.ids_eq, List.length_rotate, length_ids]

/-- The track at the front is the one that the takes have come to. -/
theorem head_eq (h : queue.Turned taken later) {head : Track} {rest : List Track}
    (htracks : later.tracks = head :: rest) :
    (queue.tracks.map Track.wish)[taken % queue.size]? = some head.wish := by
  have hsize : 0 < queue.size := by
    rw [← h.size_eq, size, htracks]
    exact Nat.zero_lt_succ _
  have hfront := congrArg (·[0]?) h.wishes
  rw [htracks, List.getElem?_rotate (by simpa [size] using hsize)] at hfront
  simpa [size] using hfront.symm

theorem take (h : queue.Turned taken later) (hne : later.tracks ≠ []) :
    queue.Turned (taken + 1) later.take.2 := by
  obtain ⟨head, rest, htracks⟩ := List.exists_cons_of_ne_nil hne
  have hleft := (h.circular.take_eq htracks).2
  refine ⟨h.circular.after_take, ?_, ?_⟩
  · rw [← List.rotate_rotate, ← h.wishes, htracks, hleft]
    simp
  · have hsize : queue.size = rest.length + 1 := by
      rw [← h.size_eq, size, htracks, List.length_cons]
    intro track htrack
    rw [hleft, List.drop_append_of_le_length (by omega), List.mem_append] at htrack
    rcases htrack with hold | hback
    · refine h.demoted track ?_
      -- Before the first lap ends one place fewer is left out; afterwards nothing is.
      rcases Nat.lt_or_ge taken queue.size with hlap | hlap
      · have hshift : queue.size - taken = queue.size - (taken + 1) + 1 := by omega
        rwa [htracks, hshift, List.drop_succ_cons]
      · rw [Nat.sub_eq_zero_of_le (by omega), List.drop_zero] at hold
        rw [htracks, Nat.sub_eq_zero_of_le hlap, List.drop_zero]
        exact List.mem_cons_of_mem head hold
    · rw [List.mem_singleton.mp hback]
      exact demote_isPriority head later.dice

theorem ne_nil (h : queue.Turned taken later) (hne : queue.tracks ≠ []) : later.tracks ≠ [] := by
  have hsize : later.tracks.length = queue.tracks.length := h.size_eq
  rw [← List.length_pos_iff] at hne ⊢
  rwa [hsize]

theorem run (h : queue.Turned taken later) (hne : queue.tracks ≠ []) (steps : List QueueStep)
    (hsteps : ∀ step ∈ steps, step.isRead || step.isTake) :
    queue.Turned (taken + steps.countP (·.isTake)) (steps.foldl after later) := by
  induction steps generalizing taken later with
  | nil => exact h
  | cons step rest ih =>
    have hrest := fun other hother => hsteps other (List.mem_cons_of_mem step hother)
    have hread (hread : step.isRead = true) (htake : step.isTake = false) :
        queue.Turned (taken + (step :: rest).countP (·.isTake))
          ((step :: rest).foldl after later) := by
      rw [List.countP_cons_of_neg (by simp [htake]), List.foldl_cons, h.circular.after_read hread]
      exact ih h hrest
    cases step with
    | take =>
      rw [List.countP_cons_of_pos rfl, Nat.add_comm _ 1, ← Nat.add_assoc]
      exact ih (h.take (h.ne_nil hne)) hrest
    | peek | range => exact hread rfl rfl
    | _ => cases hsteps _ List.mem_cons_self

end Turned

/-- In plain order under repeat all the takes go through the base order again and again, whatever
is read in between. After one lap nothing has priority, and after every lap the order is the first
one again. -/
theorem takes_circulate {queue : TrackQueue} (hshuffle : queue.shuffle = false)
    (hrotation : queue.roundRobin = false) (hmode : queue.repeatMode = .all)
    (hne : queue.tracks ≠ []) (steps : List QueueStep)
    (hsteps : ∀ step ∈ steps, step.isRead || step.isTake) {taken : Nat}
    (htaken : steps.countP (·.isTake) = taken) {later : TrackQueue}
    (hlater : steps.foldl after queue = later) :
    (∃ track, later.take.1 = some track ∧ queue.ids[taken % queue.size]? = some track.id ∧
      (queue.tracks.map Track.wish)[taken % queue.size]? = some track.wish) ∧
    later.size = queue.size ∧
    (queue.size ≤ taken → ∀ track ∈ later.tracks, track.isPriority = false) ∧
    (queue.size ∣ taken → later.ids = queue.ids) := by
  have hturned : queue.Turned taken later := by
    have hrun := (Turned.zero ⟨hshuffle, hrotation, hmode⟩).run hne steps hsteps
    rwa [Nat.zero_add, htaken, hlater] at hrun
  refine ⟨?_, hturned.size_eq, fun hlap => ?_, fun hlaps => ?_⟩
  · obtain ⟨head, rest, htracks⟩ := List.exists_cons_of_ne_nil (hturned.ne_nil hne)
    have hwish := (hturned.head_eq htracks).trans
      (congrArg some (head.wish_demote later.dice).symm)
    refine ⟨_, (hturned.circular.take_eq htracks).1, ?_, hwish⟩
    have hid := congrArg (Option.map (·.id)) hwish
    rwa [← List.getElem?_map, List.map_map] at hid
  · have hall := hturned.demoted
    rwa [Nat.sub_eq_zero_of_le hlap, List.drop_zero] at hall
  · obtain ⟨laps, rfl⟩ := hlaps
    rw [hturned.ids_eq, ← length_ids, List.rotate_length_mul]

def mixedCircle : List QueueStep :=
  [.setRepeat .all, .add (sampleTrack 1 firstUser false) false,
    .add (sampleTrack 2 firstUser true) false, .add (sampleTrack 3 secondUser true) true]

theorem takes_circulate_mixedCircle :
    ((mixedCircle.foldl after (empty (.ofSeed 1))).ids = [⟨3⟩, ⟨2⟩, ⟨1⟩] ∧
      ∀ step ∈ [QueueStep.take, .peek, .take, .range 0 2, .take, .take],
        step.isRead || step.isTake) ∧
    ([QueueStep.take, .peek, .take, .range 0 2, .take, .take].foldl after
      (mixedCircle.foldl after (empty (.ofSeed 1)))).take.1.map (·.id) = some ⟨2⟩ := by
  refine ⟨by decide, ?_⟩
  have hne : (mixedCircle.foldl after (empty (.ofSeed 1))).tracks ≠ [] := by decide
  obtain ⟨⟨track, htrack, hid, -⟩, -⟩ := takes_circulate rfl rfl rfl hne
    [.take, .peek, .take, .range 0 2, .take, .take] (by decide) rfl rfl
  rw [htrack, Option.map_some, ← hid]
  decide

end TrackQueue

end Jukebox
