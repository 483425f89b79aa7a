import Mathlib.Data.List.Basic
import Jukebox.Order.Shuffle

/-!
Drawing new keys changes nothing but the keys, and sorting by key is stable.
-/
namespace Jukebox.Shuffle

theorem rekey_map {β : Type} (f : Track → β)
    (hf : ∀ track key, f { track with sortKey := key } = f track) (track : Track) (dice : Dice) :
    f ((track.rekey (m := StateM Dice) Dice.roll).run dice).1 = f track := by
  unfold Track.rekey
  split
  · rfl
  · exact hf track _

theorem rekeyFromDice_cons (track : Track) (rest : List Track) (dice : Dice) :
    (rekeyFromDice (track :: rest) dice).1 =
      ((track.rekey (m := StateM Dice) Dice.roll).run dice).1 ::
        (rekeyFromDice rest ((track.rekey (m := StateM Dice) Dice.roll).run dice).2).1 := rfl

/-- Whatever does not look at the key is the same for the rekeyed tracks. -/
theorem rekeyFromDice_map {β : Type} (f : Track → β)
    (hf : ∀ track key, f { track with sortKey := key } = f track) (tracks : List Track)
    (dice : Dice) : (rekeyFromDice tracks dice).1.map f = tracks.map f := by
  induction tracks generalizing dice with
  | nil => rfl
  | cons track rest ih =>
    rw [rekeyFromDice_cons, List.map_cons, List.map_cons, rekey_map f hf track dice, ih]

theorem byKey_perm (tracks : List Track) : (byKey tracks).Perm tracks :=
  List.mergeSort_perm _ _

/-- A list of tracks, sorted by key; tracks of one key stay in the order given. -/
structure StablySorted (tracks sorted : List Track) : Prop where
  perm : sorted.Perm tracks
  increasing : sorted.Pairwise (·.sortKey ≤ ·.sortKey)
  stable : ∀ key, sorted.filter (·.sortKey = key) = tracks.filter (·.sortKey = key)

theorem stablySorted_byKey (tracks : List Track) : StablySorted tracks (byKey tracks) := by
  have htrans (a b c : Track) (hab : decide (a.sortKey ≤ b.sortKey) = true)
      (hbc : decide (b.sortKey ≤ c.sortKey) = true) : decide (a.sortKey ≤ c.sortKey) = true :=
    decide_eq_true (Nat.le_trans (of_decide_eq_true hab) (of_decide_eq_true hbc))
  have htotal (a b : Track) :
      (decide (a.sortKey ≤ b.sortKey) || decide (b.sortKey ≤ a.sortKey)) = true := by
    simpa using Nat.le_total a.sortKey b.sortKey
  refine ⟨byKey_perm tracks, ?_, fun key => ?_⟩
  · exact (List.pairwise_mergeSort htrans htotal tracks).imp of_decide_eq_true
  · have hkept : (tracks.filter (·.sortKey = key)).Sublist (byKey tracks) := by
      refine List.sublist_mergeSort htrans htotal ?_ List.filter_sublist
      refine List.pairwise_of_forall_mem_list fun before hbefore later hlater => ?_
      have hbefore := of_decide_eq_true (List.mem_filter.mp hbefore).2
      have hlater := of_decide_eq_true (List.mem_filter.mp hlater).2
      exact decide_eq_true (Nat.le_of_eq (hbefore.trans hlater.symm))
    have hsub := hkept.filter (·.sortKey = key)
    rw [List.filter_filter] at hsub
    simp only [Bool.and_self] at hsub
    exact (hsub.eq_of_length ((byKey_perm tracks).filter _).length_eq.symm).symm

end Jukebox.Shuffle
