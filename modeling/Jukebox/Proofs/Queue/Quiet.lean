import Jukebox.Proofs.Queue.Takes

/-!
Quiet operations of a queue: they bring no track and take none. Whatever they leave was queued
before, and the track that was taken last is kept or forgotten.
-/
namespace Jukebox

def QueueStep.isQuiet : QueueStep → Bool
  | .add .. | .addAll .. | .take => false
  | _ => true

namespace TrackQueue

/-- Something quiet leaves what was queued, in part or with new keys. -/
theorem tracks_after_quiet (queue : TrackQueue) {step : QueueStep} (hquiet : step.isQuiet = true) :
    (queue.after step).tracks ⊆ queue.tracks ∨
      (queue.after step).tracks = queue.refresh.tracks := by
  cases step with
  | add | addAll | take => cases hquiet
  | peek =>
    rw [after, peek]
    split
    · exact .inl (List.Subset.refl _)
    · exact .inr rfl
  | range start stop =>
    rw [after, range]
    split
    · exact .inr rfl
    · exact .inl (List.Subset.refl _)
  | remove id silent =>
    rw [after, remove]
    split
    · exact .inl (List.Subset.refl _)
    · rw [tracks_dropViewsUnless]
      exact .inl List.eraseP_subset
  | removeAll ids silent =>
    rw [after, removeAll_eq, tracks_dropViewsUnless]
    exact .inl List.filter_sublist.subset
  | clear => exact .inl (List.nil_subset _)
  | skipped | reshuffle | setShuffle | setRoundRobin | setRepeat =>
    exact .inl (List.Subset.refl _)

/-- Something quiet keeps the track taken last, or forgets it. -/
theorem lastTaken_after_quiet (queue : TrackQueue) {step : QueueStep}
    (hquiet : step.isQuiet = true) :
    (queue.after step).lastTaken = queue.lastTaken ∨ (queue.after step).lastTaken = none := by
  have hrefresh := queue.refresh_settings.lastTaken
  have hdropped (other : TrackQueue) (silent : Bool) :
      (other.dropViewsUnless silent).lastTaken = other.lastTaken := by
    unfold dropViewsUnless
    split <;> rfl
  cases step with
  | add | addAll | take => cases hquiet
  | peek =>
    rw [after, peek]
    split
    · exact .inl rfl
    · exact .inl hrefresh
  | range start stop =>
    rw [after, range]
    split
    · exact .inl hrefresh
    · exact .inl rfl
  | remove id silent =>
    rw [after, remove]
    split
    · exact .inl rfl
    · exact .inl (hdropped _ silent)
  | removeAll ids silent =>
    rw [after, removeAll_eq, hdropped]
    exact .inl rfl
  | clear | skipped => exact .inr rfl
  | reshuffle | setShuffle | setRoundRobin | setRepeat => exact .inl rfl

theorem ids_after_quiet_perm (queue : TrackQueue) {step : QueueStep}
    (hquiet : step.isQuiet = true) :
    queue.ids.Perm ((queue.after step).ids ++ queue.departing step) := by
  have hbrings : step.addedIds = [] := by cases step <;> first | rfl | cases hquiet
  have hperm := ids_after_perm queue step
  rwa [hbrings, List.nil_append] at hperm

theorem nodup_ids_quiet {queue : TrackQueue} (h : queue.ids.Nodup) {step : QueueStep}
    (hquiet : step.isQuiet = true) : (queue.after step).ids.Nodup :=
  (List.nodup_append.mp ((queue.ids_after_quiet_perm hquiet).nodup_iff.mp h)).1

end TrackQueue

end Jukebox
