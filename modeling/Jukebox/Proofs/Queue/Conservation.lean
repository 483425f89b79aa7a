import Jukebox.Proofs.Queue.Run

/-!
Nothing is lost in a queue and nothing is there twice. A ledger is kept beside a run; at every
moment the ids that were added are those in the queue and those in the ledger, each once.
-/
namespace Jukebox

/-- The ids that left a queue, by the way they left it, oldest first. -/
structure Ledger where
  taken : List TrackId := []
  removed : List TrackId := []
  cleared : List TrackId := []

namespace Ledger

def all (ledger : Ledger) : List TrackId := ledger.taken ++ ledger.removed ++ ledger.cleared

def note (queue : TrackQueue) (step : QueueStep) (ledger : Ledger) : Ledger :=
  match step with
  | .take => { ledger with taken := ledger.taken ++ queue.departing step }
  | .remove .. => { ledger with removed := ledger.removed ++ queue.departing step }
  | .removeAll .. => { ledger with removed := ledger.removed ++ queue.departing step }
  | .clear => { ledger with cleared := ledger.cleared ++ queue.departing step }
  | _ => ledger

theorem all_note_perm (queue : TrackQueue) (step : QueueStep) (ledger : Ledger) :
    (ledger.note queue step).all.Perm (queue.departing step ++ ledger.all) := by
  obtain ⟨taken, removed, cleared⟩ := ledger
  have htaken : ∀ gone : List TrackId, (taken ++ gone ++ removed ++ cleared).Perm
      (gone ++ (taken ++ removed ++ cleared)) := by
    intro gone
    simp only [← List.append_assoc]
    exact (List.perm_append_comm.append_right removed).append_right cleared
  have hremoved : ∀ gone : List TrackId, (taken ++ (removed ++ gone) ++ cleared).Perm
      (gone ++ (taken ++ removed ++ cleared)) := by
    intro gone
    simp only [← List.append_assoc]
    refine List.Perm.append_right cleared ?_
    rw [List.append_assoc gone]
    exact List.perm_append_comm
  have hcleared : ∀ gone : List TrackId, (taken ++ removed ++ (cleared ++ gone)).Perm
      (gone ++ (taken ++ removed ++ cleared)) := by
    intro gone
    rw [← List.append_assoc]
    exact List.perm_append_comm
  cases step with
  | take => exact htaken _
  | remove | removeAll => exact hremoved _
  | clear => exact hcleared _
  | _ => exact List.Perm.refl _

end Ledger

namespace TrackQueue

/-- The ids in the queue and in the ledger are those that were there before or are added. -/
theorem accounted_after (queue : TrackQueue) (step : QueueStep) (ledger : Ledger) :
    (step.addedIds ++ (queue.ids ++ ledger.all)).Perm
      ((queue.after step).ids ++ (ledger.note queue step).all) := by
  rw [← List.append_assoc]
  refine ((ids_after_perm queue step).append_right ledger.all).trans ?_
  rw [List.append_assoc]
  exact (ledger.all_note_perm queue step).symm.append_left _

theorem accounted_runWith (steps : List QueueStep) (queue : TrackQueue) (ledger : Ledger) :
    (QueueStep.allAddedIds steps ++ (queue.ids ++ ledger.all)).Perm
      ((runWith Ledger.note steps (queue, ledger)).1.ids ++
        (runWith Ledger.note steps (queue, ledger)).2.all) := by
  induction steps generalizing queue ledger with
  | nil => exact List.Perm.refl _
  | cons step rest ih =>
    have hnow : (QueueStep.allAddedIds (step :: rest) ++ (queue.ids ++ ledger.all)).Perm
        (QueueStep.allAddedIds rest ++ (step.addedIds ++ (queue.ids ++ ledger.all))) := by
      rw [QueueStep.allAddedIds, List.flatMap_cons,
        ← List.append_assoc (QueueStep.allAddedIds rest)]
      exact List.perm_append_comm.append_right _
    have hstep := (accounted_after queue step ledger).append_left (QueueStep.allAddedIds rest)
    exact (hnow.trans hstep).trans (ih (queue.after step) (ledger.note queue step))

theorem ids_take_all_perm {queue : TrackQueue} (hmode : queue.repeatMode = .all) :
    queue.take.2.ids.Perm queue.ids := by
  have hperm := ids_take_perm queue
  have hstays : queue.departing .take = [] := by simp [departing, hmode]
  rw [hstays, List.append_nil] at hperm
  exact hperm.symm

/-- A queue, with the ledger of what left it, holds what was added. -/
structure Balanced (added : List TrackId) (queue : TrackQueue) (ledger : Ledger) : Prop where
  ids_nodup : queue.ids.Nodup
  listed : queue.ordered.1.Perm queue.ordered.2.tracks
  listed_ids : (queue.ordered.1.map (·.id)).Perm queue.ids
  accounted : added.Perm (queue.ids ++ ledger.taken ++ ledger.removed ++ ledger.cleared)
  disjoint : (queue.ids ++ ledger.taken ++ ledger.removed ++ ledger.cleared).Nodup
  recycled : queue.repeatMode = .all → queue.take.2.ids.Perm queue.ids

/-- Nothing is lost and nothing doubled in a run that adds every id once. -/
theorem balanced_runWith (dice : Dice) (steps : List QueueStep)
    (fresh : QueueStep.Fresh steps) :
    Balanced (QueueStep.allAddedIds steps) (runWith Ledger.note steps (empty dice, {})).1
      (runWith Ledger.note steps (empty dice, {})).2 := by
  have hcoherent := coherent_runWith Ledger.note dice fresh {}
  have haccount := accounted_runWith steps (empty dice) {}
  generalize runWith Ledger.note steps (empty dice, {}) = state at hcoherent haccount
  obtain ⟨queue, ledger⟩ := state
  have haccounted : (QueueStep.allAddedIds steps).Perm
      (queue.ids ++ ledger.taken ++ ledger.removed ++ ledger.cleared) := by
    simpa [Ledger.all, ids, empty] using haccount
  exact {
    ids_nodup := hcoherent.ids_nodup
    listed := ordered_perm hcoherent
    listed_ids := by
      rw [← ids_ordered queue]
      exact (ordered_perm hcoherent).map (·.id)
    accounted := haccounted
    disjoint := haccounted.nodup_iff.mp fresh
    recycled := ids_take_all_perm
  }

def silentChanges : List QueueStep :=
  [.setShuffle true, .setRoundRobin true, .add (sampleTrack 1 firstUser false) false, .peek,
    .addAll [sampleTrack 2 secondUser false, sampleTrack 3 firstUser true] true, .take,
    .range 0 5, .add (sampleTrack 4 secondUser false) true, .remove ⟨2⟩ true, .setRepeat .all,
    .take, .removeAll [⟨1⟩, ⟨7⟩] true]

theorem balanced_silentChanges : QueueStep.Fresh silentChanges ∧
    Balanced [⟨1⟩, ⟨2⟩, ⟨3⟩, ⟨4⟩] (runWith Ledger.note silentChanges (empty (.ofSeed 1), {})).1
      (runWith Ledger.note silentChanges (empty (.ofSeed 1), {})).2 :=
  ⟨by decide, balanced_runWith (.ofSeed 1) silentChanges (by decide)⟩

end TrackQueue

end Jukebox
