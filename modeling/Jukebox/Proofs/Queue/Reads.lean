import Jukebox.Proofs.Queue.Listing

/-!
Reads do not influence what plays. Without shuffle a read does no more than deal the view that the
next take would deal by itself, and it deals it for the same anchor: the anchor moves only with a
take. So two queues that agree once their views are up to date agree after every operation that
does not remove silently.
-/
namespace Jukebox

inductive QueueRead
  | peek
  | range (start stop : Nat)
  | ordered

/-- A call in a run: an operation or a read of the run's own, or a read put in beside. -/
inductive QueueCall
  | own (step : QueueStep)
  | read (read : QueueRead)
  | aside (read : QueueRead)

namespace QueueCall

def isAside : QueueCall → Bool
  | .aside _ => true
  | _ => false

/-- The call neither switches shuffle on nor removes silently. -/
def isPlain : QueueCall → Bool
  | .own (.setShuffle on) => !on
  | .own step => !step.removesSilently
  | _ => true

end QueueCall

namespace TrackQueue

def answer (queue : TrackQueue) : QueueStep → List Track
  | .take => queue.take.1.toList
  | .peek => queue.peek.1.toList
  | .range start stop => (queue.range start stop).1
  | .remove id silent => (queue.remove id silent).1.toList
  | .removeAll ids silent => (queue.removeAll ids silent).1
  | _ => []

def read (queue : TrackQueue) : QueueRead → List Track × TrackQueue
  | .peek => (queue.peek.1.toList, queue.peek.2)
  | .range start stop => queue.range start stop
  | .ordered => queue.ordered

def call (queue : TrackQueue) : QueueCall → List Track × TrackQueue
  | .own step => (queue.answer step, queue.after step)
  | .read read => queue.read read
  | .aside read => queue.read read

/-- What each call of the run's own returns, and the base list after it. -/
def transcript (queue : TrackQueue) : List QueueCall → List (List Track × List Track)
  | [] => []
  | call :: rest =>
    let (given, queue) := queue.call call
    if call.isAside then queue.transcript rest
    else (given, queue.tracks) :: queue.transcript rest

def afterCalls (queue : TrackQueue) (calls : List QueueCall) : TrackQueue :=
  calls.foldl (fun queue call => (queue.call call).2) queue

/-! ### Reads -/

theorem refresh_read (queue : TrackQueue) (read : QueueRead) :
    (queue.read read).2.refresh = queue.refresh := by
  cases read with
  | peek => exact queue.refresh_peek
  | range start stop => exact queue.refresh_range start stop
  | ordered => exact queue.refresh_range 0 queue.size

theorem peek_refresh (queue : TrackQueue) : queue.refresh.peek.1 = queue.peek.1 := by
  cases hsticky : queue.sticky? with
  | some track => simp only [peek, sticky?_refresh, hsticky]
  | none =>
    rw [peek_of_not_sticky hsticky, peek_of_not_sticky (queue.sticky?_refresh.trans hsticky),
      refresh_refresh]

theorem range_refresh (queue : TrackQueue) (start stop : Nat) :
    (queue.refresh.range start stop).1 = (queue.range start stop).1 := by
  rw [range_fst, range_fst, refresh_refresh]

theorem read_refresh (queue : TrackQueue) (read : QueueRead) :
    (queue.refresh.read read).1 = (queue.read read).1 := by
  cases read with
  | peek => exact congrArg Option.toList queue.peek_refresh
  | range start stop => exact queue.range_refresh start stop
  | ordered =>
    change queue.refresh.ordered.1 = queue.ordered.1
    rw [ordered_fst, ordered_fst, refresh_refresh]

theorem contained_read {queue : TrackQueue} (h : queue.Contained) (read : QueueRead) :
    (queue.read read).2.Contained := by
  cases read with
  | peek => exact contained_peek h
  | range start stop => exact contained_range h start stop
  | ordered => exact contained_range h 0 queue.size

theorem shuffle_read (queue : TrackQueue) (read : QueueRead) :
    (queue.read read).2.shuffle = queue.shuffle := by
  rw [← (queue.read read).2.refresh_settings.shuffle, refresh_read, queue.refresh_settings.shuffle]

/-! ### Operations without shuffle -/

section Plain

variable {queue : TrackQueue}

theorem refresh_of_not_viewStands (hplain : queue.shuffle = false)
    (hon : queue.roundRobin = true) (hstands : queue.viewStands = false) :
    queue.refresh = queue.redealt := by
  rw [refresh_of_roundRobin hon, hstands, shuffledIfOn, hplain]
  rfl

/-- Without shuffle a look deals a round-robin view or does nothing. -/
theorem refresh_of_plain (hplain : queue.shuffle = false) : queue.refresh = queue ∨
    queue.roundRobin = true ∧ queue.viewStands = false ∧ queue.refresh = queue.redealt := by
  cases hon : queue.roundRobin with
  | false => exact Or.inl (by rw [refresh, hon, hplain]; rfl)
  | true =>
    cases hstands : queue.viewStands with
    | true => exact Or.inl (by rw [refresh_of_roundRobin hon, hstands]; rfl)
    | false => exact Or.inr ⟨rfl, rfl, refresh_of_not_viewStands hplain hon hstands⟩

theorem tracks_refresh_of_plain (hplain : queue.shuffle = false) :
    queue.refresh.tracks = queue.tracks := by
  rcases refresh_of_plain hplain with heq | ⟨-, -, heq⟩
  · rw [heq]
  · rw [heq]
    rfl

/-- If no view stands, it does not matter which one is stored. -/
theorem refresh_congr {other : TrackQueue} (hplain : queue.shuffle = false)
    (hon : queue.roundRobin = true)
    (hother : other = { queue with roundRobinView := other.roundRobinView })
    (hstands : queue.viewStands = false) (hotherStands : other.viewStands = false) :
    other.refresh = queue.refresh := by
  have hplainToo : other.shuffle = false := by rw [hother]; exact hplain
  have honToo : other.roundRobin = true := by rw [hother]; exact hon
  rw [refresh_of_not_viewStands hplainToo honToo hotherStands,
    refresh_of_not_viewStands hplain hon hstands, hother]
  rfl

theorem refresh_addAll (h : queue.Contained) (hplain : queue.shuffle = false)
    (tracks : List Track) (silent : Bool) :
    (queue.refresh.addAll tracks silent).refresh = (queue.addAll tracks silent).refresh := by
  rcases refresh_of_plain hplain with heq | ⟨hon, -, heq⟩
  · rw [heq]
  · cases silent with
    | false =>
      rw [heq]
      rfl
    | true =>
      by_cases hnone : tracks = []
      · rw [hnone, addAll_nil, addAll_nil, refresh_refresh]
      · rw [heq]
        exact refresh_congr hplain hon rfl (not_viewStands_addAll h hnone)
          (not_viewStands_addAll (contained_redealt h) hnone)

theorem refresh_remove (hplain : queue.shuffle = false) (id : TrackId) :
    (queue.refresh.remove id false).2.refresh = (queue.remove id false).2.refresh := by
  have htracks := tracks_refresh_of_plain hplain
  cases hfind : queue.tracks.find? (·.id = id) with
  | none => simp only [remove, htracks, hfind, refresh_refresh]
  | some track =>
    rcases refresh_of_plain hplain with heq | ⟨-, -, heq⟩
    · rw [heq]
    · rw [heq] at htracks ⊢
      simp only [remove, htracks, hfind]
      rfl

/-- It does not matter whether the views are brought up to date before an operation too. -/
theorem refresh_after_refresh (h : queue.Contained) (hplain : queue.shuffle = false)
    {step : QueueStep} (hstep : (QueueCall.own step).isPlain = true) :
    (queue.refresh.after step).refresh = (queue.after step).refresh := by
  rcases refresh_of_plain hplain with heq | ⟨hon, hstands, heq⟩
  · rw [heq]
  · have hdate : queue.redealt.UpToDate := heq ▸ queue.upToDate_refresh
    cases step with
    | add track silent =>
      rw [after, after, ← addAll_singleton, ← addAll_singleton]
      exact refresh_addAll h hplain [track] silent
    | addAll tracks silent => exact refresh_addAll h hplain tracks silent
    | take =>
      cases hsticky : queue.sticky? with
      | none => rw [after, after, take_refresh hsticky]
      | some track =>
        simp only [after, take, sticky?_refresh, hsticky, refresh_refresh]
    | peek => rw [after, after, refresh_peek, refresh_peek, refresh_refresh]
    | range start stop => rw [after, after, refresh_range, refresh_range, refresh_refresh]
    | remove id silent =>
      obtain rfl : silent = false := by
        simpa [QueueCall.isPlain, QueueStep.removesSilently] using hstep
      exact refresh_remove hplain id
    | removeAll ids silent =>
      obtain rfl : silent = false := by
        simpa [QueueCall.isPlain, QueueStep.removesSilently] using hstep
      rw [heq, after, after, removeAll_eq, removeAll_eq]
      rfl
    | skipped => rw [after, after, refresh_skipped, refresh_skipped, refresh_refresh]
    | setRepeat mode =>
      have hset : (queue.redealt.setRepeat mode).UpToDate := ⟨hdate.shuffled, hdate.dealt⟩
      have hlook : (queue.setRepeat mode).refresh = (queue.setRepeat mode).redealt :=
        refresh_of_not_viewStands hplain hon hstands
      rw [heq, after, after, hset.refresh_eq, hlook]
      rfl
    | clear | reshuffle | setShuffle | setRoundRobin =>
      rw [heq]
      rfl

/-- Shuffle stays off. -/
theorem shuffle_after (hplain : queue.shuffle = false) {step : QueueStep}
    (hstep : (QueueCall.own step).isPlain = true) : (queue.after step).shuffle = false := by
  cases step with
  | add track silent | addAll tracks silent => cases silent <;> exact hplain
  | take => exact (take_modes queue).2.1.trans hplain
  | peek => exact (queue.shuffle_read .peek).trans hplain
  | range start stop => exact (queue.shuffle_read (.range start stop)).trans hplain
  | remove id silent =>
    cases hfind : queue.tracks.find? (·.id = id) with
    | none => simpa only [after, remove, hfind] using hplain
    | some track =>
      simp only [after, remove, hfind]
      cases silent <;> exact hplain
  | removeAll ids silent =>
    rw [after, removeAll_eq]
    cases silent <;> exact hplain
  | clear | skipped | reshuffle | setRoundRobin | setRepeat => exact hplain
  | setShuffle on =>
    have hoff : on = false := by simpa [QueueCall.isPlain] using hstep
    exact hoff

theorem fst_remove (queue : TrackQueue) (id : TrackId) (silent : Bool) :
    (queue.remove id silent).1 = queue.tracks.find? (·.id = id) := by
  unfold remove
  cases queue.tracks.find? (·.id = id) <;> rfl

theorem answer_refresh (hplain : queue.shuffle = false) (step : QueueStep) :
    queue.refresh.answer step = queue.answer step := by
  have htracks := tracks_refresh_of_plain hplain
  cases step with
  | take =>
    cases hsticky : queue.sticky? with
    | none => rw [answer, answer, take_refresh hsticky]
    | some track => simp only [answer, take, sticky?_refresh, hsticky]
  | peek => exact congrArg Option.toList queue.peek_refresh
  | range start stop => exact queue.range_refresh start stop
  | remove id silent => rw [answer, answer, fst_remove, fst_remove, htracks]
  | removeAll ids silent => rw [answer, answer, removeAll_eq, removeAll_eq, htracks]
  | add | addAll | clear | skipped | reshuffle | setShuffle | setRoundRobin | setRepeat => rfl

end Plain

/-! ### Runs with different reads -/

/-- Two queues without shuffle that agree once their views are up to date. -/
structure Alike (left right : TrackQueue) : Prop where
  left_contained : left.Contained
  right_contained : right.Contained
  left_plain : left.shuffle = false
  right_plain : right.shuffle = false
  same : left.refresh = right.refresh

namespace Alike

variable {left right : TrackQueue}

theorem same_tracks (h : Alike left right) : left.tracks = right.tracks := by
  rw [← tracks_refresh_of_plain h.left_plain, h.same, tracks_refresh_of_plain h.right_plain]

theorem same_answer (h : Alike left right) (step : QueueStep) :
    left.answer step = right.answer step := by
  rw [← answer_refresh h.left_plain, h.same, answer_refresh h.right_plain]

theorem same_reading (h : Alike left right) (read : QueueRead) :
    (left.read read).1 = (right.read read).1 := by
  rw [← left.read_refresh, h.same, right.read_refresh]

theorem aside (h : Alike left right) (read : QueueRead) : Alike (left.read read).2 right where
  left_contained := contained_read h.left_contained read
  right_contained := h.right_contained
  left_plain := (left.shuffle_read read).trans h.left_plain
  right_plain := h.right_plain
  same := (left.refresh_read read).trans h.same

theorem read (h : Alike left right) (read : QueueRead) :
    Alike (left.read read).2 (right.read read).2 where
  left_contained := contained_read h.left_contained read
  right_contained := contained_read h.right_contained read
  left_plain := (left.shuffle_read read).trans h.left_plain
  right_plain := (right.shuffle_read read).trans h.right_plain
  same := by rw [refresh_read, refresh_read, h.same]

theorem after (h : Alike left right) {step : QueueStep}
    (hstep : (QueueCall.own step).isPlain = true) : Alike (left.after step) (right.after step) where
  left_contained := contained_after h.left_contained step
  right_contained := contained_after h.right_contained step
  left_plain := shuffle_after h.left_plain hstep
  right_plain := shuffle_after h.right_plain hstep
  same := by
    rw [← refresh_after_refresh h.left_contained h.left_plain hstep, h.same,
      refresh_after_refresh h.right_contained h.right_plain hstep]

/-- The run with its reads beside and the run without them. -/
theorem transcript (h : Alike left right) {calls : List QueueCall}
    (hplain : ∀ call ∈ calls, call.isPlain = true) :
    left.transcript calls = right.transcript (calls.filter (! ·.isAside)) ∧
      Alike (left.afterCalls calls) (right.afterCalls (calls.filter (! ·.isAside))) := by
  induction calls generalizing left right with
  | nil => exact ⟨rfl, h⟩
  | cons call rest ih =>
    have hrest := fun other hother => hplain other (List.mem_cons_of_mem call hother)
    cases call with
    | own step =>
      have hlater := h.after (hplain _ List.mem_cons_self)
      obtain ⟨hsame, hend⟩ := ih hlater hrest
      refine ⟨?_, hend⟩
      exact congrArg₂ List.cons (Prod.ext (h.same_answer step) hlater.same_tracks) hsame
    | read read =>
      have hlater := h.read read
      obtain ⟨hsame, hend⟩ := ih hlater hrest
      refine ⟨?_, hend⟩
      exact congrArg₂ List.cons (Prod.ext (h.same_reading read) hlater.same_tracks) hsame
    | aside read => exact ih (h.aside read) hrest

end Alike

/-- Without shuffle and silent removals, two runs that differ in the reads beside return the same
and have the same base list at every moment. -/
theorem reads_do_not_matter (dice : Dice) {calls others : List QueueCall}
    (hplain : ∀ call ∈ calls, call.isPlain = true)
    (hsame : others.filter (! ·.isAside) = calls.filter (! ·.isAside)) :
    (empty dice).transcript others = (empty dice).transcript calls ∧
      ((empty dice).afterCalls others).tracks = ((empty dice).afterCalls calls).tracks := by
  have halike : Alike (empty dice) (empty dice) :=
    ⟨contained_empty dice, contained_empty dice, rfl, rfl, rfl⟩
  have hplainToo : ∀ call ∈ others, call.isPlain = true := by
    intro call hcall
    cases call with
    | own step =>
      have hkept : QueueCall.own step ∈ others.filter (! ·.isAside) :=
        List.mem_filter.mpr ⟨hcall, rfl⟩
      rw [hsame] at hkept
      exact hplain _ (List.mem_filter.mp hkept).1
    | read | aside => rfl
  obtain ⟨hleft, hleftEnd⟩ := halike.transcript hplain
  obtain ⟨hright, hrightEnd⟩ := halike.transcript hplainToo
  refine ⟨by rw [hright, hsame, hleft], ?_⟩
  rw [hrightEnd.same_tracks, hsame, hleftEnd.same_tracks]

def watchedTurns : List QueueCall :=
  [.own (.setRoundRobin true), .own (.addAll [sampleTrack 1 firstUser false,
      sampleTrack 2 firstUser false, sampleTrack 3 secondUser false] true),
    .aside .ordered, .own .take, .aside .peek, .own (.add (sampleTrack 4 secondUser true) true),
    .aside (.range 1 3), .own (.setRepeat .all), .own .take, .read .ordered, .aside .ordered]

theorem reads_do_not_matter_watchedTurns :
    (∀ call ∈ watchedTurns, call.isPlain = true) ∧
    (watchedTurns.filter (! ·.isAside)).filter (! ·.isAside) =
      watchedTurns.filter (! ·.isAside) ∧
    (empty (.ofSeed 1)).transcript (watchedTurns.filter (! ·.isAside)) =
      (empty (.ofSeed 1)).transcript watchedTurns :=
  ⟨by decide, rfl, (@reads_do_not_matter (.ofSeed 1) watchedTurns
    (watchedTurns.filter (! ·.isAside)) (by decide) rfl).1⟩

end TrackQueue

end Jukebox
