import Jukebox.Proofs.Player.Counters
import Jukebox.Proofs.Player.IdleStart

/-!
The saved position is used once. A restored player starts its first track where the snapshot says,
the first time it tries to load it, and from its beginning ever after: whatever keeps the track for
another play, the queue under repeat all, the memory of repeat single or the history, keeps it
without the position. All other tracks always start where they begin.
-/
namespace Jukebox

def Call.plays (call : Call) (id : TrackId) : Bool := call.isPlay && call.current.any (·.id = id)

structure ResumePoint where
  id : TrackId
  position : Millis

/-- Where the track with an id is still to resume, after some calls. -/
def ResumePoint.due? (point : Option ResumePoint) (calls : List Call) (id : TrackId) :
    Option Millis :=
  (point.filter fun point => point.id = id && ! calls.any (·.plays id)).map (·.position)

/-- Every play starts its track where it begins, except that the first play of the track that is to
resume starts at its position. -/
def ResumesOnce (point : Option ResumePoint) (calls : List Call) : Prop :=
  ∀ before call rest, calls = before ++ call :: rest → call.isPlay = true →
    ∃ track, call.current = some track ∧ call.asked.command =
      .play track.audio ((ResumePoint.due? point before track.id).getD track.startPosition)
        track.endPosition?

variable {point : Option ResumePoint} {calls : List Call}

namespace ResumePoint

/-- A call that plays nothing leaves everything due. -/
theorem due?_asked {call : Call} (hplay : call.isPlay = false) (id : TrackId) :
    due? point (calls ++ [call]) id = due? point calls id := by
  simp [due?, Call.plays, hplay]

/-- A track that is loaded is not due any more. -/
theorem due?_loaded (track : Track) (done : Bool) (id : TrackId) :
    due? point (calls ++ [.ofLoad track done]) id =
      if id = track.id then none else due? point calls id := by
  have hplays : (Call.ofLoad track done).plays id = decide (track.id = id) := rfl
  simp only [due?, List.any_append, List.any_cons, List.any_nil, Bool.or_false, hplays]
  split
  · next hsame => simp [hsame]
  · next hother => simp [Ne.symm hother]

end ResumePoint

theorem ResumesOnce.append (h : ResumesOnce point calls) {call : Call}
    (hcall : call.isPlay = true → ∃ track, call.current = some track ∧ call.asked.command =
      .play track.audio ((ResumePoint.due? point calls track.id).getD track.startPosition)
        track.endPosition?) : ResumesOnce point (calls ++ [call]) := by
  intro before other rest hcalls hplay
  rcases List.eq_nil_or_concat rest with rfl | ⟨front, last, rfl⟩
  · obtain ⟨rfl, hsame⟩ := List.append_inj' hcalls rfl
    obtain rfl : call = other := by simpa using hsame
    exact hcall hplay
  · have hcut : calls ++ [call] = (before ++ other :: front) ++ [last] := by
      simpa using hcalls
    obtain ⟨hfront, -⟩ := List.append_inj' hcut rfl
    exact h before other front hfront hplay

/-- A track that is loaded with the position at which it is due, or else without one. -/
theorem ResumesOnce.load (h : ResumesOnce point calls) {track : Track}
    (hdue : track.resumeAt = ResumePoint.due? point calls track.id) (done : Bool) :
    ResumesOnce point (calls ++ [.ofLoad track done]) := by
  refine h.append fun _ => ⟨track.fromStart, rfl, ?_⟩
  have hstart : (ResumePoint.due? point calls track.fromStart.id).getD
      track.fromStart.startPosition = track.playStart :=
    congrArg (·.getD track.startPosition) hdue.symm
  rw [hstart]
  rfl

/-! ### What keeps a position -/

/-- What waits has the position at which it is due, if any, and what was taken last has none. -/
structure Primed (point : Option ResumePoint) (queue : TrackQueue) (calls : List Call) : Prop where
  resumed : ResumesOnce point calls
  queued : ∀ track ∈ queue.tracks, track.resumeAt = ResumePoint.due? point calls track.id
  /-- A second copy would keep the position when the first one has used it. -/
  once : ∀ id, (ResumePoint.due? point calls id).isSome = true → queue.ids.count id ≤ 1
  last : ∀ track, queue.lastTaken = some track →
    track.resumeAt = none ∧ ResumePoint.due? point calls track.id = none

namespace Primed

variable {queue : TrackQueue}

theorem quiet (h : Primed point queue calls) (step : QueueStep) (hquiet : step.isQuiet = true) :
    Primed point (queue.after step) calls where
  resumed := h.resumed
  queued := by
    intro track htrack
    rcases queue.tracks_after_quiet hquiet with hpart | hrefresh
    · exact h.queued track (hpart htrack)
    · rw [hrefresh] at htrack
      obtain ⟨old, hold, hwish, hresume⟩ := TrackQueue.exists_of_mem_refresh htrack
      have hid : track.id = old.id := congrArg (·.id) hwish
      rw [hid, hresume]
      exact h.queued old hold
  once := by
    intro id hdue
    have hcount := (queue.ids_after_quiet_perm hquiet).count_eq id
    rw [List.count_append] at hcount
    exact Nat.le_trans (hcount ▸ Nat.le_add_right _ _) (h.once id hdue)
  last := by
    intro track htrack
    rcases queue.lastTaken_after_quiet hquiet with hsame | hnone
    · exact h.last track (hsame ▸ htrack)
    · rw [hnone] at htrack
      cases htrack

/-- More calls, after which the same is due. -/
theorem of_due?_eq (h : Primed point queue calls) {later : List Call}
    (hresumed : ResumesOnce point later)
    (hsame : ∀ id, ResumePoint.due? point later id = ResumePoint.due? point calls id) :
    Primed point queue later where
  resumed := hresumed
  queued := by simpa only [hsame] using h.queued
  once := by simpa only [hsame] using h.once
  last := by simpa only [hsame] using h.last

theorem asked (h : Primed point queue calls) {call : Call} (hplay : call.isPlay = false) :
    Primed point queue (calls ++ [call]) := by
  refine h.of_due?_eq (h.resumed.append fun hcall => ?_) (ResumePoint.due?_asked hplay)
  rw [hplay] at hcall
  cases hcall

/-- Repeat single loads the track taken last, which is not due. -/
theorem again (h : Primed point queue calls) {track : Track}
    (hlast : queue.lastTaken = some track) (done : Bool) :
    Primed point queue (calls ++ [.ofLoad track done]) := by
  obtain ⟨hresume, hdue⟩ := h.last track hlast
  refine h.of_due?_eq (h.resumed.load (hresume.trans hdue.symm) done) fun id => ?_
  rw [ResumePoint.due?_loaded]
  split
  · next hid => rw [hid, hdue]
  · rfl

/-- Nothing that waits besides a track that is due has its id. -/
theorem due?_of_other (h : Primed point queue calls) {position : Nat} {found other : Track}
    (hfound : queue.tracks[position]? = some found)
    (hother : other ∈ queue.tracks.eraseIdx position) (hid : other.id = found.id) :
    ResumePoint.due? point calls found.id = none := by
  by_contra hdue
  have hone := h.once found.id (Option.isSome_iff_ne_none.mpr hdue)
  have hcount := (TrackQueue.ids_eraseIdx_perm hfound).count_eq found.id
  have hagain : 0 < ((queue.tracks.eraseIdx position).map (·.id)).count found.id :=
    List.count_pos_iff.mpr (hid ▸ List.mem_map_of_mem hother)
  rw [List.count_cons_self] at hcount
  change queue.ids.count found.id = _ at hcount
  omega

theorem takeAt (h : Primed point queue calls) {position : Nat} {found : Track}
    (hfound : queue.tracks[position]? = some found) (done : Bool) :
    Primed point (queue.takeAt position found).2
      (calls ++ [.ofLoad (queue.takeAt position found).1 done]) := by
  have hid := (queue.takeAt_given position found).1
  obtain ⟨-, hresume, hleft, hlast⟩ := queue.takeAt_leaves position found
  have hdue : (queue.takeAt position found).1.resumeAt =
      ResumePoint.due? point calls (queue.takeAt position found).1.id := by
    rw [hresume, hid]
    exact h.queued found (List.mem_of_getElem? hfound)
  refine ⟨h.resumed.load hdue done, fun track htrack => ?_, fun id hwaits => ?_,
    fun track htrack => ?_⟩
  -- repeat all puts the track back, but from its start, just as it is not due any more
  · rw [ResumePoint.due?_loaded, hid]
    rcases List.mem_append.mp (hleft htrack) with hold | hback
    · rw [h.queued track (List.mem_of_mem_eraseIdx hold)]
      split
      · next hsame => rw [hsame, h.due?_of_other hfound hold hsame]
      · rfl
    · obtain rfl := List.mem_singleton.mp hback
      exact (if_pos hid).symm
  · rw [ResumePoint.due?_loaded] at hwaits
    split at hwaits
    · cases hwaits
    · exact Nat.le_trans (queue.count_takeAt_le hfound id) (h.once id hwaits)
  · obtain rfl := Option.some.inj (hlast.symm.trans htrack)
    exact ⟨rfl, by rw [ResumePoint.due?_loaded]; exact if_pos rfl⟩

theorem loaded (h : Primed point queue calls) {track : Track}
    (hgiven : queue.take.1 = some track) (done : Bool) :
    Primed point queue.take.2 (calls ++ [.ofLoad track done]) := by
  rcases TrackQueue.take_cases queue with
    ⟨last, hsticky, heq⟩ | ⟨-, heq⟩ | ⟨-, position, found, -, hfound, heq⟩
  · rw [heq] at hgiven ⊢
    obtain rfl : last = track := Option.some.inj hgiven
    exact h.again (TrackQueue.sticky?_eq_some.mp hsticky).2 done
  · rw [heq] at hgiven
    cases hgiven
  · rw [heq] at hgiven ⊢
    obtain rfl := Option.some.inj hgiven
    have hrefreshed : Primed point queue.refresh calls := h.quiet (.range 0 1) rfl
    exact hrefreshed.takeAt hfound done

/-- New tracks, which bring no position, may be queued unless they would be taken for the track that
is due. -/
theorem addAll (h : Primed point queue calls) {tracks : List Track}
    (hnew : ∀ track ∈ tracks, track.resumeAt = none ∧
      ResumePoint.due? point calls track.id = none) (silent : Bool) :
    Primed point (queue.addAll tracks silent) calls where
  resumed := h.resumed
  queued := by
    intro track htrack
    rcases List.mem_append.mp ((queue.tracks_addAll_perm tracks silent).mem_iff.mp htrack) with
      hadded | hold
    · obtain ⟨hresume, hdue⟩ := hnew track hadded
      exact hresume.trans hdue.symm
    · exact h.queued track hold
  once := by
    intro id hdue
    have hnone : (tracks.map (·.id)).count id = 0 := by
      refine List.count_eq_zero.mpr fun hmem => ?_
      obtain ⟨track, htrack, rfl⟩ := List.mem_map.mp hmem
      rw [(hnew track htrack).2] at hdue
      cases hdue
    rw [(TrackQueue.ids_addAll_perm queue tracks silent).count_eq, List.count_append, hnone,
      Nat.zero_add]
    exact h.once id hdue
  last := by
    intro track htrack
    refine h.last track ?_
    rw [← htrack]
    cases silent <;> rfl

end Primed

namespace SavedTrack

end SavedTrack

namespace PlayerSnapshot

variable {snapshot : PlayerSnapshot} {mint : Mint}

end PlayerSnapshot

namespace Session

open Operation

end Session

end Jukebox
