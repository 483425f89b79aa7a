import Mathlib.Algebra.GroupWithZero.Nat
import Jukebox.Proofs.Player.SnapshotRoundTrip

/-!
Seeking in the current track. A position is counted from the start of the track and lies within its
length; the node is told the position in the whole recording. Neither leaves the words that hold
them, whatever the bounds of a chapter are: one that ends before it starts has no length, so that
only its start can be sought. What is left to play afterwards is the rest of the track and the
queue.
-/
namespace Jukebox

namespace Track

/-- A position in a track can be sought if the track has a length, can be sought in, and is not
over by then. -/
def Admits (track : Track) (position : Millis) : Prop :=
  track.isStream = false ∧ track.audio.isSeekable = true ∧
    ∃ duration, track.duration? = some duration ∧ position ≤ duration

/-- All but a live stream have a length. -/
theorem exists_duration {track : Track} (h : track.isStream = false) :
    ∃ duration, track.duration? = some duration := by
  have hstream : track.audio.isStream = false := h
  unfold duration?
  rw [hstream, if_neg Bool.false_ne_true]
  split <;> exact ⟨_, rfl⟩

/-- The end of a track, counted from the start of its recording, is the end of the chapter, or the
start of a chapter that ends before it starts. -/
theorem start_add_duration {track : Track} {duration : Millis}
    (h : track.duration? = some duration) :
    track.startPosition.toNat + duration.toNat =
      match track.endPosition? with
      | some stop => max track.startPosition.toNat stop.toNat
      | none => duration.toNat := by
  unfold duration? at h
  split at h
  · cases h
  · cases hchapter : track.chapter with
    | none => simp [startPosition, endPosition?, hchapter]
    | some chapter =>
      rw [hchapter] at h
      obtain rfl := Option.some.inj h
      simp only [startPosition, endPosition?, hchapter, Option.map_some, Millis.toNat_between]
      omega

theorem start_add_duration_lt {track : Track} {duration : Millis}
    (h : track.duration? = some duration) :
    track.startPosition.toNat + duration.toNat < UInt64.size := by
  rw [start_add_duration h]
  split
  · exact Nat.max_lt.mpr ⟨track.startPosition.toNat_lt_size, UInt64.toNat_lt_size _⟩
  · exact duration.toNat_lt_size

/-- The place of a position in the whole recording. -/
theorem toNat_start_add {track : Track} {duration position : Millis}
    (h : track.duration? = some duration) (hposition : position ≤ duration) :
    (track.startPosition + position).toNat = track.startPosition.toNat + position.toNat := by
  have hroom := start_add_duration_lt h
  rw [UInt64.le_iff_toNat_le] at hposition
  rw [UInt64.toNat_add, Nat.mod_eq_of_lt]
  exact Nat.lt_of_le_of_lt (Nat.add_le_add_left hposition _) hroom

end Track

/-! ### The time left -/

namespace TrackQueue

/-- The length of all queued tracks, as a number without bound. -/
def totalLength (queue : TrackQueue) : Nat :=
  ((queue.tracks.filterMap (·.duration?)).map (·.toNat)).sum

theorem toNat_foldl_add (lengths : List Millis) (first : Millis) :
    (lengths.foldl (· + ·) first).toNat =
      (first.toNat + (lengths.map (·.toNat)).sum) % UInt64.size := by
  induction lengths generalizing first with
  | nil => exact (Nat.mod_eq_of_lt first.toNat_lt_size).symm
  | cons length rest ih =>
    rw [List.foldl_cons, ih, UInt64.toNat_add, List.map_cons, List.sum_cons, ← Nat.add_assoc]
    exact Nat.mod_add_mod _ _ _

theorem toNat_totalMillis (queue : TrackQueue) :
    queue.totalMillis.toNat = queue.totalLength % UInt64.size := by
  rw [totalMillis, toNat_foldl_add, totalLength]
  exact congrArg (· % UInt64.size) (Nat.zero_add _)

end TrackQueue

/-- What is left when the node is at a position of the current track. -/
theorem Player.toNat_remainingMillis {player : Player} {track : Track} {duration position : Millis}
    (hcurrent : player.current = some track) (hduration : track.duration? = some duration)
    (hposition : position ≤ duration)
    (hfits : duration.toNat - position.toNat + player.queue.totalLength < UInt64.size) :
    (player.remainingMillis (track.startPosition + position)).toNat =
      duration.toNat - position.toNat + player.queue.totalLength := by
  have hplayed : (Millis.between track.startPosition (track.startPosition + position)).toNat =
      position.toNat := by
    rw [Millis.toNat_between, Track.toNat_start_add hduration hposition, Nat.add_sub_cancel_left]
  have hcurrentLeft : (player.currentRemaining (track.startPosition + position)).toNat =
      duration.toNat - position.toNat := by
    simp only [currentRemaining, hcurrent, hduration, Millis.toNat_between, hplayed]
  have htotal : player.queue.totalMillis.toNat = player.queue.totalLength := by
    rw [TrackQueue.toNat_totalMillis, Nat.mod_eq_of_lt]
    omega
  rw [remainingMillis, UInt64.toNat_add, hcurrentLeft, htotal, Nat.mod_eq_of_lt hfits]

/-! ### Seeking -/

def PlayerError.deniesSeek : PlayerError → Bool
  | .nothingPlaying | .liveStream | .notSeekable | .outOfRange _ _ => true
  | _ => false

namespace Session

open Operation

variable {session : Session} {track : Track} {position : Millis}

theorem run_seek_admitted (hcurrent : session.player.current = some track)
    (hadmits : track.Admits position) :
    (seek position).run session = (ask (.seek (track.startPosition + position))).run session := by
  obtain ⟨hstream, hseekable, duration, hduration, hposition⟩ := hadmits
  have htarget : session.player.seekTarget position =
      .position (track.startPosition + position) := by
    simp only [Player.seekTarget, hcurrent, hstream, hseekable, hduration, Option.getD_some,
      Bool.not_true, Bool.false_eq_true, if_false, UInt64.not_lt.mpr hposition]
  unfold seek
  rw [run_bind, run_get, htarget]

theorem run_seek_denied (hcurrent : session.player.current = some track)
    (hdenied : ¬ track.Admits position) :
    ∃ cause : PlayerError, cause.deniesSeek = true ∧
      (seek position).run session = (.error cause, session) := by
  unfold seek
  rw [run_bind, run_get]
  simp only [Player.seekTarget, hcurrent]
  by_cases hstream : track.isStream = true
  · exact ⟨.liveStream, rfl, by simp only [hstream, if_true, run_fail]⟩
  · rw [Bool.not_eq_true] at hstream
    by_cases hseekable : track.audio.isSeekable = true
    · obtain ⟨duration, hduration⟩ := Track.exists_duration hstream
      have hafter : duration < position := by
        refine UInt64.not_le.mp fun hposition => ?_
        exact hdenied ⟨hstream, hseekable, duration, hduration, hposition⟩
      exact ⟨.outOfRange position duration, rfl, by
        simp only [hstream, hseekable, hduration, hafter, Option.getD_some, Bool.not_true,
          Bool.false_eq_true, if_false, if_true, run_fail]⟩
    · rw [Bool.not_eq_true] at hseekable
      exact ⟨.notSeekable, rfl, by
        simp only [hstream, hseekable, Bool.not_false, Bool.false_eq_true, if_false, if_true,
          run_fail]⟩

/-- A seek that is passed on leads to a place within the track, and then the rest of it is left. -/
structure LeadsWithin (session : Session) (track : Track) (position : Millis) : Prop where
  passed : (seek position).run session =
    (ask (.seek (track.startPosition + position))).run session
  /-- The sum does not wrap around. -/
  place : (track.startPosition + position).toNat = track.startPosition.toNat + position.toNat
  within : ∀ duration, track.duration? = some duration →
    track.startPosition ≤ track.startPosition + position ∧
      (track.startPosition + position).toNat ≤ track.startPosition.toNat + duration.toNat
  beforeEnd : ∀ stop, track.endPosition? = some stop → track.startPosition ≤ stop →
    track.startPosition + position ≤ stop
  left : ∀ duration, track.duration? = some duration →
    session.node.refusal? (.seek (track.startPosition + position)) = none →
    duration.toNat - position.toNat + session.player.queue.totalLength < UInt64.size →
    (((seek position).run session).2.player.remainingMillis
      ((seek position).run session).2.node.position).toNat =
        duration.toNat - position.toNat + session.player.queue.totalLength

structure SeeksWithin (session : Session) (track : Track) (position : Millis) : Prop where
  /-- What is not passed on is denied, and nothing has changed. -/
  denied_iff : (∃ cause : PlayerError, cause.deniesSeek = true ∧
    (seek position).run session = (.error cause, session)) ↔ ¬ track.Admits position
  /-- Where the node does it, nothing else is in the way. -/
  succeeds_iff : session.node.refusal? (.seek (track.startPosition + position)) = none →
    (((seek position).run session).1 = .ok () ↔ track.Admits position)
  leads : track.Admits position → LeadsWithin session track position

theorem leadsWithin_of_admits (hcurrent : session.player.current = some track)
    (hadmits : track.Admits position) : LeadsWithin session track position := by
  have hrun := run_seek_admitted hcurrent hadmits
  obtain ⟨-, -, duration, hduration, hposition⟩ := hadmits
  have hplace := Track.toNat_start_add hduration hposition
  have hposition' := UInt64.le_iff_toNat_le.mp hposition
  have hsame {other : Millis} (hother : track.duration? = some other) : other = duration :=
    Option.some.inj (hother.symm.trans hduration)
  refine ⟨hrun, hplace, fun other hother => ?_, fun stop hstop hordered => ?_,
    fun other hother haccepted hfits => ?_⟩
  · rw [hsame hother, UInt64.le_iff_toNat_le, hplace]
    omega
  · have hend := Track.start_add_duration hduration
    simp only [hstop] at hend
    rw [UInt64.le_iff_toNat_le] at hordered ⊢
    rw [hplace]
    omega
  · rw [hsame hother] at hfits ⊢
    have hdone : session.perform (.seek (track.startPosition + position)) =
        (.ok (), session.setNode fun node =>
          (node.carryOut (.seek (track.startPosition + position))).record
            (.seek (track.startPosition + position)) true) := by
      simp only [perform, AudioNode.perform, haccepted, setNode]
    rw [hrun, run_ask, hdone]
    exact Player.toNat_remainingMillis hcurrent hduration hposition hfits

/-- Whatever the current track and its bounds, a seek in it is accepted exactly if the track admits
the position, and then it leads to a place within the track. -/
theorem seek_keeps_within (hcurrent : session.player.current = some track) (position : Millis) :
    SeeksWithin session track position := by
  by_cases hadmits : track.Admits position
  · have hleads := leadsWithin_of_admits hcurrent hadmits
    have hask := hleads.passed
    rw [run_ask] at hask
    refine ⟨iff_of_false ?_ (not_not_intro hadmits), fun haccepted => ?_, fun _ => hleads⟩
    · rintro ⟨cause, hcause, hrun⟩
      -- what the node answers is none of the reasons to deny a seek
      rw [hask] at hrun
      have hanswer := congrArg Prod.fst hrun
      cases hnode : (session.perform (.seek (track.startPosition + position))).1 with
      | ok => rw [hnode] at hanswer; cases hanswer
      | error refusal =>
        rw [hnode] at hanswer
        cases hanswer
        cases hcause
    · refine iff_of_true ?_ hadmits
      have hdone : (session.perform (.seek (track.startPosition + position))).1 = .ok () :=
        AudioNode.perform_eq_ok_iff.mpr haccepted
      rw [hask, hdone]
      rfl
  · have hdenied := run_seek_denied hcurrent hadmits
    refine ⟨iff_of_true hdenied hadmits, fun _ => iff_of_false ?_ hadmits,
      fun hcontra => absurd hcontra hadmits⟩
    obtain ⟨cause, -, hrun⟩ := hdenied
    rw [hrun]
    exact nofun

def lateChapter : Track :=
  { sampleTrack 1 firstUser false with
    chapter := some {
      startMillis := 18446744073709551610, endMillis := 18446744073709551615, title := "Late" } }

def lateSession : Session :=
  sampleSession.setPlayer fun player =>
    { player with
      current := some lateChapter
      queue := player.queue.add (sampleTrack 2 secondUser false) false }

theorem seek_keeps_within_lateChapter :
    lateSession.player.current = some lateChapter ∧ SeeksWithin lateSession lateChapter 6 ∧
      ¬ lateChapter.Admits 6 ∧ SeeksWithin lateSession lateChapter 5 ∧ lateChapter.Admits 5 ∧
      (((seek 5).run lateSession).2.player.remainingMillis
        ((seek 5).run lateSession).2.node.position).toNat = 180000 := by
  have hcurrent : lateSession.player.current = some lateChapter := rfl
  have hadmits : lateChapter.Admits 5 := ⟨rfl, rfl, 5, by decide, by decide⟩
  have hpast : ¬ lateChapter.Admits 6 := by
    rintro ⟨-, -, duration, hduration, hposition⟩
    have hlength : lateChapter.duration? = some 5 := by decide
    obtain rfl : duration = 5 := Option.some.inj (hduration.symm.trans hlength)
    exact absurd hposition (by decide)
  have hseeks := seek_keeps_within hcurrent 5
  exact ⟨hcurrent, seek_keeps_within hcurrent 6, hpast, hseeks, hadmits,
    (hseeks.leads hadmits).left 5 (by decide) (by decide) (by decide)⟩

end Session

end Jukebox
