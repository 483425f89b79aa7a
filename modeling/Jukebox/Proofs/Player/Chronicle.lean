import Jukebox.Node.AudioNode
import Mathlib.Data.List.Basic

/-!
The record of a player. From outside, a player shows what its node was asked, what ends it was told
of, and whether it was destroyed. In such a record a play that the node accepted is under way until
the next thing that ends it or takes its place. The chronicle of a record lists the plays that were
under way when their end was reported as natural or as a stop.
-/
namespace Jukebox

/-- What can be seen of a player from outside. -/
inductive Happening
  | asked (note : Asked)
  | reported (reason : EndReason)
  | closed
deriving DecidableEq

namespace Happening

def isPlay : Happening → Bool
  | .asked note => note.command.kind = .play && note.done
  | _ => false

/-- The end of a play was reported in a way that the history remembers. -/
def isEnd : Happening → Bool
  | .reported reason => reason = .finished || reason = .stopped
  | _ => false

/-- No earlier play is under way after this: its end was reported, or another play was asked for,
accepted or not, or the player was destroyed. -/
def cuts : Happening → Bool
  | .asked note => note.command.kind = .play
  | .reported reason => reason = .finished || reason = .stopped || reason = .loadFailed
  | .closed => true

def PlayOf (track : Track) (happening : Happening) : Prop :=
  ∃ start, happening = .asked ⟨.play track.audio start track.endPosition?, true⟩

variable {happening : Happening}

theorem cuts_of_isPlay (h : happening.isPlay = true) : happening.cuts = true := by
  cases happening with
  | asked note =>
    rw [isPlay, Bool.and_eq_true] at h
    exact h.1
  | reported | closed => cases h

theorem cuts_of_isEnd (h : happening.isEnd = true) : happening.cuts = true := by
  cases happening with
  | reported reason =>
    rw [isEnd] at h
    rw [cuts, h, Bool.true_or]
  | asked | closed => cases h

theorem PlayOf.isPlay {track : Track} (h : happening.PlayOf track) : happening.isPlay = true := by
  obtain ⟨start, rfl⟩ := h
  rfl

end Happening

/-! ### Plays in a record -/

structure UnderWay (record : List Happening) (place : Nat) : Prop where
  play : ∃ happening, record[place]? = some happening ∧ happening.isPlay = true
  since : ∀ later happening, place < later → record[later]? = some happening →
    happening.cuts = false

structure PlayedOut (record : List Happening) (played ended : Nat) : Prop where
  report : ∃ happening, record[ended]? = some happening ∧ happening.isEnd = true
  underWay : UnderWay (record.take ended) played

theorem getElem?_append_singleton_iff {α : Type} {list : List α} {last value : α} {place : Nat} :
    (list ++ [last])[place]? = some value ↔
      list[place]? = some value ∨ place = list.length ∧ last = value := by
  rcases Nat.lt_trichotomy place list.length with hlt | rfl | hgt
  · simp [List.getElem?_append_left hlt, Nat.ne_of_lt hlt]
  · simp
  · simp [Nat.ne_of_gt hgt, List.getElem?_eq_none (Nat.le_of_lt hgt),
      List.getElem?_append_right (Nat.le_of_lt hgt), Nat.sub_ne_zero_of_lt hgt]

namespace UnderWay

variable {record : List Happening} {happening : Happening} {place other : Nat}

theorem lt_length (h : UnderWay record place) : place < record.length := by
  obtain ⟨happening, hplace, -⟩ := h.play
  exact (List.getElem?_eq_some_iff.mp hplace).1

/-- A play that is under way came after every other one. -/
theorem le_of_isPlay (h : UnderWay record place) (hother : record[other]? = some happening)
    (hplay : happening.isPlay = true) : other ≤ place := by
  by_contra hlater
  have hcuts := h.since other happening (Nat.lt_of_not_le hlater) hother
  rw [Happening.cuts_of_isPlay hplay] at hcuts
  cases hcuts

theorem unique (h : UnderWay record place) (hother : UnderWay record other) : place = other := by
  obtain ⟨play, hplace, hplay⟩ := h.play
  obtain ⟨otherPlay, hotherPlace, hotherPlay⟩ := hother.play
  exact Nat.le_antisymm (hother.le_of_isPlay hplace hplay) (h.le_of_isPlay hotherPlace hotherPlay)

/-- A play stays under way, or comes to be, by what happens next. -/
theorem append_iff : UnderWay (record ++ [happening]) place ↔
    UnderWay record place ∧ happening.cuts = false ∨
      place = record.length ∧ happening.isPlay = true := by
  constructor
  · intro h
    obtain ⟨play, hplace, hplay⟩ := h.play
    rcases getElem?_append_singleton_iff.mp hplace with hold | ⟨hlast, rfl⟩
    · have hlt := (List.getElem?_eq_some_iff.mp hold).1
      refine .inl ⟨⟨⟨play, hold, hplay⟩, fun later other hlater hother => ?_⟩, ?_⟩
      · exact h.since later other hlater (getElem?_append_singleton_iff.mpr (.inl hother))
      · exact h.since record.length happening hlt
          (getElem?_append_singleton_iff.mpr (.inr ⟨rfl, rfl⟩))
    · exact .inr ⟨hlast, hplay⟩
  · rintro (⟨h, hquiet⟩ | ⟨rfl, hplay⟩)
    · obtain ⟨play, hplace, hplay⟩ := h.play
      refine ⟨⟨play, getElem?_append_singleton_iff.mpr (.inl hplace), hplay⟩, ?_⟩
      intro later other hlater hother
      rcases getElem?_append_singleton_iff.mp hother with hold | ⟨-, rfl⟩
      · exact h.since later other hlater hold
      · exact hquiet
    · refine ⟨⟨happening, getElem?_append_singleton_iff.mpr (.inr ⟨rfl, rfl⟩), hplay⟩, ?_⟩
      intro later other hlater hother
      rcases getElem?_append_singleton_iff.mp hother with hold | ⟨hlast, -⟩
      · exact absurd (List.getElem?_eq_some_iff.mp hold).1 (Nat.lt_asymm hlater)
      · exact absurd hlast (Nat.ne_of_gt hlater)

/-- Nothing is under way after what cuts every play and is none. -/
theorem not_append (hplay : happening.isPlay = false)
    (hcuts : happening.cuts = true ∨ ¬ UnderWay record place) :
    ¬ UnderWay (record ++ [happening]) place := by
  intro hunderWay
  rcases append_iff.mp hunderWay with ⟨hold, hcalm⟩ | ⟨-, hnew⟩
  · rcases hcuts with hcut | hidle
    · rw [hcut] at hcalm
      cases hcalm
    · exact hidle hold
  · rw [hplay] at hnew
    cases hnew

end UnderWay

/-- What happens next lets a play come to its end exactly if it is such a report and the play is
under way. -/
theorem PlayedOut.append_iff {record : List Happening} {happening : Happening}
    {played ended : Nat} : PlayedOut (record ++ [happening]) played ended ↔
      PlayedOut record played ended ∨
        ended = record.length ∧ happening.isEnd = true ∧ UnderWay record played := by
  have htake (hended : ended ≤ record.length) :
      (record ++ [happening]).take ended = record.take ended :=
    List.take_append_of_le_length hended
  constructor
  · intro h
    obtain ⟨report, hended, hreport⟩ := h.report
    have hunderWay := h.underWay
    rcases getElem?_append_singleton_iff.mp hended with hold | ⟨rfl, rfl⟩
    · rw [htake (Nat.le_of_lt (List.getElem?_eq_some_iff.mp hold).1)] at hunderWay
      exact .inl ⟨⟨report, hold, hreport⟩, hunderWay⟩
    · rw [List.take_left] at hunderWay
      exact .inr ⟨rfl, hreport, hunderWay⟩
  · rintro (h | ⟨rfl, hreport, hunderWay⟩)
    · obtain ⟨report, hended, hreport⟩ := h.report
      refine ⟨⟨report, getElem?_append_singleton_iff.mpr (.inl hended), hreport⟩, ?_⟩
      rw [htake (Nat.le_of_lt (List.getElem?_eq_some_iff.mp hended).1)]
      exact h.underWay
    · refine ⟨⟨happening, getElem?_append_singleton_iff.mpr (.inr ⟨rfl, rfl⟩), hreport⟩, ?_⟩
      rw [List.take_left]
      exact hunderWay

/-! ### The log of the history -/

/-- A play that came to its end: its track, and the places of the play and of the report. -/
structure HistoryEntry where
  track : Track
  played : Nat
  ended : Nat

/-- The entries are the plays of a record that came to their end, in the order in which the node
accepted them, each with its track. -/
structure Chronicle (record : List Happening) (entries : List HistoryEntry) : Prop where
  ordered : entries.Pairwise (·.played < ·.played)
  plays : ∀ entry ∈ entries, ∃ happening, record[entry.played]? = some happening ∧
    happening.PlayOf entry.track
  exact : ∀ played ended, (∃ entry ∈ entries, entry.played = played ∧ entry.ended = ended) ↔
    PlayedOut record played ended

namespace Chronicle

variable {record : List Happening} {entries : List HistoryEntry} {happening : Happening}

theorem empty : Chronicle [] [] where
  ordered := .nil
  plays := by simp
  exact := by
    intro played ended
    refine iff_of_false (by simp) fun h => ?_
    obtain ⟨happening, hended, -⟩ := h.report
    cases hended

theorem plays_append (h : Chronicle record entries) : ∀ entry ∈ entries, ∃ play,
    (record ++ [happening])[entry.played]? = some play ∧ play.PlayOf entry.track := by
  intro entry hentry
  obtain ⟨play, hplace, hplay⟩ := h.plays entry hentry
  exact ⟨play, getElem?_append_singleton_iff.mpr (.inl hplace), hplay⟩

/-- What ends no play that is under way adds no entry. -/
theorem append (h : Chronicle record entries)
    (hquiet : happening.isEnd = true → ∀ place, ¬ UnderWay record place) :
    Chronicle (record ++ [happening]) entries where
  ordered := h.ordered
  plays := h.plays_append
  exact := by
    intro played ended
    rw [h.exact, PlayedOut.append_iff]
    refine ⟨.inl, ?_⟩
    rintro (hold | ⟨-, hend, hunderWay⟩)
    · exact hold
    · exact absurd hunderWay (hquiet hend played)

/-- The end of the play that is under way adds its entry. -/
theorem append_end (h : Chronicle record entries) (hend : happening.isEnd = true) {place : Nat}
    (hunderWay : UnderWay record place) {play : Happening} (hplace : record[place]? = some play)
    {track : Track} (hplay : play.PlayOf track) :
    Chronicle (record ++ [happening]) (entries ++ [⟨track, place, record.length⟩]) where
  ordered := by
    refine List.pairwise_append.mpr ⟨h.ordered, List.pairwise_singleton _ _, ?_⟩
    intro entry hentry last hlast
    obtain rfl := List.mem_singleton.mp hlast
    obtain ⟨earlier, hearlier, hplayed⟩ := h.plays entry hentry
    have hle : entry.played ≤ place := hunderWay.le_of_isPlay hearlier hplayed.isPlay
    -- the same play cannot have come to its end before and be under way
    refine Nat.lt_of_le_of_ne hle fun hsame : entry.played = place => ?_
    have hout := (h.exact entry.played entry.ended).mp ⟨entry, hentry, rfl, rfl⟩
    obtain ⟨report, hended, hreport⟩ := hout.report
    have hbefore := hout.underWay.lt_length
    rw [List.length_take, hsame] at hbefore
    have hcuts := hunderWay.since entry.ended report (by omega) hended
    rw [Happening.cuts_of_isEnd hreport] at hcuts
    cases hcuts
  plays := by
    intro entry hentry
    rcases List.mem_append.mp hentry with hold | hnew
    · exact h.plays_append entry hold
    · obtain rfl := List.mem_singleton.mp hnew
      exact ⟨play, getElem?_append_singleton_iff.mpr (.inl hplace), hplay⟩
  exact := by
    intro played ended
    rw [PlayedOut.append_iff, ← h.exact]
    constructor
    · rintro ⟨entry, hentry, rfl, rfl⟩
      rcases List.mem_append.mp hentry with hold | hnew
      · exact .inl ⟨entry, hold, rfl, rfl⟩
      · obtain rfl := List.mem_singleton.mp hnew
        exact .inr ⟨rfl, hend, hunderWay⟩
    · rintro (⟨entry, hold, hsame⟩ | ⟨rfl, -, hother⟩)
      · exact ⟨entry, List.mem_append_left _ hold, hsame⟩
      · exact ⟨_, List.mem_append_right _ (List.mem_singleton_self _),
          hunderWay.unique hother, rfl⟩

end Chronicle

end Jukebox
