import Jukebox.Limits
import Jukebox.Proofs.Queue.Takes
import Mathlib.Data.List.Dedup
import Mathlib.Data.List.Perm.Subperm

/-!
Tracks that keep the limits of a guild. A copy of a track counts once, and nothing about its place
among the others matters. What a check admits keeps the limits together with what was held, since
a track counts the whole batch before it, admitted or not.
-/
namespace Jukebox

namespace Track

/-- The limits look at nothing but the wish. -/
theorem same_of_wish {track other : Track} (h : track.wish = other.wish) :
    track.id = other.id ∧ track.requester = other.requester ∧
      track.fromPlaylist = other.fromPlaylist ∧ track.duration? = other.duration? := by
  simp only [wish, Track.mk.injEq] at h
  obtain ⟨hid, haudio, hrequester, -, -, hplaylist, hchapter, -⟩ := h
  exact ⟨hid, hrequester, hplaylist, by unfold duration?; rw [haudio, hchapter]⟩

theorem isStream_of_duration? {track : Track} {duration : Millis}
    (h : track.duration? = some duration) : track.isStream = false := by
  unfold duration? at h
  split at h
  · cases h
  · next hstream => exact Bool.eq_false_iff.mpr hstream

end Track

/-! ### Counting different tracks -/

/-- How many different tracks there are; the copies of a track count once. -/
def distinctCount (tracks : List Track) : Nat := (tracks.map (·.id)).dedup.length

theorem dedup_length_le_of_subset {α : Type} [DecidableEq α] {list other : List α}
    (h : list ⊆ other) : list.dedup.length ≤ other.length := by
  have hpart : list.dedup ⊆ other := fun value hvalue => h (List.mem_dedup.mp hvalue)
  exact (List.subperm_of_subset list.nodup_dedup hpart).length_le

theorem distinctCount_le_of_subset {tracks others : List Track}
    (h : tracks.map (·.id) ⊆ others.map (·.id)) : distinctCount tracks ≤ distinctCount others :=
  dedup_length_le_of_subset fun _ hid => List.mem_dedup.mpr (h hid)

theorem distinctCount_le_length (tracks : List Track) : distinctCount tracks ≤ tracks.length := by
  have h := dedup_length_le_of_subset (List.Subset.refl (tracks.map (·.id)))
  rwa [List.length_map] at h

theorem distinctCount_append_le (tracks others : List Track) :
    distinctCount (tracks ++ others) ≤ tracks.length + distinctCount others := by
  have hpart : (tracks ++ others).map (·.id) ⊆
      tracks.map (·.id) ++ (others.map (·.id)).dedup := by
    intro id hid
    rw [List.map_append, List.mem_append] at hid
    rw [List.mem_append, List.mem_dedup]
    exact hid
  have h := dedup_length_le_of_subset hpart
  rwa [List.length_append, List.length_map] at h

/-! ### Keeping the limits -/

namespace GuildLimits

structure KeptBy (limits : GuildLimits) (held : List Track) : Prop where
  total : ∀ limit, limits.maxTracks = some limit → distinctCount held ≤ limit.toNat
  ofUser : ∀ limit, limits.userMaxTracks = some limit → ∀ user : UserId,
    distinctCount (held.filter (·.requester = user)) ≤ limit.toNat
  noPlaylist : limits.playlistAllowed = false → ∀ track ∈ held, track.fromPlaylist = false
  short : ∀ limit, limits.maxTrackLengthMillis = some limit → ∀ track ∈ held,
    track.isStream = false ∧ ∃ duration, track.duration? = some duration ∧ duration < limit

variable {limits : GuildLimits} {held others : List Track}

theorem keptBy_nil (limits : GuildLimits) : limits.KeptBy [] where
  total := fun _ _ => Nat.zero_le _
  ofUser := fun _ _ _ => Nat.zero_le _
  noPlaylist := fun _ _ htrack => absurd htrack List.not_mem_nil
  short := fun _ _ _ htrack => absurd htrack List.not_mem_nil

/-- Letting go of tracks, copying them, and giving them another place keeps the limits. -/
theorem KeptBy.of_subset (h : limits.KeptBy held)
    (hpart : others.map Track.wish ⊆ held.map Track.wish) : limits.KeptBy others := by
  have hold : ∀ track ∈ others, ∃ old ∈ held, old.wish = track.wish := fun track htrack =>
    List.mem_map.mp (hpart (List.mem_map_of_mem htrack))
  refine ⟨fun limit hlimit => ?_, fun limit hlimit user => ?_, fun hlimit track htrack => ?_,
    fun limit hlimit track htrack => ?_⟩
  · refine Nat.le_trans (distinctCount_le_of_subset ?_) (h.total limit hlimit)
    intro id hid
    obtain ⟨track, htrack, rfl⟩ := List.mem_map.mp hid
    obtain ⟨old, hheld, hsame⟩ := hold track htrack
    exact List.mem_map.mpr ⟨old, hheld, (Track.same_of_wish hsame).1⟩
  · refine Nat.le_trans (distinctCount_le_of_subset ?_) (h.ofUser limit hlimit user)
    intro id hid
    obtain ⟨track, htrack, rfl⟩ := List.mem_map.mp hid
    rw [List.mem_filter, decide_eq_true_eq] at htrack
    obtain ⟨old, hheld, hsame⟩ := hold track htrack.1
    obtain ⟨hsameId, hsameUser, -⟩ := Track.same_of_wish hsame
    have hown : decide (old.requester = user) = true := by rw [hsameUser, htrack.2]; simp
    exact List.mem_map.mpr ⟨old, List.mem_filter.mpr ⟨hheld, hown⟩, hsameId⟩
  · obtain ⟨old, hheld, hsame⟩ := hold track htrack
    rw [← (Track.same_of_wish hsame).2.2.1]
    exact h.noPlaylist hlimit old hheld
  · obtain ⟨old, hheld, hsame⟩ := hold track htrack
    obtain ⟨-, duration, hduration, hshort⟩ := h.short limit hlimit old hheld
    rw [(Track.same_of_wish hsame).2.2.2] at hduration
    exact ⟨Track.isStream_of_duration? hduration, duration, hduration, hshort⟩

/-! ### What a check admits -/

theorem allows_of_unbroken {track : Track} {counts : TrackCounts} {pending : Nat}
    (h : limits.brokenRule? track counts pending = none) (rule : LimitRule) :
    rule.allows track counts pending limits = true := by
  have hkept := List.find?_eq_none.mp h rule (by cases rule <;> simp [LimitRule.chain])
  simpa using hkept

theorem lt_of_below {value : Nat} {limit : UInt64} (h : LimitRule.below value (some limit) = true) :
    value < limit.toNat := by
  simpa [LimitRule.below] using h

def admitted (limits : GuildLimits) (counts : TrackCounts) (pending : Nat) :
    List Track → List Track
  | [] => []
  | track :: rest =>
    match limits.brokenRule? track counts pending with
    | none => track :: admitted limits counts (pending + 1) rest
    | some _ => admitted limits counts (pending + 1) rest

/-- The statuses of a batch let through what is admitted. -/
theorem allowed_eq_admitted (counts : TrackCounts) (pending : Nat) (tracks : List Track) :
    ((tracks.zip ((limits.brokenRules counts pending tracks).map limits.statusOf)).filter
      (·.2.allowed)).map (·.1) = limits.admitted counts pending tracks := by
  induction tracks generalizing pending with
  | nil => rfl
  | cons track rest ih =>
    have hrest := ih (pending + 1)
    cases hrule : limits.brokenRule? track counts pending with
    | none => simpa [brokenRules, admitted, hrule, statusOf, LimitStatus.success] using hrest
    | some rule => simpa [brokenRules, admitted, hrule, statusOf, LimitRule.refusal] using hrest

/-- Every admitted track broke no rule at its place in the batch. -/
theorem unbroken_of_mem_admitted {counts : TrackCounts} {pending : Nat} {tracks : List Track}
    {track : Track} (h : track ∈ limits.admitted counts pending tracks) :
    ∃ place, limits.brokenRule? track counts place = none := by
  induction tracks generalizing pending with
  | nil => cases h
  | cons head rest ih =>
    unfold admitted at h
    cases hrule : limits.brokenRule? head counts pending with
    | some rule =>
      rw [hrule] at h
      exact ih h
    | none =>
      rw [hrule] at h
      rcases List.mem_cons.mp h with rfl | hrest
      · exact ⟨pending, hrule⟩
      · exact ih hrest

/-- If a rule bounds the place of every admitted track of a kind, it bounds their number. -/
theorem countP_admitted {counts : TrackCounts} {kind : Track → Bool} {base limit : Nat}
    (hbelow : ∀ track pending, kind track = true →
      limits.brokenRule? track counts pending = none → base + pending < limit)
    (pending : Nat) (tracks : List Track) :
    (limits.admitted counts pending tracks).countP kind = 0 ∨
      base + pending + (limits.admitted counts pending tracks).countP kind ≤ limit := by
  induction tracks generalizing pending with
  | nil => exact .inl rfl
  | cons track rest ih =>
    have hrest := ih (pending + 1)
    unfold admitted
    cases hrule : limits.brokenRule? track counts pending with
    | some rule =>
      dsimp only
      omega
    | none =>
      dsimp only
      cases hkind : kind track with
      | false =>
        rw [List.countP_cons_of_neg (by simp [hkind])]
        omega
      | true =>
        have hplace := hbelow track pending hkind hrule
        rw [List.countP_cons_of_pos hkind]
        omega

/-- The bound holds of what was held and of what is admitted together. -/
theorem distinctCount_admitted_le {counts : TrackCounts} {kind : Track → Bool} {base limit : Nat}
    (hbelow : ∀ track pending, kind track = true →
      limits.brokenRule? track counts pending = none → base + pending < limit)
    (hbase : held.countP kind ≤ base) (hheld : distinctCount (held.filter kind) ≤ limit)
    (tracks : List Track) :
    distinctCount ((limits.admitted counts 0 tracks ++ held).filter kind) ≤ limit := by
  have hfew : distinctCount (held.filter kind) ≤ base := by
    rw [List.countP_eq_length_filter] at hbase
    exact Nat.le_trans (distinctCount_le_length _) hbase
  have htogether := distinctCount_append_le ((limits.admitted counts 0 tracks).filter kind)
    (held.filter kind)
  rw [← List.filter_append, ← List.countP_eq_length_filter] at htogether
  rcases countP_admitted hbelow 0 tracks with hnone | hsome
  · omega
  · omega

/-- What a check admits keeps the limits together with the tracks that were counted. -/
theorem KeptBy.with_admitted (h : limits.KeptBy held) {counts : TrackCounts}
    (htotal : held.length ≤ counts.total)
    (hofUser : ∀ user, held.countP (·.requester = user) ≤ counts.ofUser user)
    (tracks : List Track) : limits.KeptBy (limits.admitted counts 0 tracks ++ held) := by
  refine ⟨fun limit hlimit => ?_, fun limit hlimit user => ?_, fun hlimit track htrack => ?_,
    fun limit hlimit track htrack => ?_⟩
  · have hbelow : ∀ track pending, true = true →
        limits.brokenRule? track counts pending = none → counts.total + pending < limit.toNat := by
      intro track pending _ hunbroken
      have hallows := allows_of_unbroken hunbroken .trackLimit
      simp only [LimitRule.allows, hlimit] at hallows
      exact lt_of_below hallows
    have hheld : distinctCount (held.filter fun _ => true) ≤ limit.toNat := by
      rw [List.filter_true]
      exact h.total limit hlimit
    have hbound := distinctCount_admitted_le hbelow (by simpa using htotal) hheld tracks
    rwa [List.filter_true] at hbound
  · have hbelow : ∀ track pending, decide (track.requester = user) = true →
        limits.brokenRule? track counts pending = none →
          counts.ofUser user + pending < limit.toNat := by
      intro track pending hrequester hunbroken
      have hallows := allows_of_unbroken hunbroken .userTrackLimit
      simp only [LimitRule.allows, hlimit, of_decide_eq_true hrequester] at hallows
      exact lt_of_below hallows
    exact distinctCount_admitted_le hbelow (hofUser user) (h.ofUser limit hlimit user) tracks
  · rcases List.mem_append.mp htrack with hnew | hold
    · obtain ⟨place, hunbroken⟩ := unbroken_of_mem_admitted hnew
      have hallows := allows_of_unbroken hunbroken .noPlaylist
      simpa [LimitRule.allows, hlimit] using hallows
    · exact h.noPlaylist hlimit track hold
  · rcases List.mem_append.mp htrack with hnew | hold
    · obtain ⟨place, hunbroken⟩ := unbroken_of_mem_admitted hnew
      have hallows := allows_of_unbroken hunbroken .trackLength
      cases hduration : track.duration? with
      | none => simp [LimitRule.allows, hduration, hlimit] at hallows
      | some duration =>
        simp only [LimitRule.allows, hduration, hlimit] at hallows
        exact ⟨Track.isStream_of_duration? hduration, duration, rfl,
          UInt64.lt_iff_toNat_lt.mpr (lt_of_below hallows)⟩
    · exact h.short limit hlimit track hold

end GuildLimits

end Jukebox
