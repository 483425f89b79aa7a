import Jukebox.Proofs.Limits.Admission

/-!
A batch against its tracks one by one. Checked one by one, a track finds counted what of the batch
was let through before it, and as its requester's own only what that user asked for. The check of a
batch counts the place of the track instead. The places are never too few, so the two differ
exactly where a limit lies between them.
-/
namespace Jukebox

def TrackCounts.joinedBy (counts : TrackCounts) (tracks : List Track) : TrackCounts where
  total := counts.total + tracks.length
  ofUser user := counts.ofUser user + tracks.countP (·.requester = user)

namespace LimitRule

theorem below_mono {low high : Nat} (h : low ≤ high) {limit : Option UInt64}
    (hbelow : below high limit = true) : below low limit = true := by
  cases limit with
  | none => rfl
  | some limit =>
    simp only [below, decide_eq_true_eq] at hbelow ⊢
    omega

variable {limits : GuildLimits} {counts : TrackCounts} {track : Track} {before : List Track}
  {place : Nat}

/-- A track that keeps a rule by its place keeps it by what was let through before it. -/
theorem allows_joinedBy {rule : LimitRule} (hbefore : before.length ≤ place)
    (h : rule.allows track counts place limits = true) :
    rule.allows track (counts.joinedBy before) 0 limits = true := by
  cases rule with
  | noPlaylist | trackLength => exact h
  | userTrackLimit =>
    have hown : before.countP (·.requester = track.requester) ≤ before.length :=
      List.countP_le_length
    exact below_mono (by simp only [TrackCounts.joinedBy]; omega) h
  | trackLimit => exact below_mono (by simp only [TrackCounts.joinedBy]; omega) h

theorem code_injective {rule other : LimitRule} (h : rule.code = other.code) : rule = other := by
  cases rule <;> cases other <;> first | rfl | cases h

end LimitRule

namespace GuildLimits

variable {limits : GuildLimits} {counts : TrackCounts} {track : Track} {before : List Track}
  {place : Nat}

/-- A status tells which rule was broken, if any. -/
theorem statusOf_injective {rule other : Option LimitRule}
    (h : limits.statusOf rule = limits.statusOf other) : rule = other := by
  have hcode := congrArg LimitStatus.code h
  cases rule with
  | none =>
    cases other with
    | none => rfl
    | some other => cases other <;> cases hcode
  | some rule =>
    cases other with
    | none => cases rule <;> cases hcode
    | some other => exact congrArg some (LimitRule.code_injective hcode)

/-- With the tracks that were let through before it, a track keeps a limit that it breaks when its
place is counted, and no rule that is tried earlier refuses it in either way. -/
def Misjudges (limits : GuildLimits) (counts : TrackCounts) (track : Track) (before : List Track)
    (place : Nat) : Prop :=
  LimitRule.noPlaylist.allows track counts place limits = true ∧
  LimitRule.userTrackLimit.allows track (counts.joinedBy before) 0 limits = true ∧
  (LimitRule.userTrackLimit.allows track counts place limits = false ∨
    LimitRule.trackLimit.allows track (counts.joinedBy before) 0 limits = true ∧
      LimitRule.trackLimit.allows track counts place limits = false)

instance (limits : GuildLimits) (counts : TrackCounts) (track : Track) (before : List Track)
    (place : Nat) : Decidable (limits.Misjudges counts track before place) :=
  inferInstanceAs (Decidable (_ ∧ _ ∧ (_ ∨ _ ∧ _)))

/-- The rules one after another. -/
theorem brokenRule?_eq (limits : GuildLimits) (track : Track) (counts : TrackCounts)
    (pending : Nat) :
    limits.brokenRule? track counts pending =
      if LimitRule.noPlaylist.allows track counts pending limits = false then some .noPlaylist
      else if LimitRule.userTrackLimit.allows track counts pending limits = false then
        some .userTrackLimit
      else if LimitRule.trackLimit.allows track counts pending limits = false then
        some .trackLimit
      else if LimitRule.trackLength.allows track counts pending limits = false then
        some .trackLength
      else none := by
  unfold brokenRule? LimitRule.chain
  cases hplaylist : LimitRule.noPlaylist.allows track counts pending limits with
  | false => simp [List.find?, hplaylist]
  | true =>
    cases huser : LimitRule.userTrackLimit.allows track counts pending limits with
    | false => simp [List.find?, hplaylist, huser]
    | true =>
      cases htotal : LimitRule.trackLimit.allows track counts pending limits with
      | false => simp [List.find?, hplaylist, huser, htotal]
      | true =>
        cases hlength : LimitRule.trackLength.allows track counts pending limits <;>
          simp [List.find?, hplaylist, huser, htotal, hlength]

/-- The rule that a track breaks alone is the one that it breaks by its place, unless its place
misjudges it. -/
theorem brokenRule?_joinedBy_eq_iff (hbefore : before.length ≤ place) :
    limits.brokenRule? track (counts.joinedBy before) 0 =
        limits.brokenRule? track counts place ↔
      ¬ limits.Misjudges counts track before place := by
  have hkept (rule : LimitRule) (h : rule.allows track counts place limits = true) :
      rule.allows track (counts.joinedBy before) 0 limits = true :=
    LimitRule.allows_joinedBy hbefore h
  have hplaylist : LimitRule.noPlaylist.allows track (counts.joinedBy before) 0 limits =
      LimitRule.noPlaylist.allows track counts place limits := rfl
  have hlength : LimitRule.trackLength.allows track (counts.joinedBy before) 0 limits =
      LimitRule.trackLength.allows track counts place limits := rfl
  rw [brokenRule?_eq, brokenRule?_eq, Misjudges, hplaylist, hlength]
  cases LimitRule.noPlaylist.allows track counts place limits with
  | false => simp
  | true =>
    cases huser : LimitRule.userTrackLimit.allows track counts place limits with
    | false =>
      cases LimitRule.userTrackLimit.allows track (counts.joinedBy before) 0 limits with
      | false => simp
      | true =>
        simp only [Bool.true_eq_false, if_true, if_false]
        refine iff_of_false ?_ (by simp)
        split
        · simp
        · split <;> simp
    | true =>
      rw [hkept .userTrackLimit huser]
      cases htotal : LimitRule.trackLimit.allows track counts place limits with
      | false =>
        cases LimitRule.trackLimit.allows track (counts.joinedBy before) 0 limits with
        | false => simp
        | true => simp
      | true => simp [hkept .trackLimit htotal]

theorem getElem?_brokenRules (limits : GuildLimits) (counts : TrackCounts) (pending : Nat)
    (tracks : List Track) (place : Nat) :
    (limits.brokenRules counts pending tracks)[place]? =
      tracks[place]?.map fun track => limits.brokenRule? track counts (pending + place) := by
  induction tracks generalizing pending place with
  | nil => rfl
  | cons track rest ih =>
    cases place with
    | zero => rfl
    | succ place =>
      have hplace : pending + 1 + place = pending + (place + 1) := by omega
      simpa only [brokenRules, List.getElem?_cons_succ, hplace] using ih (pending + 1) place

theorem length_brokenRules (limits : GuildLimits) (counts : TrackCounts) (pending : Nat)
    (tracks : List Track) : (limits.brokenRules counts pending tracks).length = tracks.length := by
  induction tracks generalizing pending with
  | nil => rfl
  | cons track rest ih => exact congrArg Nat.succ (ih (pending + 1))

/-- What stands later in a batch has no part in what becomes of a track. -/
theorem take_brokenRules (limits : GuildLimits) (counts : TrackCounts) (pending : Nat)
    (tracks : List Track) (place : Nat) :
    (limits.brokenRules counts pending tracks).take place =
      limits.brokenRules counts pending (tracks.take place) := by
  induction tracks generalizing pending place with
  | nil => simp [brokenRules]
  | cons track rest ih =>
    cases place with
    | zero => rfl
    | succ place => exact congrArg (List.cons _) (ih (pending + 1) place)

theorem length_admitted_le (limits : GuildLimits) (counts : TrackCounts) (pending : Nat)
    (tracks : List Track) : (limits.admitted counts pending tracks).length ≤ tracks.length := by
  induction tracks generalizing pending with
  | nil => exact Nat.le_refl 0
  | cons track rest ih =>
    have hrest := ih (pending + 1)
    unfold admitted
    split
    · exact Nat.succ_le_succ hrest
    · exact Nat.le_succ_of_le hrest

end GuildLimits

namespace Admission

def letThrough (tracks : List Track) (statuses : List LimitStatus) : List Track :=
  ((tracks.zip statuses).filter (·.2.allowed)).map (·.1)

/-- Each track of a batch has the status that a check of the track alone gives, when nothing is
counted but what is held and what the statuses before it let through. -/
structure OneByOne (answer : LimitsAnswer) (level : PermissionLevel) (counts : TrackCounts)
    (tracks : List Track) (statuses : List LimitStatus) : Prop where
  length : statuses.length = tracks.length
  alone : ∀ place track status, tracks[place]? = some track → statuses[place]? = some status →
    ∀ metrics, (check answer track level
      (counts.joinedBy (letThrough (tracks.take place) (statuses.take place))) 0 metrics).1 =
        .ok status

variable {limits : GuildLimits} {level : PermissionLevel}

theorem check_eq (hlevel : level.isElevated = false) (track : Track) (counts : TrackCounts)
    (pending : Nat) (metrics : Metrics) :
    (check (.ok limits) track level counts pending metrics).1 =
      .ok (limits.statusOf (limits.brokenRule? track counts pending)) := by
  simp [check, hlevel]

theorem checkAll_eq (hlevel : level.isElevated = false) (tracks : List Track)
    (counts : TrackCounts) (metrics : Metrics) :
    (checkAll (.ok limits) tracks level counts metrics).1 =
      .ok ((limits.brokenRules counts 0 tracks).map limits.statusOf) := by
  simp [checkAll, hlevel]

/-- The batch gives each track the status that it gets alone exactly if no track is misjudged by its
place. -/
theorem checkAll_oneByOne_iff (limits : GuildLimits) (counts : TrackCounts) (tracks : List Track)
    (level : PermissionLevel) (hlevel : level.isElevated = false) (metrics : Metrics) :
    (∃ statuses, (checkAll (.ok limits) tracks level counts metrics).1 = .ok statuses ∧
        OneByOne (.ok limits) level counts tracks statuses) ↔
      ∀ place (hplace : place < tracks.length), ¬ limits.Misjudges counts tracks[place]
        (limits.admitted counts 0 (tracks.take place)) place := by
  let statuses := (limits.brokenRules counts 0 tracks).map limits.statusOf
  have hthrough (place : Nat) : letThrough (tracks.take place) (statuses.take place) =
      limits.admitted counts 0 (tracks.take place) := by
    rw [← List.map_take, GuildLimits.take_brokenRules]
    exact GuildLimits.allowed_eq_admitted counts 0 (tracks.take place)
  have hstatus (place : Nat) (hplace : place < tracks.length) : statuses[place]? =
      some (limits.statusOf (limits.brokenRule? tracks[place] counts place)) := by
    simp [statuses, GuildLimits.getElem?_brokenRules, hplace]
  have hbefore (place : Nat) : (limits.admitted counts 0 (tracks.take place)).length ≤ place :=
    Nat.le_trans (GuildLimits.length_admitted_le limits counts 0 _)
      (List.length_take_le place tracks)
  rw [checkAll_eq hlevel]
  constructor
  · rintro ⟨given, hgiven, hone⟩ place hplace
    obtain rfl : statuses = given := Except.ok.inj hgiven
    have halone := hone.alone place tracks[place] _ (List.getElem?_eq_getElem hplace)
      (hstatus place hplace) metrics
    rw [check_eq hlevel, hthrough place, Except.ok.injEq] at halone
    exact (GuildLimits.brokenRule?_joinedBy_eq_iff (hbefore place)).mp
      (GuildLimits.statusOf_injective halone)
  · intro hjudged
    refine ⟨statuses, rfl, ?_, ?_⟩
    · rw [List.length_map, GuildLimits.length_brokenRules]
    · intro place track status htrack hgiven later
      obtain ⟨hplace, rfl⟩ := List.getElem?_eq_some_iff.mp htrack
      have hsame := (GuildLimits.brokenRule?_joinedBy_eq_iff (hbefore place)).mpr
        (hjudged place hplace)
      rw [hstatus place hplace, Option.some.injEq] at hgiven
      rw [check_eq hlevel, hthrough place, hsame, hgiven]

def nothingHeld : TrackCounts where
  total := 0
  ofUser := fun _ => 0

/-- A batch of one user is judged rightly: its third track is one too many in either way. -/
theorem checkAll_oneByOne_iff_uniform :
    PermissionLevel.user.isElevated = false ∧
      ∃ statuses, (checkAll (.ok { userMaxTracks := some 2 }) [sampleTrack 1 firstUser false,
            sampleTrack 2 firstUser false, sampleTrack 3 firstUser false] .user nothingHeld {}).1 =
          .ok statuses ∧
        OneByOne (.ok { userMaxTracks := some 2 }) .user nothingHeld [sampleTrack 1 firstUser false,
          sampleTrack 2 firstUser false, sampleTrack 3 firstUser false] statuses :=
  ⟨by decide, (checkAll_oneByOne_iff _ _ _ _ (by decide) _).mpr (by decide)⟩

/-- With one track for each user, the first track of the second user in a batch is refused, because
the first user has one before it. -/
theorem checkAll_counts_tracks_of_others :
    ¬ ∃ statuses, (checkAll (.ok { userMaxTracks := some 1 }) [sampleTrack 1 firstUser false,
            sampleTrack 2 secondUser false] .user nothingHeld {}).1 = .ok statuses ∧
        OneByOne (.ok { userMaxTracks := some 1 }) .user nothingHeld [sampleTrack 1 firstUser false,
          sampleTrack 2 secondUser false] statuses := by
  rintro ⟨statuses, hstatuses, hone⟩
  obtain rfl := Except.ok.inj hstatuses
  have halone := hone.alone 1 (sampleTrack 2 secondUser false) _ rfl rfl {}
  exact absurd halone (by decide)

end Admission

end Jukebox
