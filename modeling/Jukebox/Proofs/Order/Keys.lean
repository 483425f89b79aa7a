import Mathlib.Data.Stream.Init
import Jukebox.Proofs.Order.Priority
import Jukebox.Proofs.Queue.Run

/-!
Where the keys of a shuffle come from. For each ordinary track, from the first to the last, words
are refused until one is accepted, and the accepted word gives the key; a priority track takes no
word. If the words last, the shuffled order is the stable sort of the tracks by those keys.
-/
namespace Jukebox.Shuffle

/-! ### Single keys -/

theorem keyOfWord?_range {word : UInt32} {key : Nat} (h : keyOfWord? word = some key) :
    1 ≤ key ∧ key ≤ maxSortKey := by
  have hword := word.toNat_lt
  unfold keyOfWord? at h
  by_cases hlow : word.toNat * maxSortKey % UInt32.size > 4294967293
  · rw [if_pos hlow] at h
    cases h
  · rw [if_neg hlow] at h
    have hkey := Option.some.inj h
    simp only [UInt32.size, maxSortKey] at *
    omega

/-- The value given is that of the first word that is accepted. -/
theorem firstAccepted?_eq_some_iff {accept : UInt32 → Option Nat} {words rest : List UInt32}
    {value : Nat} :
    firstAccepted? accept words = some (value, rest) ↔
      ∃ refused word, words = refused ++ word :: rest ∧
        (∀ other ∈ refused, accept other = none) ∧ accept word = some value := by
  induction words with
  | nil => simp [firstAccepted?]
  | cons first others ih =>
    cases hfirst : accept first with
    | some drawn =>
      simp only [firstAccepted?, hfirst, Option.some.injEq, Prod.mk.injEq]
      constructor
      · rintro ⟨rfl, rfl⟩
        exact ⟨[], first, rfl, nofun, hfirst⟩
      · rintro ⟨refused, word, hwords, hrefused, hword⟩
        cases refused with
        | nil =>
          obtain ⟨rfl, rfl⟩ := List.cons.inj hwords
          rw [hfirst] at hword
          exact ⟨Option.some.inj hword, rfl⟩
        | cons other more =>
          obtain ⟨rfl, -⟩ := List.cons.inj hwords
          rw [hrefused first List.mem_cons_self] at hfirst
          cases hfirst
    | none =>
      simp only [firstAccepted?, hfirst, ih]
      constructor
      · rintro ⟨refused, word, rfl, hrefused, hword⟩
        exact ⟨first :: refused, word, rfl, List.forall_mem_cons.mpr ⟨hfirst, hrefused⟩, hword⟩
      · rintro ⟨refused, word, hwords, hrefused, hword⟩
        cases refused with
        | nil =>
          obtain ⟨rfl, -⟩ := List.cons.inj hwords
          rw [hfirst] at hword
          cases hword
        | cons other more =>
          obtain ⟨rfl, rfl⟩ := List.cons.inj hwords
          exact ⟨more, word, rfl, (List.forall_mem_cons.mp hrefused).2, hword⟩

/-! ### The keys of all tracks -/

inductive Drawn : List Track → List UInt32 → List Track → Prop
  | done : Drawn [] [] []
  /-- A priority track keeps its key, and nothing is drawn for it. -/
  | urgent {track : Track} {tracks rekeyed : List Track} {words : List UInt32}
      (hurgent : track.isPriority = true) (hrest : Drawn tracks words rekeyed) :
      Drawn (track :: tracks) words (track :: rekeyed)
  /-- An ordinary track gets the key of the first word that is accepted. -/
  | ordinary {track : Track} {tracks rekeyed : List Track} {refused words : List UInt32}
      {word : UInt32} {key : Nat} (hordinary : track.isPriority = false)
      (hrefused : ∀ other ∈ refused, keyOfWord? other = none) (hword : keyOfWord? word = some key)
      (hrest : Drawn tracks words rekeyed) :
      Drawn (track :: tracks) (refused ++ word :: words) ({ track with sortKey := key } :: rekeyed)

theorem rekeyFromWords?_urgent {track : Track} (h : track.isPriority = true) (tracks : List Track)
    (words : List UInt32) :
    rekeyFromWords? (track :: tracks) words =
      (rekeyFromWords? tracks words).map fun (rekeyed, rest) => (track :: rekeyed, rest) := by
  simp [rekeyFromWords?, rekeyAll, Track.rekey, h]

theorem rekeyFromWords?_ordinary {track : Track} (h : track.isPriority = false)
    (tracks : List Track) (words : List UInt32) :
    rekeyFromWords? (track :: tracks) words =
      (keyOfWords? words).bind fun (key, later) =>
        (rekeyFromWords? tracks later).map fun (rekeyed, rest) =>
          ({ track with sortKey := key } :: rekeyed, rest) := by
  simp [rekeyFromWords?, rekeyAll, Track.rekey, h]
  rfl

/-- Drawing keys from a supply of words uses up the first of them, as far as they are needed. -/
theorem rekeyFromWords?_eq_some_iff {tracks rekeyed : List Track} {words rest : List UInt32} :
    rekeyFromWords? tracks words = some (rekeyed, rest) ↔
      ∃ used, words = used ++ rest ∧ Drawn tracks used rekeyed := by
  induction tracks generalizing words rekeyed with
  | nil =>
    have hnone : rekeyFromWords? [] words = some ([], words) := rfl
    rw [hnone, Option.some.injEq, Prod.mk.injEq]
    constructor
    · rintro ⟨rfl, rfl⟩
      exact ⟨[], rfl, .done⟩
    · rintro ⟨used, rfl, hdrawn⟩
      cases hdrawn
      exact ⟨rfl, rfl⟩
  | cons track tracks ih =>
    cases hpriority : track.isPriority with
    | true =>
      rw [rekeyFromWords?_urgent hpriority, Option.map_eq_some_iff]
      constructor
      · rintro ⟨⟨later, left⟩, hrest, heq⟩
        obtain ⟨rfl, rfl⟩ := Prod.mk.inj heq
        obtain ⟨used, hwords, hdrawn⟩ := ih.mp hrest
        exact ⟨used, hwords, .urgent hpriority hdrawn⟩
      · rintro ⟨used, hwords, hdrawn⟩
        cases hdrawn with
        | urgent _ hrest => exact ⟨_, ih.mpr ⟨used, hwords, hrest⟩, rfl⟩
        | ordinary hordinary => rw [hpriority] at hordinary; cases hordinary
    | false =>
      rw [rekeyFromWords?_ordinary hpriority, Option.bind_eq_some_iff]
      constructor
      · rintro ⟨⟨key, left⟩, hkey, hrest⟩
        obtain ⟨refused, word, rfl, hrefused, hword⟩ := firstAccepted?_eq_some_iff.mp hkey
        obtain ⟨⟨later, last⟩, hlater, heq⟩ := Option.map_eq_some_iff.mp hrest
        obtain ⟨rfl, rfl⟩ := Prod.mk.inj heq
        obtain ⟨used, rfl, hdrawn⟩ := ih.mp hlater
        exact ⟨refused ++ word :: used, by simp, .ordinary hpriority hrefused hword hdrawn⟩
      · rintro ⟨used, rfl, hdrawn⟩
        cases hdrawn with
        | urgent hurgent => rw [hpriority] at hurgent; cases hurgent
        | @ordinary _ _ later refused others word key _ hrefused hword hrest =>
          refine ⟨(key, others ++ rest), firstAccepted?_eq_some_iff.mpr
            ⟨refused, word, by simp, hrefused, hword⟩, ?_⟩
          dsimp only
          rw [ih.mpr ⟨others, rfl, hrest⟩]
          rfl

namespace Drawn

variable {tracks rekeyed : List Track} {words : List UInt32}

theorem map_id (h : Drawn tracks words rekeyed) : rekeyed.map (·.id) = tracks.map (·.id) := by
  induction h with
  | done => rfl
  | urgent _ _ ih => rw [List.map_cons, List.map_cons, ih]
  | ordinary _ _ _ _ ih => rw [List.map_cons, List.map_cons, ih]

theorem filter_urgent (h : Drawn tracks words rekeyed) :
    rekeyed.filter (·.isPriority) = tracks.filter (·.isPriority) := by
  induction h with
  | done => rfl
  | urgent hurgent _ ih => rw [List.filter_cons_of_pos hurgent, List.filter_cons_of_pos hurgent, ih]
  | ordinary hordinary _ _ _ ih =>
    rw [List.filter_cons_of_neg (by simp [hordinary]), List.filter_cons_of_neg (by simp [hordinary]),
      ih]

theorem ordinary_ids (h : Drawn tracks words rekeyed) :
    (rekeyed.filter (! ·.isPriority)).map (·.id) =
      (tracks.filter (! ·.isPriority)).map (·.id) := by
  induction h with
  | done => rfl
  | urgent hurgent _ ih =>
    rw [List.filter_cons_of_neg (by simp [hurgent]), List.filter_cons_of_neg (by simp [hurgent]), ih]
  | ordinary hordinary _ _ _ ih =>
    rw [List.filter_cons_of_pos (by simp [hordinary]), List.filter_cons_of_pos (by simp [hordinary]),
      List.map_cons, List.map_cons, ih]

/-- The keys of the ordinary tracks are the accepted draws, in the order of the tracks. -/
theorem accepted (h : Drawn tracks words rekeyed) :
    words.filterMap keyOfWord? = (rekeyed.filter (! ·.isPriority)).map (·.sortKey) := by
  induction h with
  | done => rfl
  | urgent hurgent _ ih => rw [List.filter_cons_of_neg (by simp [hurgent]), ih]
  | ordinary hordinary hrefused hword _ ih =>
    rw [List.filterMap_append, List.filterMap_eq_nil_iff.mpr hrefused, List.nil_append,
      List.filterMap_cons_some hword, ih, List.filter_cons_of_pos (by simp [hordinary]),
      List.map_cons]

theorem key_range (h : Drawn tracks words rekeyed) :
    ∀ track ∈ rekeyed, track.isPriority = false →
      1 ≤ track.sortKey ∧ track.sortKey ≤ maxSortKey := by
  induction h with
  | done => exact fun _ hmem => absurd hmem List.not_mem_nil
  | urgent hurgent _ ih =>
    intro track hmem hordinary
    rcases List.mem_cons.mp hmem with rfl | hlater
    · rw [hurgent] at hordinary
      cases hordinary
    · exact ih track hlater hordinary
  | ordinary _ _ hword _ ih =>
    intro track hmem hordinary
    rcases List.mem_cons.mp hmem with rfl | hlater
    · exact keyOfWord?_range hword
    · exact ih track hlater hordinary

/-- A priority track that comes with the least key still has it. -/
theorem key_urgent (h : Drawn tracks words rekeyed)
    (hleast : ∀ track ∈ tracks, track.isPriority = true → track.sortKey = prioritySortKey) :
    ∀ track ∈ rekeyed, track.isPriority = true → track.sortKey = prioritySortKey := by
  intro track hmem hurgent
  have hkept : track ∈ tracks.filter (·.isPriority) := by
    rw [← h.filter_urgent]
    exact List.mem_filter.mpr ⟨hmem, hurgent⟩
  exact hleast track (List.mem_filter.mp hkept).1 hurgent

theorem isKeyed (h : Drawn tracks words rekeyed)
    (hleast : ∀ track ∈ tracks, track.isPriority = true → track.sortKey = prioritySortKey) :
    ∀ track ∈ rekeyed, track.IsKeyed := by
  intro track hmem
  cases hpriority : track.isPriority with
  | true =>
    have hzero := h.key_urgent hleast track hmem hpriority
    simp [Track.IsKeyed, hzero, hpriority]
  | false => exact Track.isKeyed_of_ordinary hpriority (h.key_range track hmem hpriority).1

/-- The shuffled order has the priority tracks first, as they stood. -/
theorem priorityFirst (h : Drawn tracks words rekeyed)
    (hleast : ∀ track ∈ tracks, track.isPriority = true → track.sortKey = prioritySortKey) :
    PriorityFirst tracks (byKey rekeyed) := by
  have hfirst := byKey_priorityFirst (h.isKeyed hleast)
  rwa [PriorityFirst, h.filter_urgent] at hfirst

end Drawn

/-! ### Streams of words -/

/-- On a stream of words the keys of the tracks are drawn from the first words, so many of them,
whatever words follow. -/
def DrawnFrom (words : Stream' UInt32) (used : Nat) (tracks rekeyed : List Track) : Prop :=
  ∀ later, rekeyFromWords? tracks (words.take used ++ later) = some (rekeyed, later)

theorem Drawn.drawnFrom {words : Stream' UInt32} {used : Nat} {tracks rekeyed : List Track}
    (h : Drawn tracks (words.take used) rekeyed) : DrawnFrom words used tracks rekeyed :=
  fun _ => rekeyFromWords?_eq_some_iff.mpr ⟨_, rfl, h⟩

/-- If the draws end on a stream, they end after some first words of it. -/
theorem exists_drawn {words : Stream' UInt32} {supply : Nat} {tracks : List Track}
    (hends : (rekeyFromWords? tracks (words.take supply)).isSome = true) :
    ∃ used rekeyed, Drawn tracks (words.take used) rekeyed := by
  obtain ⟨⟨rekeyed, rest⟩, hdraws⟩ := Option.isSome_iff_exists.mp hends
  obtain ⟨used, hwords, hdrawn⟩ := rekeyFromWords?_eq_some_iff.mp hdraws
  have hused : used = words.take (min supply used.length) := by
    rw [← Stream'.take_take, hwords, List.take_left]
  exact ⟨_, rekeyed, hused ▸ hdrawn⟩

/-- If the draws end on a stream of words, then every ordinary track has got a key of its own from
1 to 2147483647, one accepted word for each in the order of the tracks, and every priority track
has kept the key 0, without a draw. The order is the tracks by these keys, those of one key as they
stood; so the priority tracks come first, as they stood. -/
theorem sorted_by_fresh_keys {tracks : List Track} {words : Stream' UInt32} {supply : Nat}
    (hleast : ∀ track ∈ tracks, track.isPriority = true → track.sortKey = prioritySortKey)
    (hends : (rekeyFromWords? tracks (words.take supply)).isSome = true) :
    ∃ used rekeyed,
      DrawnFrom words used tracks rekeyed ∧
      Drawn tracks (words.take used) rekeyed ∧
      (words.take used).filterMap keyOfWord? =
        (rekeyed.filter (! ·.isPriority)).map (·.sortKey) ∧
      (∀ track ∈ rekeyed, track.isPriority = false →
        1 ≤ track.sortKey ∧ track.sortKey ≤ 2147483647) ∧
      (∀ track ∈ rekeyed, track.isPriority = true → track.sortKey = 0) ∧
      ((byKey rekeyed).map (·.id)).Perm (tracks.map (·.id)) ∧
      StablySorted rekeyed (byKey rekeyed) ∧
      PriorityFirst tracks (byKey rekeyed) := by
  obtain ⟨used, rekeyed, hdrawn⟩ := exists_drawn hends
  refine ⟨used, rekeyed, hdrawn.drawnFrom, hdrawn, hdrawn.accepted, hdrawn.key_range,
    hdrawn.key_urgent hleast, ?_, stablySorted_byKey rekeyed, hdrawn.priorityFirst hleast⟩
  rw [← hdrawn.map_id]
  exact (byKey_perm rekeyed).map _

/-- A shuffle of three tracks on a stream whose first word is refused. -/
theorem sorted_by_fresh_keys_after_refusal :
    ∃ used rekeyed,
      DrawnFrom ([2, 9, 5] ++ₛ Stream'.const 0) used
        [sampleTrack 1 firstUser false, sampleTrack 2 firstUser true,
          sampleTrack 3 secondUser false] rekeyed ∧
      StablySorted rekeyed (byKey rekeyed) ∧
      PriorityFirst [sampleTrack 1 firstUser false, sampleTrack 2 firstUser true,
        sampleTrack 3 secondUser false] (byKey rekeyed) := by
  have hleast : ∀ track ∈ [sampleTrack 1 firstUser false, sampleTrack 2 firstUser true,
      sampleTrack 3 secondUser false],
      track.isPriority = true → track.sortKey = prioritySortKey := by decide
  have hends : (rekeyFromWords? [sampleTrack 1 firstUser false, sampleTrack 2 firstUser true,
      sampleTrack 3 secondUser false]
      (Stream'.take 3 ([2, 9, 5] ++ₛ Stream'.const 0))).isSome = true := by decide
  obtain ⟨used, rekeyed, hdraws, -, -, -, -, -, hsorted, hfirst⟩ :=
    sorted_by_fresh_keys hleast hends
  exact ⟨used, rekeyed, hdraws, hsorted, hfirst⟩

end Jukebox.Shuffle
