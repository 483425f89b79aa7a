import Jukebox.Proofs.Order.Keys

/-!
No order is out of reach of a shuffle. Every key is given by some word that is accepted, and if the
key of each ordinary track is its place in an order, the shuffle gives that order.
-/
namespace Jukebox.Shuffle

/-- A word that gives the key. Twice the key would be refused for the first key alone. -/
def wordOfKey (key : Nat) : UInt32 := if key = 1 then 1 else .ofNat (2 * key)

theorem keyOfWord?_of_halves {word : UInt32} {high low : Nat}
    (hproduct : word.toNat * maxSortKey = low + UInt32.size * high) (hlow : low ≤ 4294967293) :
    keyOfWord? word = some (1 + high) := by
  have hsize : 4294967293 < UInt32.size := by decide
  have hless : low < UInt32.size := Nat.lt_of_le_of_lt hlow hsize
  unfold keyOfWord?
  dsimp only
  rw [hproduct, Nat.add_mul_mod_self_left, Nat.mod_eq_of_lt hless, if_neg (Nat.not_lt.mpr hlow),
    Nat.add_mul_div_left _ _ (Nat.zero_lt_of_lt hsize), Nat.div_eq_of_lt hless, Nat.zero_add]

theorem keyOfWord?_wordOfKey {key : Nat} (hfirst : 1 ≤ key) (hlast : key ≤ maxSortKey) :
    keyOfWord? (wordOfKey key) = some key := by
  unfold wordOfKey
  split
  case isTrue h =>
    subst h
    exact @keyOfWord?_of_halves 1 0 maxSortKey rfl (by decide)
  case isFalse h =>
    -- the product falls short of the next multiple by twice the key
    have hfits : 2 * key < UInt32.size := by
      simp only [UInt32.size, maxSortKey] at *
      omega
    have hproduct : (UInt32.ofNat (2 * key)).toNat * maxSortKey =
        (UInt32.size - 2 * key) + UInt32.size * (key - 1) := by
      rw [UInt32.toNat_ofNat_of_lt' hfits]
      simp only [UInt32.size, maxSortKey] at *
      omega
    have hlow : UInt32.size - 2 * key ≤ 4294967293 := by
      simp only [UInt32.size]
      omega
    have hkey : 1 + (key - 1) = key := by omega
    rw [keyOfWord?_of_halves hproduct hlow, hkey]

/-! ### Wanted keys -/

def keyedBy (key : TrackId → Nat) (tracks : List Track) : List Track :=
  tracks.map fun track => if track.isPriority then track else { track with sortKey := key track.id }

def wordsFor (key : TrackId → Nat) (tracks : List Track) : List UInt32 :=
  (tracks.filter (! ·.isPriority)).map fun track => wordOfKey (key track.id)

variable {key : TrackId → Nat} {tracks : List Track}

theorem drawn_keyedBy
    (hrange : ∀ track ∈ tracks, track.isPriority = false →
      1 ≤ key track.id ∧ key track.id ≤ maxSortKey) :
    Drawn tracks (wordsFor key tracks) (keyedBy key tracks) := by
  induction tracks with
  | nil => exact .done
  | cons track rest ih =>
    have hrest := ih fun other hmem => hrange other (List.mem_cons_of_mem track hmem)
    cases hpriority : track.isPriority with
    | true =>
      have hwords : wordsFor key (track :: rest) = wordsFor key rest := by
        rw [wordsFor, List.filter_cons_of_neg (by simp [hpriority]), wordsFor]
      have hkeyed : keyedBy key (track :: rest) = track :: keyedBy key rest := by
        rw [keyedBy, List.map_cons, if_pos hpriority, keyedBy]
      rw [hwords, hkeyed]
      exact .urgent hpriority hrest
    | false =>
      have hwords : wordsFor key (track :: rest) = wordOfKey (key track.id) :: wordsFor key rest := by
        rw [wordsFor, List.filter_cons_of_pos (by simp [hpriority]), List.map_cons, wordsFor]
      have hkeyed : keyedBy key (track :: rest) =
          { track with sortKey := key track.id } :: keyedBy key rest := by
        rw [keyedBy, List.map_cons, if_neg (by simp [hpriority]), keyedBy]
      obtain ⟨hlow, hhigh⟩ := hrange track List.mem_cons_self hpriority
      rw [hwords, hkeyed]
      exact @Drawn.ordinary _ _ _ [] _ _ _ hpriority nofun (keyOfWord?_wordOfKey hlow hhigh) hrest

theorem keyedBy_key {track : Track} (hmem : track ∈ keyedBy key tracks)
    (hordinary : track.isPriority = false) : track.sortKey = key track.id := by
  obtain ⟨other, -, rfl⟩ := List.mem_map.mp hmem
  cases hpriority : other.isPriority with
  | true => simp [hpriority] at hordinary
  | false => simp

/-! ### Places as keys -/

def placeIn (order : List TrackId) (id : TrackId) : Nat := 1 + order.idxOf id

theorem pairwise_placeIn {order : List TrackId} (hnodup : order.Nodup) :
    order.Pairwise (placeIn order · ≤ placeIn order ·) := by
  rw [List.pairwise_iff_getElem]
  intro i j hi hj hij
  rw [placeIn, placeIn, hnodup.idxOf_getElem i hi, hnodup.idxOf_getElem j hj]
  omega

/-- Sorted by their places in an order, ids stand in that order. -/
theorem eq_of_pairwise_placeIn {order ids : List TrackId} (hnodup : order.Nodup)
    (hperm : ids.Perm order) (hsorted : ids.Pairwise (placeIn order · ≤ placeIn order ·)) :
    ids = order := by
  refine List.Perm.eq_of_pairwise ?_ hsorted (pairwise_placeIn hnodup) hperm
  intro a b ha _ hab hba
  have hplace : order.idxOf a = order.idxOf b := by
    simp only [placeIn] at hab hba
    omega
  exact (List.idxOf_inj (hperm.subset ha)).mp hplace

theorem byKey_keyedBy_placeIn {order : List TrackId} {words : List UInt32}
    (hleast : ∀ track ∈ tracks, track.isPriority = true → track.sortKey = prioritySortKey)
    (hdrawn : Drawn tracks words (keyedBy (placeIn order) tracks)) (hnodup : order.Nodup)
    (horder : order.Perm ((tracks.filter (! ·.isPriority)).map (·.id))) :
    (byKey (keyedBy (placeIn order) tracks)).map (·.id) =
      (tracks.filter (·.isPriority)).map (·.id) ++ order := by
  have hsorted := stablySorted_byKey (keyedBy (placeIn order) tracks)
  have hperm : (((byKey (keyedBy (placeIn order) tracks)).filter (! ·.isPriority)).map (·.id)).Perm
      order := by
    have hids := (hsorted.perm.filter (! ·.isPriority)).map (·.id)
    rw [hdrawn.ordinary_ids] at hids
    exact hids.trans horder.symm
  have hplaces : (((byKey (keyedBy (placeIn order) tracks)).filter
      (! ·.isPriority)).map (·.id)).Pairwise (placeIn order · ≤ placeIn order ·) := by
    rw [List.pairwise_map]
    refine (hsorted.increasing.filter (! ·.isPriority)).imp_of_mem fun {a b} ha hb hle => ?_
    obtain ⟨ha, haordinary⟩ := List.mem_filter.mp ha
    obtain ⟨hb, hbordinary⟩ := List.mem_filter.mp hb
    rw [keyedBy_key (hsorted.perm.subset ha) (by simpa using haordinary),
      keyedBy_key (hsorted.perm.subset hb) (by simpa using hbordinary)] at hle
    exact hle
  rw [hdrawn.priorityFirst hleast, List.map_append,
    eq_of_pairwise_placeIn hnodup hperm hplaces]

/-- For every order of the ordinary tracks, if their ids are distinct and they are fewer than the
keys, there is a stream of words on which the shuffle gives the priority tracks as they stand and
then the ordinary tracks in that order. -/
theorem every_order_drawn {order : List TrackId}
    (hleast : ∀ track ∈ tracks, track.isPriority = true → track.sortKey = prioritySortKey)
    (hfew : tracks.countP (! ·.isPriority) < 2147483647)
    (hids : ((tracks.filter (! ·.isPriority)).map (·.id)).Nodup)
    (horder : order.Perm ((tracks.filter (! ·.isPriority)).map (·.id))) :
    ∃ (words : Stream' UInt32) (used : Nat) (rekeyed : List Track),
      DrawnFrom words used tracks rekeyed ∧
      (byKey rekeyed).map (·.id) = (tracks.filter (·.isPriority)).map (·.id) ++ order := by
  have hlength : order.length = tracks.countP (! ·.isPriority) := by
    rw [horder.length_eq, List.length_map, List.countP_eq_length_filter]
  have hrange : ∀ track ∈ tracks, track.isPriority = false →
      1 ≤ placeIn order track.id ∧ placeIn order track.id ≤ maxSortKey := by
    intro track hmem hordinary
    have hid : track.id ∈ order := horder.symm.subset
      (List.mem_map_of_mem (List.mem_filter.mpr ⟨hmem, by simp [hordinary]⟩))
    have hplace := List.idxOf_lt_length_iff.mpr hid
    simp only [placeIn, maxSortKey]
    omega
  have hdrawn := drawn_keyedBy hrange
  have htake : (wordsFor (placeIn order) tracks ++ₛ Stream'.const 0).take
      (wordsFor (placeIn order) tracks).length = wordsFor (placeIn order) tracks := by
    rw [Stream'.take_append_of_le_length _ _ _ (Nat.le_refl _), List.take_length]
  refine ⟨wordsFor (placeIn order) tracks ++ₛ Stream'.const 0, _,
    keyedBy (placeIn order) tracks, Drawn.drawnFrom (htake.symm ▸ hdrawn), ?_⟩
  exact byKey_keyedBy_placeIn hleast hdrawn (horder.nodup_iff.mpr hids) horder

/-- Two ordinary tracks swapped behind a priority track that stood between them. -/
theorem every_order_drawn_swapped :
    ∃ (words : Stream' UInt32) (used : Nat) (rekeyed : List Track),
      DrawnFrom words used [sampleTrack 1 firstUser false, sampleTrack 2 firstUser true,
        sampleTrack 3 secondUser false] rekeyed ∧
      (byKey rekeyed).map (·.id) = [⟨2⟩, ⟨3⟩, ⟨1⟩] :=
  @every_order_drawn [sampleTrack 1 firstUser false, sampleTrack 2 firstUser true,
    sampleTrack 3 secondUser false] [⟨3⟩, ⟨1⟩] (by decide) (by decide) (by decide) (by decide)

end Jukebox.Shuffle
