import Mathlib.Data.List.Induction
import Jukebox.Proofs.Order.Deal
import Jukebox.Proofs.Queue.Run

/-!
The place of each track in the round-robin order. The round of an ordinary track is the number of
ordinary tracks of its requester that stand before it, and in every round the requesters come in
the order of the rotation. So dealing one round after another, until all hands are used up, is
sorting by round and turn.
-/
namespace Jukebox.RoundRobin

variable {α β : Type}

/-! ### One round after another -/

/-- One round after another is dealt, and a hand that is used up drops out, until no hand is
left. -/
inductive DealtOut : List (List α) → List α → Prop
  | done : DealtOut [] []
  | round {hands : List (List α)} {rest : List α} (hsome : hands ≠ [])
      (hrest : DealtOut ((hands.map List.tail).filter (! ·.isEmpty)) rest) :
      DealtOut hands (hands.filterMap List.head? ++ rest)

theorem filter_tails (hands : List (List α)) :
    ((hands.filter (! ·.isEmpty)).map List.tail).filter (! ·.isEmpty) =
      (hands.map List.tail).filter (! ·.isEmpty) := by
  induction hands with
  | nil => rfl
  | cons hand rest ih =>
    cases hand with
    | nil => exact ih
    | cons card left =>
      simp only [List.filter_cons, List.map_cons, List.isEmpty_cons, Bool.not_false, if_true,
        List.tail_cons, ih]

theorem heads_filter (hands : List (List α)) :
    (hands.filter (! ·.isEmpty)).filterMap List.head? = hands.filterMap List.head? := by
  induction hands with
  | nil => rfl
  | cons hand rest ih =>
    cases hand with
    | nil => exact ih
    | cons card left => exact congrArg (card :: ·) ih

/-- Hands that are used up make no difference. -/
theorem dealRounds_filter (rounds : Nat) (hands : List (List α)) :
    dealRounds rounds (hands.filter (! ·.isEmpty)) = dealRounds rounds hands := by
  induction rounds generalizing hands with
  | zero => rfl
  | succ rounds ih =>
    rw [dealRounds, dealRounds, heads_filter, ← ih, filter_tails, ih]

theorem dealtOut_dealRounds (rounds : Nat) {hands : List (List α)}
    (hlength : ∀ hand ∈ hands, hand.length ≤ rounds) (hsome : ∀ hand ∈ hands, hand ≠ []) :
    DealtOut hands (dealRounds rounds hands) := by
  induction rounds generalizing hands with
  | zero =>
    cases hands with
    | nil => exact .done
    | cons hand rest =>
      have hempty := List.length_eq_zero_iff.mp (Nat.le_zero.mp (hlength hand List.mem_cons_self))
      exact absurd hempty (hsome hand List.mem_cons_self)
  | succ rounds ih =>
    by_cases hnone : hands = []
    · subst hnone
      have hrest : dealRounds rounds ([] : List (List α)) = [] :=
        List.Perm.eq_nil (dealRounds_perm rounds [] nofun)
      rw [dealRounds, List.map_nil, hrest]
      exact .done
    · rw [dealRounds, ← dealRounds_filter]
      refine .round hnone (ih ?_ ?_)
      · intro hand hmem
        obtain ⟨whole, hwhole, rfl⟩ := List.mem_map.mp (List.mem_filter.mp hmem).1
        have := hlength whole hwhole
        rw [List.length_tail]
        omega
      · intro hand hmem
        simpa using (List.mem_filter.mp hmem).2

/-- Dealing in rounds comes to an end. -/
theorem dealtOut_deal {hands : List (List α)} (hsome : ∀ hand ∈ hands, hand ≠ []) :
    DealtOut hands (deal hands) :=
  dealtOut_dealRounds _ (length_le_foldr_max hands) hsome

theorem dealRounds_map (f : α → β) (rounds : Nat) (hands : List (List α)) :
    dealRounds rounds (hands.map (List.map f)) = (dealRounds rounds hands).map f := by
  induction rounds generalizing hands with
  | zero => rfl
  | succ rounds ih =>
    have htails : (hands.map (List.map f)).map List.tail = (hands.map List.tail).map (List.map f) := by
      simp only [List.map_map, Function.comp_def, List.map_tail]
    have hheads : (hands.map (List.map f)).filterMap List.head? =
        (hands.filterMap List.head?).map f := by
      simp only [List.filterMap_map, List.map_filterMap, Function.comp_def, List.head?_map]
    rw [dealRounds, dealRounds, htails, ih, hheads, List.map_append]

/-- What is dealt does not depend on what is written on the cards. -/
theorem deal_map (f : α → β) (hands : List (List α)) :
    deal (hands.map (List.map f)) = (deal hands).map f := by
  have hlengths : (hands.map (List.map f)).map List.length = hands.map List.length := by
    simp only [List.map_map, Function.comp_def, List.length_map]
  rw [deal, deal, hlengths, dealRounds_map]

/-! ### Places -/

/-- A track with its place: the round in which it is played, and its turn in the round. -/
structure Placed where
  round : Nat
  turn : Nat
  track : Track
deriving DecidableEq

namespace Placed

def le (a b : Placed) : Bool := a.round < b.round || a.round = b.round && a.turn ≤ b.turn

def Before (a b : Placed) : Prop := a.round < b.round ∨ a.round = b.round ∧ a.turn < b.turn

theorem le_iff {a b : Placed} :
    a.le b = true ↔ a.round < b.round ∨ a.round = b.round ∧ a.turn ≤ b.turn := by
  simp [le]

theorem le_trans (a b c : Placed) (hab : a.le b = true) (hbc : b.le c = true) :
    a.le c = true := by
  rw [le_iff] at *
  omega

theorem le_total (a b : Placed) : (a.le b || b.le a) = true := by
  rw [Bool.or_eq_true, le_iff, le_iff]
  omega

theorem Before.le {a b : Placed} (h : a.Before b) : a.le b = true := by
  unfold Before at h
  rw [le_iff]
  omega

end Placed

/-- Tracks in the order of their places are found by sorting, in whatever order they are given. -/
theorem mergeSort_of_before {sorted given : List Placed} (hbefore : sorted.Pairwise Placed.Before)
    (hperm : sorted.Perm given) : given.mergeSort Placed.le = sorted := by
  have hplaces : (sorted.map fun placed => (placed.round, placed.turn)).Nodup := by
    rw [List.Nodup, List.pairwise_map]
    refine hbefore.imp fun {a b} hab heq => ?_
    obtain ⟨hround, hturn⟩ := Prod.mk.inj heq
    unfold Placed.Before at hab
    omega
  refine List.Perm.eq_of_pairwise ?_ (List.pairwise_mergeSort Placed.le_trans Placed.le_total given)
    (hbefore.imp Placed.Before.le) ((List.mergeSort_perm given _).trans hperm.symm)
  intro a b ha hb hab hba
  have hsame : (a.round, a.turn) = (b.round, b.turn) := by
    rw [Placed.le_iff] at hab hba
    rw [Prod.mk.injEq]
    omega
  exact List.inj_on_of_nodup_map hplaces (hperm.mem_iff.mpr (List.mem_mergeSort.mp ha)) hb hsame

/-- The ordinary tracks with their places. The round is the number of tracks before the track that
are its requester's and count. -/
def placesBy (counts : Track → Bool) (turn : UserId → Nat) (tracks : List Track) : List Placed :=
  (tracks.zipIdx.filter (! ·.1.isPriority)).map fun (track, index) =>
    { round := (tracks.take index).countP fun earlier =>
        counts earlier && earlier.requester = track.requester
      turn := turn track.requester
      track }

section

variable (counts : Track → Bool) (turn : UserId → Nat)

theorem placesBy_append (tracks : List Track) (track : Track) :
    placesBy counts turn (tracks ++ [track]) =
      placesBy counts turn tracks ++
        if track.isPriority then []
        else [{
          round := tracks.countP fun earlier =>
            counts earlier && earlier.requester = track.requester
          turn := turn track.requester
          track }] := by
  have hfront : ∀ entry ∈ tracks.zipIdx.filter (! ·.1.isPriority),
      (tracks ++ [track]).take entry.2 = tracks.take entry.2 := by
    intro entry hentry
    have hlt := List.snd_lt_of_mem_zipIdx (List.mem_filter.mp hentry).1
    exact List.take_append_of_le_length (by omega)
  unfold placesBy
  rw [List.zipIdx_append, List.filter_append, List.map_append]
  congr 1
  · refine List.map_congr_left fun entry hentry => ?_
    simp only [hfront entry hentry]
  · cases hpriority : track.isPriority <;> simp [hpriority]

theorem map_track_placesBy (tracks : List Track) :
    (placesBy counts turn tracks).map (·.track) = tracks.filter (! ·.isPriority) := by
  induction tracks using List.reverseRecOn with
  | nil => rfl
  | append_singleton tracks track ih =>
    rw [placesBy_append, List.map_append, List.filter_append, ih]
    cases hpriority : track.isPriority <;> simp [hpriority]

end

def seat (ordinary : List Track) (turn : UserId → Nat) (user : UserId) : List Placed :=
  (pendingOf ordinary user).zipIdx.map fun (track, round) => { round, turn := turn user, track }

theorem map_track_seat (ordinary : List Track) (turn : UserId → Nat) (user : UserId) :
    (seat ordinary turn user).map (·.track) = pendingOf ordinary user := by
  simp [seat, Function.comp_def]

/-- If ordinary tracks alone count, the places of a user's tracks are those of the user's hand. -/
theorem placesBy_filter (turn : UserId → Nat) (tracks : List Track) (user : UserId) :
    (placesBy (! ·.isPriority) turn tracks).filter (·.track.requester = user) =
      seat (tracks.filter (! ·.isPriority)) turn user := by
  induction tracks using List.reverseRecOn with
  | nil => rfl
  | append_singleton tracks track ih =>
    have hcount (other : UserId) :
        tracks.countP (fun earlier => ! earlier.isPriority && earlier.requester = other) =
          (pendingOf (tracks.filter (! ·.isPriority)) other).length := by
      rw [pendingOf, List.filter_filter, ← List.countP_eq_length_filter]
      simp only [Bool.and_comm]
    rw [placesBy_append, List.filter_append, ih, hcount]
    unfold seat pendingOf
    rw [List.filter_append, List.filter_append]
    cases hpriority : track.isPriority with
    | true => simp [hpriority]
    | false =>
      by_cases huser : track.requester = user
      · simp [hpriority, huser, List.zipIdx_append]
      · simp [hpriority, huser]

/-! ### Rounds in order -/

/-- From some round on, the hands hold one track for each round, with the user's turn. -/
def Seated (turn : UserId → Nat) (base : Nat) (hand : UserId → List Placed) : Prop :=
  ∀ user index placed, (hand user)[index]? = some placed →
    placed.round = base + index ∧ placed.turn = turn user

variable {turn : UserId → Nat}

theorem seated_seat (ordinary : List Track) : Seated turn 0 (seat ordinary turn) := by
  intro user index placed hplaced
  simp only [seat, List.getElem?_map, List.getElem?_zipIdx, Option.map_map,
    Option.map_eq_some_iff] at hplaced
  obtain ⟨track, -, rfl⟩ := hplaced
  exact ⟨rfl, rfl⟩

theorem Seated.tail {base : Nat} {hand : UserId → List Placed} (h : Seated turn base hand) :
    Seated turn (base + 1) fun user => (hand user).tail := by
  intro user index placed hplaced
  rw [List.getElem?_tail] at hplaced
  obtain ⟨hround, hturn⟩ := h user (index + 1) placed hplaced
  exact ⟨by omega, hturn⟩

/-- What is dealt from such hands is in the order of the places. -/
theorem dealRounds_before {users : List UserId} (husers : users.Pairwise (turn · < turn ·))
    {base : Nat} {hand : UserId → List Placed} (h : Seated turn base hand) (rounds : Nat) :
    (dealRounds rounds (users.map hand)).Pairwise Placed.Before ∧
      ∀ placed ∈ dealRounds rounds (users.map hand), base ≤ placed.round := by
  induction rounds generalizing base hand with
  | zero => exact ⟨List.Pairwise.nil, fun _ hmem => absurd hmem List.not_mem_nil⟩
  | succ rounds ih =>
    have hhead {user : UserId} {placed : Placed} (hplaced : (hand user).head? = some placed) :
        placed.round = base ∧ placed.turn = turn user := by
      rw [List.head?_eq_getElem?] at hplaced
      exact h user 0 placed hplaced
    have hround : ((users.map hand).filterMap List.head?).Pairwise Placed.Before := by
      rw [List.filterMap_map]
      refine husers.filterMap _ ?_
      intro user other hlt placed hplaced later hlater
      obtain ⟨hround, hturn⟩ := hhead hplaced
      obtain ⟨hround', hturn'⟩ := hhead hlater
      exact .inr ⟨by omega, by omega⟩
    have hfirst : ∀ placed ∈ (users.map hand).filterMap List.head?, placed.round = base := by
      intro placed hplaced
      obtain ⟨cards, hcards, hplaced⟩ := List.mem_filterMap.mp hplaced
      obtain ⟨user, -, rfl⟩ := List.mem_map.mp hcards
      exact (hhead hplaced).1
    obtain ⟨hlater, hbase⟩ := ih h.tail
    rw [dealRounds_succ]
    constructor
    · refine List.pairwise_append.mpr ⟨hround, hlater, ?_⟩
      intro placed hplaced later hmem
      have := hfirst placed hplaced
      have := hbase later hmem
      exact .inl (by omega)
    · intro placed hplaced
      rcases List.mem_append.mp hplaced with hnow | hmem
      · exact Nat.le_of_eq (hfirst placed hnow).symm
      · exact Nat.le_of_succ_le (hbase placed hmem)

/-! ### The rotation -/

/-- The users as they take turns: those after the anchor, those before it, and the anchor last. If
there is no anchor, or it is not among the users, they stay as they are. -/
inductive TurnsAfter : Option UserId → List UserId → List UserId → Prop
  | anchored {anchor : UserId} {before later : List UserId} (h : anchor ∉ before) :
      TurnsAfter (some anchor) (before ++ anchor :: later) (later ++ before ++ [anchor])
  | absent {anchor : UserId} {users : List UserId} (h : anchor ∉ users) :
      TurnsAfter (some anchor) users users
  | unanchored {users : List UserId} : TurnsAfter none users users

theorem rotated_append {anchor : UserId} {before later : List UserId} (h : anchor ∉ before) :
    rotated (some anchor) (before ++ anchor :: later) = later ++ before ++ [anchor] := by
  have hindex : (before ++ anchor :: later).idxOf? anchor = some before.length := by
    refine List.idxOf?_eq_some_iff.mpr ⟨by simp, by simp, fun index hlt heq => ?_⟩
    rw [List.getElem_append_left hlt] at heq
    exact h (heq ▸ List.getElem_mem hlt)
  have hrotated : rotated (some anchor) (before ++ anchor :: later) =
      ((before ++ [anchor]) ++ later).rotateLeft (before ++ [anchor]).length := by
    simp [rotated, hindex]
  rw [hrotated]
  simp only [List.rotateLeft]
  cases later with
  | nil => simp
  | cons next rest =>
    have hlt : (before ++ [anchor]).length < ((before ++ [anchor]) ++ next :: rest).length := by
      simp
    have hlong : ¬ ((before ++ [anchor]) ++ next :: rest).length ≤ 1 := by
      simp only [List.length_append, List.length_cons] at hlt ⊢
      omega
    rw [if_neg hlong, Nat.mod_eq_of_lt hlt, List.drop_left, List.take_left, List.append_assoc]

theorem turnsAfter_rotated (anchor : Option UserId) (users : List UserId) :
    TurnsAfter anchor users (rotated anchor users) := by
  cases anchor with
  | none => exact .unanchored
  | some user =>
    by_cases hmem : user ∈ users
    · obtain ⟨before, later, rfl, hfirst⟩ := List.eq_append_cons_of_mem hmem
      rw [rotated_append hfirst]
      exact .anchored hfirst
    · have hsame : rotated (some user) users = users := by
        simp only [rotated, Option.bind_some, List.idxOf?_eq_none_iff.mpr hmem]
      rw [hsame]
      exact .absent hmem

/-! ### The order by places -/

def turnOf (tracks : List Track) (anchor : Option UserId) (user : UserId) : Nat :=
  (turns anchor (tracks.filter (! ·.isPriority))).idxOf user

/-- The priority tracks as they stand, then the others by their places. -/
def orderByPlaces (counts : Track → Bool) (tracks : List Track) (anchor : Option UserId) :
    List Track :=
  tracks.filter (·.isPriority) ++
    ((placesBy counts (turnOf tracks anchor) tracks).mergeSort Placed.le).map (·.track)

theorem turnOf_increasing (tracks : List Track) (anchor : Option UserId) :
    (turns anchor (tracks.filter (! ·.isPriority))).Pairwise
      (turnOf tracks anchor · < turnOf tracks anchor ·) := by
  have hnodup := turns_nodup anchor (tracks.filter (! ·.isPriority))
  rw [List.pairwise_iff_getElem]
  intro first second hfirst hsecond hlt
  unfold turnOf
  rw [hnodup.idxOf_getElem first hfirst, hnodup.idxOf_getElem second hsecond]
  exact hlt

/-- Dealing in rounds is sorting by places. -/
theorem rounds_eq_sorted (tracks : List Track) (anchor : Option UserId) :
    rounds anchor (tracks.filter (! ·.isPriority)) =
      ((placesBy (! ·.isPriority) (turnOf tracks anchor) tracks).mergeSort Placed.le).map
        (·.track) := by
  let ordinary := tracks.filter (! ·.isPriority)
  let users := turns anchor ordinary
  let seats := users.map (seat ordinary (turnOf tracks anchor))
  have hhands : seats.map (List.map (·.track)) = users.map (pendingOf ordinary) := by
    simp only [seats, List.map_map]
    exact List.map_congr_left fun user _ => map_track_seat ordinary _ user
  have hbefore : (deal seats).Pairwise Placed.Before :=
    (dealRounds_before (turnOf_increasing tracks anchor) (seated_seat ordinary) _).1
  have hseats : seats = users.map fun user =>
      (placesBy (! ·.isPriority) (turnOf tracks anchor) tracks).filter
        (·.track.requester = user) :=
    List.map_congr_left fun user _ => (placesBy_filter _ tracks user).symm
  have hperm : (deal seats).Perm (placesBy (! ·.isPriority) (turnOf tracks anchor) tracks) := by
    refine (deal_perm seats).trans ?_
    rw [hseats]
    refine flatten_filter_perm (fun placed : Placed => placed.track.requester)
      (turns_nodup anchor ordinary) _ fun placed hplaced => ?_
    have htrack : placed.track ∈ ordinary := by
      have hmem := List.mem_map_of_mem (f := (·.track)) hplaced
      rwa [map_track_placesBy] at hmem
    exact mem_turns.mpr ⟨placed.track, htrack, rfl⟩
  calc rounds anchor ordinary
      = deal (seats.map (List.map (·.track))) := by rw [hhands]; rfl
    _ = (deal seats).map (·.track) := deal_map _ seats
    _ = _ := by rw [mergeSort_of_before hbefore hperm]

theorem pendingOf_ne_nil {anchor : Option UserId} {ordinary : List Track} :
    ∀ hand ∈ (turns anchor ordinary).map (pendingOf ordinary), hand ≠ [] := by
  intro hand hmem
  obtain ⟨user, huser, rfl⟩ := List.mem_map.mp hmem
  obtain ⟨track, htrack, hrequester⟩ := mem_turns.mp huser
  exact List.ne_nil_of_mem (List.mem_filter.mpr ⟨htrack, decide_eq_true hrequester⟩)

/-- The rounds come to an end, and they give every track once: first the priority tracks as they
stand, then the others by round and turn. The round of a track is the number of its requester's
earlier ordinary tracks; its turn is the position of the requester among the users of the rotation,
which begins after the anchor. -/
theorem order_by_places (tracks : List Track) (anchor : Option UserId) :
    (∃ dealt, DealtOut ((turns anchor (tracks.filter (! ·.isPriority))).map
          (pendingOf (tracks.filter (! ·.isPriority)))) dealt ∧
        order tracks anchor = tracks.filter (·.isPriority) ++ dealt) ∧
      TurnsAfter anchor (requesters (tracks.filter (! ·.isPriority)))
        (turns anchor (tracks.filter (! ·.isPriority))) ∧
      order tracks anchor = orderByPlaces (! ·.isPriority) tracks anchor ∧
      ((order tracks anchor).map (·.id)).Perm (tracks.map (·.id)) := by
  refine ⟨⟨_, dealtOut_deal pendingOf_ne_nil, order_eq tracks anchor⟩, turnsAfter_rotated _ _,
    ?_, (order_perm tracks anchor).map _⟩
  rw [order_eq, rounds_eq_sorted]
  rfl

def urgentFirstTracks : List Track :=
  [sampleTrack 1 firstUser true, sampleTrack 2 firstUser false, sampleTrack 3 secondUser false]

/-- A priority track of a user does not put off the other tracks of that user. -/
theorem urgent_track_puts_nothing_off :
    (order urgentFirstTracks none).map (·.id) ≠
      (orderByPlaces (fun _ => true) urgentFirstTracks none).map (·.id) := by
  have hsorted : (placesBy (fun _ => true) (turnOf urgentFirstTracks none)
      urgentFirstTracks).mergeSort Placed.le =
        [⟨0, 1, sampleTrack 3 secondUser false⟩, ⟨1, 0, sampleTrack 2 firstUser false⟩] :=
    mergeSort_of_before (by simp [Placed.Before]) (by decide)
  rw [orderByPlaces, hsorted]
  decide

end Jukebox.RoundRobin
