import Mathlib.Data.List.Perm.Subperm
import Mathlib.Data.List.Nodup
import Jukebox.Order.RoundRobin

/-!
Dealing in rounds keeps every track. The rounds use up every hand, and the hands of all requesters
together hold the ordinary tracks, so the round-robin order is a permutation of what it is made
from.
-/
namespace Jukebox.RoundRobin

variable {α : Type}

/-- One round and what it leaves make up the hands. -/
theorem round_perm (hands : List (List α)) :
    (hands.filterMap List.head? ++ (hands.map List.tail).flatten).Perm hands.flatten := by
  induction hands with
  | nil => exact List.Perm.refl _
  | cons hand rest ih =>
    cases hand with
    | nil =>
      change (rest.filterMap List.head? ++ (rest.map List.tail).flatten).Perm rest.flatten
      exact ih
    | cons card left =>
      have hleft : (rest.filterMap List.head? ++ (left ++ (rest.map List.tail).flatten)).Perm
          (left ++ rest.flatten) := by
        calc (rest.filterMap List.head? ++ (left ++ (rest.map List.tail).flatten)).Perm
              ((left ++ (rest.map List.tail).flatten) ++ rest.filterMap List.head?) :=
            List.perm_append_comm
          _ = left ++ ((rest.map List.tail).flatten ++ rest.filterMap List.head?) :=
            List.append_assoc _ _ _
          List.Perm _ (left ++ (rest.filterMap List.head? ++ (rest.map List.tail).flatten)) :=
            List.perm_append_comm.append_left left
          List.Perm _ (left ++ rest.flatten) := ih.append_left left
      simpa using hleft.cons card

theorem dealRounds_perm (rounds : Nat) (hands : List (List α))
    (h : ∀ hand ∈ hands, hand.length ≤ rounds) :
    (dealRounds rounds hands).Perm hands.flatten := by
  induction rounds generalizing hands with
  | zero =>
    have hempty : hands.flatten = [] := by
      rw [List.flatten_eq_nil_iff]
      intro hand hmem
      exact List.length_eq_zero_iff.mp (Nat.le_zero.mp (h hand hmem))
    rw [hempty]
    exact List.Perm.refl _
  | succ rounds ih =>
    have htails : ∀ hand ∈ hands.map List.tail, hand.length ≤ rounds := by
      intro hand hmem
      obtain ⟨whole, hwhole, rfl⟩ := List.mem_map.mp hmem
      have := h whole hwhole
      rw [List.length_tail]
      omega
    exact ((ih _ htails).append_left _).trans (round_perm hands)

theorem length_le_foldr_max (hands : List (List α)) :
    ∀ hand ∈ hands, hand.length ≤ (hands.map List.length).foldr max 0 := by
  induction hands with
  | nil => intro hand hmem; cases hmem
  | cons first rest ih =>
    intro hand hmem
    rw [List.map_cons, List.foldr_cons]
    rcases List.mem_cons.mp hmem with rfl | hrest
    · exact Nat.le_max_left _ _
    · exact Nat.le_trans (ih hand hrest) (Nat.le_max_right _ _)

theorem dealRounds_succ (hand : UserId → List α) (users : List UserId) (n : Nat) :
    dealRounds (n + 1) (users.map hand) =
      (users.map hand).filterMap List.head? ++
        dealRounds n (users.map fun user => (hand user).tail) := by
  rw [dealRounds, List.map_map]
  rfl

theorem deal_perm (hands : List (List α)) : (deal hands).Perm hands.flatten :=
  dealRounds_perm _ hands (length_le_foldr_max hands)

/-! ### The hands of the requesters -/

/-- The parts of a list by a key hold every entry once, if every key is among those given. -/
theorem flatten_filter_perm {β : Type} [DecidableEq β] (key : α → β) {keys : List β}
    (hnodup : keys.Nodup) (list : List α) (hall : ∀ entry ∈ list, key entry ∈ keys) :
    ((keys.map fun value => list.filter (key · = value)).flatten).Perm list := by
  induction keys generalizing list with
  | nil =>
    cases list with
    | nil => exact List.Perm.refl _
    | cons entry rest => cases hall entry List.mem_cons_self
  | cons value rest ih =>
    obtain ⟨hfirst, hrest⟩ := List.nodup_cons.mp hnodup
    let others := list.filter (key · ≠ value)
    have hothers : ∀ entry ∈ others, key entry ∈ rest := by
      intro entry hmem
      obtain ⟨hentry, hne⟩ := List.mem_filter.mp hmem
      exact (List.mem_cons.mp (hall entry hentry)).resolve_left (of_decide_eq_true hne)
    have hparts : (rest.map fun other => list.filter (key · = other)) =
        rest.map fun other => others.filter (key · = other) := by
      apply List.map_congr_left
      intro other hother
      have hne : other ≠ value := fun heq => hfirst (heq ▸ hother)
      rw [List.filter_filter]
      apply List.filter_congr
      intro entry _
      by_cases heq : key entry = other
      · simp [heq, hne]
      · simp [heq]
    rw [List.map_cons, List.flatten_cons, hparts]
    refine ((ih hrest others hothers).append_left _).trans ?_
    simpa [others] using List.filter_append_perm (key · = value) list

/-- The hands of different users hold every track once, if every requester is among them. -/
theorem flatten_pendingOf_perm {users : List UserId} (hnodup : users.Nodup) (tracks : List Track)
    (hall : ∀ track ∈ tracks, track.requester ∈ users) :
    ((users.map (pendingOf tracks)).flatten).Perm tracks :=
  flatten_filter_perm Track.requester hnodup tracks hall

theorem nodup_eraseDups [BEq α] [LawfulBEq α] (list : List α) : list.eraseDups.Nodup := by
  cases list with
  | nil => exact List.nodup_nil
  | cons head rest =>
    rw [List.eraseDups_cons, List.nodup_cons]
    refine ⟨?_, nodup_eraseDups _⟩
    simp [List.mem_eraseDups]
termination_by list.length
decreasing_by
  have := List.length_filter_le (fun other => !other == head) rest
  simp only [List.length_cons]
  omega

theorem requesters_nodup (tracks : List Track) : (requesters tracks).Nodup :=
  nodup_eraseDups _

theorem mem_requesters {tracks : List Track} {user : UserId} :
    user ∈ requesters tracks ↔ ∃ track ∈ tracks, track.requester = user := by
  simp [requesters, List.mem_eraseDups]

theorem rotateLeft_perm (list : List α) (n : Nat) : (list.rotateLeft n).Perm list := by
  simp only [List.rotateLeft]
  split
  · exact List.Perm.refl _
  · exact List.perm_append_comm.trans (by rw [List.take_append_drop])

theorem rotated_perm (anchor : Option UserId) (users : List UserId) :
    (rotated anchor users).Perm users := by
  unfold rotated
  split
  · exact rotateLeft_perm _ _
  · exact List.Perm.refl _

def turns (anchor : Option UserId) (ordinary : List Track) : List UserId :=
  rotated anchor (requesters ordinary)

theorem turns_nodup (anchor : Option UserId) (ordinary : List Track) :
    (turns anchor ordinary).Nodup :=
  (rotated_perm anchor _).nodup_iff.mpr (requesters_nodup ordinary)

theorem mem_turns {anchor : Option UserId} {ordinary : List Track} {user : UserId} :
    user ∈ turns anchor ordinary ↔ ∃ track ∈ ordinary, track.requester = user :=
  (rotated_perm anchor _).mem_iff.trans mem_requesters

/-- The ordinary tracks, dealt in rounds in which everybody takes a turn. -/
def rounds (anchor : Option UserId) (ordinary : List Track) : List Track :=
  deal ((turns anchor ordinary).map (pendingOf ordinary))

theorem rounds_perm (anchor : Option UserId) (ordinary : List Track) :
    (rounds anchor ordinary).Perm ordinary :=
  (deal_perm _).trans (flatten_pendingOf_perm (turns_nodup anchor ordinary) ordinary
    fun track hmem => mem_turns.mpr ⟨track, hmem, rfl⟩)

theorem order_eq (tracks : List Track) (anchor : Option UserId) :
    order tracks anchor =
      tracks.filter (·.isPriority) ++ rounds anchor (tracks.filter (! ·.isPriority)) := by
  rw [order, List.partition_eq_filter_filter]
  rfl

theorem order_perm (tracks : List Track) (anchor : Option UserId) :
    (order tracks anchor).Perm tracks := by
  rw [order_eq]
  exact ((rounds_perm anchor _).append_left _).trans (List.filter_append_perm _ tracks)

end Jukebox.RoundRobin
