import Jukebox.Proofs.Order.Deal

/-!
The rounds are fair. The users of one round are users of the round before it, in the same order,
so a round can begin with the user who ended the one before only if nobody else has a track left.
The first round begins after the anchor, which makes the anchor's last turn part of the rotation.
-/
namespace Jukebox.RoundRobin

/-- Nobody comes twice in a row while somebody else is still to come. -/
def Fair : List UserId → Prop
  | user :: next :: rest => (user = next → ∀ other ∈ rest, other = user) ∧ Fair (next :: rest)
  | _ => True

theorem Fair.tail {user : UserId} {rest : List UserId} (h : Fair (user :: rest)) : Fair rest := by
  cases rest with
  | nil => trivial
  | cons next rest => exact h.2

/-- Only the join has to be looked at when a round of different users is put before a fair order. -/
theorem fair_append {round later : List UserId} (hround : round.Nodup) (hlater : Fair later)
    (hjoin : ∀ user, round.getLast? = some user → later.head? = some user →
      ∀ other ∈ later, other = user) : Fair (round ++ later) := by
  induction round with
  | nil => exact hlater
  | cons user rest ih =>
    obtain ⟨hnew, hrest⟩ := List.nodup_cons.mp hround
    cases rest with
    | nil =>
      cases later with
      | nil => trivial
      | cons next others =>
        refine ⟨?_, hlater⟩
        intro heq other hother
        exact hjoin user rfl (by rw [List.head?_cons, heq]) other (List.mem_cons_of_mem _ hother)
    | cons next others =>
      refine ⟨?_, ih hrest ?_⟩
      · intro heq
        exact absurd (heq ▸ List.mem_cons_self ..) hnew
      · intro last hlast
        exact hjoin last (by rw [List.getLast?_cons_cons]; exact hlast)

/-! ### Rounds of users -/

def active (hand : UserId → List Track) (users : List UserId) : List UserId :=
  users.filter fun user => ! (hand user).isEmpty

def Owned (hand : UserId → List Track) : Prop := ∀ user, ∀ track ∈ hand user, track.requester = user

theorem Owned.tail {hand : UserId → List Track} (h : Owned hand) :
    Owned fun user => (hand user).tail :=
  fun user track hmem => h user track (List.mem_of_mem_tail hmem)

theorem requesters_of_round {hand : UserId → List Track} (howned : Owned hand)
    (users : List UserId) :
    ((users.map hand).filterMap List.head?).map (·.requester) = active hand users := by
  induction users with
  | nil => rfl
  | cons user rest ih =>
    cases hhand : hand user with
    | nil =>
      have hskip : active hand (user :: rest) = active hand rest := by
        simp [active, hhand]
      rw [hskip, ← ih, List.map_cons, hhand]
      rfl
    | cons track others =>
      have hkeep : active hand (user :: rest) = user :: active hand rest := by
        simp [active, hhand]
      have hrequester : track.requester = user :=
        howned user track (by rw [hhand]; exact List.mem_cons_self ..)
      rw [hkeep, ← ih, List.map_cons, hhand, ← hrequester]
      rfl

theorem active_tail_sublist (hand : UserId → List Track) (users : List UserId) :
    (active (fun user => (hand user).tail) users).Sublist (active hand users) := by
  have hsame : active (fun user => (hand user).tail) users =
      (active hand users).filter fun user => ! (hand user).tail.isEmpty := by
    unfold active
    rw [List.filter_filter]
    apply List.filter_congr
    intro user _
    cases hhand : hand user with
    | nil => simp [hhand]
    | cons => simp [hhand]
  rw [hsame]
  exact List.filter_sublist

theorem mem_active_of_mem_dealRounds {hand : UserId → List Track} (howned : Owned hand)
    {users : List UserId} {n : Nat} {user : UserId}
    (h : user ∈ (dealRounds n (users.map hand)).map (·.requester)) :
    user ∈ active hand users := by
  induction n generalizing hand with
  | zero => cases h
  | succ n ih =>
    rw [dealRounds_succ, List.map_append, requesters_of_round howned] at h
    rcases List.mem_append.mp h with hround | hlater
    · exact hround
    · exact (active_tail_sublist hand users).subset (ih howned.tail hlater)

theorem active_of_head?_dealRounds {hand : UserId → List Track} (howned : Owned hand)
    {users : List UserId} {n : Nat} {user : UserId}
    (h : ((dealRounds n (users.map hand)).map (·.requester)).head? = some user) :
    ∃ rest, active hand users = user :: rest := by
  cases n with
  | zero => cases h
  | succ n =>
    have hmem := mem_active_of_mem_dealRounds howned (List.mem_of_head? h)
    rw [dealRounds_succ, List.map_append, requesters_of_round howned] at h
    cases hactive : active hand users with
    | nil => rw [hactive] at hmem; cases hmem
    | cons first rest =>
      rw [hactive, List.cons_append, List.head?_cons] at h
      exact ⟨rest, by rw [Option.some.inj h]⟩

/-- A part of a list without repetition that begins with the last of it has nothing more. -/
theorem tail_eq_nil_of_sublist {list rest : List UserId} {user : UserId} (hnodup : list.Nodup)
    (hlast : list.getLast? = some user) (hsub : (user :: rest).Sublist list) : rest = [] := by
  obtain ⟨before, rfl⟩ := List.getLast?_eq_some_iff.mp hlast
  obtain ⟨front, back, heq, hfront, hback⟩ := List.sublist_append_iff.mp hsub
  have hnotin : user ∉ before := by
    intro hmem
    exact (List.nodup_append.mp hnodup).2.2 user hmem user (List.mem_singleton.mpr rfl) rfl
  cases front with
  | nil =>
    rw [List.nil_append] at heq
    rw [← heq] at hback
    have hle := hback.length_le
    simp only [List.length_cons, List.length_nil] at hle
    exact List.length_eq_zero_iff.mp (by omega)
  | cons first others =>
    rw [List.cons_append] at heq
    have hfirst := (List.cons.inj heq).1
    exact absurd (hfirst ▸ hfront.subset (List.mem_cons_self ..)) hnotin

theorem fair_dealRounds {hand : UserId → List Track} (howned : Owned hand)
    {users : List UserId} (hnodup : users.Nodup) (n : Nat) :
    Fair ((dealRounds n (users.map hand)).map (·.requester)) := by
  induction n generalizing hand with
  | zero => trivial
  | succ n ih =>
    rw [dealRounds_succ, List.map_append, requesters_of_round howned]
    have hround : (active hand users).Nodup := hnodup.filter _
    refine fair_append hround (ih howned.tail) ?_
    intro user hlast hhead other hother
    obtain ⟨rest, hactive⟩ := active_of_head?_dealRounds howned.tail hhead
    have hsub := active_tail_sublist hand users
    rw [hactive] at hsub
    have hrest := tail_eq_nil_of_sublist hround hlast hsub
    have hmem := mem_active_of_mem_dealRounds howned.tail hother
    rw [hactive, hrest] at hmem
    exact List.mem_singleton.mp hmem

/-! ### The join with the anchor -/

/-- The rotation begins with the anchor itself only if nobody else takes part. -/
theorem rotated_anchor_first {anchor : UserId} {users rest : List UserId} (hnodup : users.Nodup)
    (h : rotated (some anchor) users = anchor :: rest) : rest = [] := by
  have hperm := rotated_perm (some anchor) users
  have hmem : anchor ∈ users := hperm.subset (h ▸ List.mem_cons_self ..)
  obtain ⟨index, hindex⟩ : ∃ index, users.idxOf? anchor = some index := by
    cases hidx : users.idxOf? anchor with
    | none => exact absurd hmem (List.idxOf?_eq_none_iff.mp hidx)
    | some index => exact ⟨index, rfl⟩
  have hrotated : rotated (some anchor) users = users.rotateLeft (index + 1) := by
    simp only [rotated, Option.bind_some, hindex]
  rw [hrotated] at h
  simp only [List.rotateLeft] at h
  obtain ⟨hlt, hget, _⟩ := List.idxOf?_eq_some_iff.mp hindex
  split at h
  · next hshort =>
    rw [h, List.length_cons] at hshort
    exact List.length_eq_zero_iff.mp (by omega)
  · next hlong =>
    have hmod : (index + 1) % users.length < users.length := Nat.mod_lt _ (by omega)
    have hhead : users[(index + 1) % users.length] = anchor := by
      have := congrArg List.head? h
      rw [List.head?_append, List.head?_drop, List.getElem?_eq_getElem hmod] at this
      simpa using this
    have hsame : (index + 1) % users.length = index :=
      (List.Nodup.getElem_inj_iff hnodup).mp (hhead.trans hget.symm)
    exfalso
    by_cases hend : index + 1 = users.length
    · rw [hend, Nat.mod_self] at hsame
      omega
    · rw [Nat.mod_eq_of_lt (by omega)] at hsame
      omega

theorem pendingOf_owned (tracks : List Track) : Owned (pendingOf tracks) := by
  intro user track hmem
  simpa using (List.mem_filter.mp hmem).2

theorem active_pendingOf {users : List UserId} {tracks : List Track}
    (h : ∀ user ∈ users, ∃ track ∈ tracks, track.requester = user) :
    active (pendingOf tracks) users = users := by
  unfold active
  rw [List.filter_eq_self]
  intro user huser
  obtain ⟨track, htrack, hrequester⟩ := h user huser
  have hmem : track ∈ pendingOf tracks user :=
    List.mem_filter.mpr ⟨htrack, by simpa using hrequester⟩
  cases hhand : pendingOf tracks user with
  | nil => rw [hhand] at hmem; cases hmem
  | cons => rfl

theorem active_turns (anchor : Option UserId) (ordinary : List Track) :
    active (pendingOf ordinary) (turns anchor ordinary) = turns anchor ordinary := by
  apply active_pendingOf
  intro user huser
  exact mem_turns.mp huser

/-- The first round begins with the first user of the rotation. -/
theorem head?_rounds (anchor : Option UserId) (ordinary : List Track) :
    ((rounds anchor ordinary).map (·.requester)).head? = (turns anchor ordinary).head? := by
  cases hhead : ((rounds anchor ordinary).map (·.requester)).head? with
  | some user =>
    obtain ⟨rest, hactive⟩ := active_of_head?_dealRounds (pendingOf_owned ordinary) hhead
    rw [active_turns] at hactive
    rw [hactive]
    rfl
  | none =>
    rw [List.head?_eq_none_iff, List.map_eq_nil_iff] at hhead
    have hnone : ordinary = [] := by
      have hperm := rounds_perm anchor ordinary
      rw [hhead] at hperm
      exact hperm.nil_eq.symm
    have hempty : (turns anchor ordinary).Perm [] := by
      rw [hnone]
      exact rotated_perm anchor _
    rw [hempty.eq_nil]
    rfl

/-- The rounds are fair, also to the anchor. -/
theorem fair_rounds (anchor : Option UserId) (ordinary : List Track) :
    Fair (anchor.toList ++ (rounds anchor ordinary).map (·.requester)) := by
  have hfair : Fair ((rounds anchor ordinary).map (·.requester)) :=
    fair_dealRounds (pendingOf_owned ordinary) (turns_nodup anchor ordinary) _
  cases anchor with
  | none => exact hfair
  | some user =>
    refine fair_append (List.nodup_singleton user) hfair ?_
    intro last hlast hhead other hother
    have hlast : user = last := Option.some.inj hlast
    subst hlast
    rw [head?_rounds, List.head?_eq_some_iff] at hhead
    obtain ⟨rest, hturns⟩ := hhead
    have hrest := rotated_anchor_first (requesters_nodup ordinary) hturns
    have hmem := mem_active_of_mem_dealRounds (pendingOf_owned ordinary) hother
    rw [active_turns, hturns, hrest] at hmem
    exact List.mem_singleton.mp hmem

end Jukebox.RoundRobin
