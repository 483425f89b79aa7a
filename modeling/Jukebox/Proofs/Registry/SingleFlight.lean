import Jukebox.Entries
import Jukebox.Proofs.Registry.Lobby
import Mathlib.Data.List.Nodup

/-!
One construction at a time. Whatever happens in the lobby of a registry, and in whatever order, a
guild never has two constructions in flight, a player that was built takes nobody's place, and those
who wait for the same construction are given the same.
-/
namespace Jukebox

namespace Lobby

/-! ### What every event keeps -/

/-- The roster agrees with what the constructions and the callers have come to. -/
structure Consistent (lobby : Lobby) : Prop where
  outcomes : ∀ {number : Nat} {construction : Construction},
    lobby.roster.constructions[number]? = some construction →
      construction.outcome = (lobby.progress number).told?
  fresh : ∀ {number : Nat}, lobby.guildOf? number = none → lobby.progress number = .building
  /-- The marks are those of the constructions in flight. -/
  marks : ∀ {guild : GuildId} {number : Nat},
    (guild, number) ∈ lobby.roster.pending ↔ lobby.InFlight guild number
  one_mark : (lobby.roster.pending.map (·.1)).Nodup
  /-- A guild has no player while one is being built for it. -/
  vacant : ∀ {guild : GuildId} {number : Nat}, lobby.guildOf? number = some guild →
    (lobby.progress number).unlisted = true → ∀ entry ∈ lobby.roster.registered, entry.1 ≠ guild
  joined : ∀ caller ∈ lobby.callers, ∀ number : Nat, caller.errand.joined? = some number →
    lobby.guildOf? number = some caller.guild
  told : ∀ caller ∈ lobby.callers, ∀ (number : Nat) (answer : Except ConstructionFault Nat),
    caller.errand = .answered (.awaiting number) answer →
      (lobby.progress number).told? = some answer

theorem playerOf?_eq_none_iff {roster : Roster} {guild : GuildId} :
    roster.playerOf? guild = none ↔ ∀ entry ∈ roster.registered, entry.1 ≠ guild := by
  rw [Roster.playerOf?, List.lookup_eq_none_iff]
  exact forall_congr' fun entry => forall_congr' fun _ => bne_iff_ne.trans ne_comm

theorem guildOf?_length (lobby : Lobby) :
    lobby.guildOf? lobby.roster.constructions.length = none := by
  rw [guildOf?, List.getElem?_eq_none (Nat.le_refl _)]
  rfl

/-- The constructions when one more has been begun. -/
theorem getElem?_begin (roster : Roster) (guild : GuildId) (number : Nat) :
    (roster.begin guild).2.constructions[number]? =
      if number = roster.constructions.length then some { guild }
      else roster.constructions[number]? := by
  simp only [Roster.begin]
  rcases Nat.lt_trichotomy number roster.constructions.length with hlt | rfl | hgt
  · rw [if_neg (Nat.ne_of_lt hlt), List.getElem?_append_left hlt]
  · rw [if_pos rfl, List.getElem?_concat_length]
  · rw [if_neg (Nat.ne_of_gt hgt), List.getElem?_eq_none (Nat.le_of_lt hgt),
      List.getElem?_eq_none (by simpa [Nat.succ_le_iff] using hgt)]

def beginning (lobby : Lobby) (guild : GuildId) : Lobby :=
  { lobby with roster := (lobby.roster.begin guild).2 }

theorem guildOf?_beginning (lobby : Lobby) (guild : GuildId) (number : Nat) :
    (lobby.beginning guild).guildOf? number =
      if number = lobby.roster.constructions.length then some guild
      else lobby.guildOf? number := by
  unfold guildOf? beginning
  rw [getElem?_begin]
  split <;> rfl

theorem progress_move (lobby : Lobby) (number other : Nat) (progress : Progress)
    (roster : Roster) : (lobby.move number progress roster).progress other =
      if other = number then progress else lobby.progress other :=
  Function.update_apply _ _ _ _

namespace Consistent

variable {lobby : Lobby} {guild : GuildId} {number place : Nat}

theorem opening : ({} : Lobby).Consistent where
  outcomes := by simp
  fresh := fun _ => rfl
  marks := by simp [InFlight, guildOf?]
  one_mark := .nil
  vacant := by simp [guildOf?]
  joined := by simp
  told := by simp

/-- A guild never has two constructions in flight. -/
theorem eq_of_inFlight (h : lobby.Consistent) {other : Nat} (hnumber : lobby.InFlight guild number)
    (hother : lobby.InFlight guild other) : number = other := by
  have hsame := List.inj_on_of_nodup_map h.one_mark (h.marks.mpr hnumber) (h.marks.mpr hother) rfl
  exact (Prod.mk.inj hsame).2

/-- Only the errand of a caller has changed. -/
theorem setErrand (h : lobby.Consistent) {errand : Errand}
    (hjoined : ∀ other, errand.joined? = some other → lobby.guildOf? other = some guild)
    (htold : ∀ other answer, errand = .answered (.awaiting other) answer →
      (lobby.progress other).told? = some answer) :
    (lobby.setErrand place guild errand).Consistent := by
  refine { h with joined := ?_, told := ?_ }
  · intro caller hcaller
    rcases List.mem_or_eq_of_mem_set hcaller with hold | rfl
    · exact h.joined caller hold
    · exact hjoined
  · intro caller hcaller
    rcases List.mem_or_eq_of_mem_set hcaller with hold | rfl
    · exact h.told caller hold
    · exact htold

/-- A caller who has joined no construction came further. -/
theorem setErrand_alone (h : lobby.Consistent) {errand : Errand} (halone : errand.joined? = none) :
    (lobby.setErrand place guild errand).Consistent := by
  refine h.setErrand ?_ ?_
  · intro other hjoined
    rw [halone] at hjoined
    cases hjoined
  · rintro other answer rfl
    cases halone

theorem arrives (h : lobby.Consistent) (guild : GuildId) :
    (lobby.step (.arrives guild)).Consistent := by
  refine { h with joined := ?_, told := ?_ }
  · intro caller hcaller number hjoined
    rcases List.mem_append.mp hcaller with hold | hnew
    · exact h.joined caller hold number hjoined
    · rw [List.mem_singleton.mp hnew] at hjoined
      cases hjoined
  · intro caller hcaller number answer hanswered
    rcases List.mem_append.mp hcaller with hold | hnew
    · exact h.told caller hold number answer hanswered
    · rw [List.mem_singleton.mp hnew] at hanswered
      cases hanswered

theorem dismisses (h : lobby.Consistent) (guild : GuildId) :
    (lobby.step (.dismisses guild)).Consistent := by
  refine { h with vacant := ?_ }
  intro other number hguild hunlisted entry hentry
  exact h.vacant hguild hunlisted entry (List.mem_filter.mp hentry).1

/-- A construction may be begun for a guild that has neither a mark nor a player. -/
theorem begins (h : lobby.Consistent) (hunmarked : lobby.roster.pending.lookup guild = none)
    (hvacant : lobby.roster.playerOf? guild = none) : (lobby.beginning guild).Consistent where
  outcomes := by
    intro number construction hnumber
    change (lobby.roster.begin guild).2.constructions[number]? = _ at hnumber
    change construction.outcome = (lobby.progress number).told?
    rw [getElem?_begin] at hnumber
    split at hnumber
    · next hnew =>
      rw [hnew, h.fresh lobby.guildOf?_length, ← Option.some.inj hnumber]
      rfl
    · exact h.outcomes hnumber
  fresh := by
    intro number hnone
    rw [guildOf?_beginning] at hnone
    split at hnone
    · cases hnone
    · exact h.fresh hnone
  marks := by
    intro other number
    have hmarked : (other, number) ∈ (lobby.beginning guild).roster.pending ↔
        lobby.InFlight other number ∨
          other = guild ∧ number = lobby.roster.constructions.length := by
      rw [← h.marks, ← Prod.mk.injEq, ← List.mem_singleton]
      exact List.mem_append
    rw [hmarked]
    change _ ↔ (lobby.beginning guild).guildOf? number = some other ∧
      (lobby.progress number).inFlight = true
    rw [guildOf?_beginning]
    split
    · next hnew =>
      have hnone : lobby.guildOf? number = none := hnew ▸ lobby.guildOf?_length
      rw [h.fresh hnone]
      constructor
      · rintro (⟨hguild, -⟩ | ⟨rfl, -⟩)
        · rw [hnone] at hguild
          cases hguild
        · exact ⟨rfl, rfl⟩
      · rintro ⟨hguild, -⟩
        exact .inr ⟨(Option.some.inj hguild).symm, hnew⟩
    · next hold => simp [InFlight, hold]
  one_mark := by
    change ((lobby.roster.pending ++ [(guild, lobby.roster.constructions.length)]).map
      (·.1)).Nodup
    rw [List.map_append, List.nodup_append]
    refine ⟨h.one_mark, List.nodup_singleton _, ?_⟩
    intro marked hmarked last hlast
    obtain ⟨mark, hmark, rfl⟩ := List.mem_map.mp hmarked
    obtain rfl := List.mem_singleton.mp hlast
    have hother := List.lookup_eq_none_iff.mp hunmarked mark hmark
    exact (bne_iff_ne.mp hother).symm
  vacant := by
    intro other number hguild hunlisted
    rw [guildOf?_beginning] at hguild
    split at hguild
    · rw [← Option.some.inj hguild]
      exact playerOf?_eq_none_iff.mp hvacant
    · exact h.vacant hguild hunlisted
  joined := by
    intro caller hcaller number hjoined
    have hguild := h.joined caller hcaller number hjoined
    rw [guildOf?_beginning, if_neg ?_]
    · exact hguild
    · rintro rfl
      rw [guildOf?_length] at hguild
      cases hguild
  told := h.told

theorem joins (h : lobby.Consistent) (place : Nat) : (lobby.step (.joins place)).Consistent := by
  unfold step
  dsimp only
  split
  · next guild hcaller =>
    unfold Roster.join
    cases hlookup : lobby.roster.pending.lookup guild with
    | some number =>
      refine h.setErrand (fun other hjoined => ?_) (fun _ _ hanswered => nomatch hanswered)
      cases hjoined
      exact (h.marks.mp (Entries.mem_of_lookup hlookup)).1
    | none =>
      cases hplayer : lobby.roster.playerOf? guild with
      | some player => exact h.setErrand_alone rfl
      | none =>
        refine (h.begins hlookup hplayer).setErrand (fun other hjoined => ?_)
          (fun _ _ hanswered => nomatch hanswered)
        cases hjoined
        rw [guildOf?_beginning, if_pos rfl]
  · exact h

theorem looksUp (h : lobby.Consistent) (place : Nat) :
    (lobby.step (.looksUp place)).Consistent := by
  unfold step
  dsimp only
  split
  · next guild hcaller =>
    cases lobby.roster.playerOf? guild with
    | some | none => exact h.setErrand_alone rfl
  · exact h

/-- What a construction gives once it is over. -/
theorem redeem_eq (h : lobby.Consistent) {outcome : Except ConstructionFault Nat}
    (hguild : lobby.guildOf? number = some guild)
    (htold : (lobby.progress number).told? = some outcome) :
    lobby.roster.redeem (.awaiting number) = outcome := by
  obtain ⟨construction, hnumber, -⟩ := Option.map_eq_some_iff.mp hguild
  have houtcome := (h.outcomes hnumber).trans htold
  simp only [Roster.redeem, hnumber, Option.bind_some, houtcome]

theorem receives (h : lobby.Consistent) (place : Nat) :
    (lobby.step (.receives place)).Consistent := by
  unfold step
  dsimp only
  split
  · next guild ticket hcaller =>
    split
    · next hready =>
      have hmem := List.mem_of_getElem? hcaller
      cases ticket with
      | served player => exact h.setErrand_alone rfl
      | awaiting number =>
        have hguild := h.joined _ hmem number rfl
        refine h.setErrand (fun other hjoined => ?_) (fun other answer hanswered => ?_)
        · cases hjoined
          exact hguild
        · obtain ⟨outcome, htold⟩ := Option.isSome_iff_exists.mp hready
          cases hanswered
          rw [htold, h.redeem_eq hguild htold]
    · exact h
  · exact h

/-- A construction has come further. -/
theorem move (h : lobby.Consistent) {progress : Progress} {roster : Roster}
    (hguild : lobby.guildOf? number = some guild)
    (hguilds : ∀ other, (lobby.move number progress roster).guildOf? other = lobby.guildOf? other)
    (houtcomes : ∀ {other : Nat} {construction : Construction},
      roster.constructions[other]? = some construction →
        construction.outcome = (if other = number then progress else lobby.progress other).told?)
    (htold : (lobby.progress number).told? = none)
    (hmarks : ∀ {other : GuildId} {marked : Nat}, (other, marked) ∈ roster.pending ↔
      lobby.guildOf? marked = some other ∧
        (if marked = number then progress else lobby.progress marked).inFlight = true)
    (hone : (roster.pending.map (·.1)).Nodup)
    (hunlisted : progress.unlisted = true → (lobby.progress number).unlisted = true)
    (hregistered : ∀ entry ∈ roster.registered, entry ∈ lobby.roster.registered ∨
      entry.1 = guild ∧ (lobby.progress number).inFlight = true ∧ progress.unlisted = false) :
    (lobby.move number progress roster).Consistent where
  outcomes := by
    intro other construction hother
    rw [progress_move]
    exact houtcomes hother
  fresh := by
    intro other hnone
    rw [hguilds] at hnone
    rw [progress_move, if_neg ?_]
    · exact h.fresh hnone
    · rintro rfl
      rw [hguild] at hnone
      cases hnone
  marks := by
    intro other marked
    rw [InFlight, hguilds, progress_move]
    exact hmarks
  one_mark := hone
  vacant := by
    intro other building hother hopen entry hentry
    rw [hguilds] at hother
    rw [progress_move] at hopen
    split at hopen
    · next hsame =>
      rcases hregistered entry hentry with hold | ⟨-, -, hlisted⟩
      · exact h.vacant hother (hsame ▸ hunlisted hopen) entry hold
      · rw [hopen] at hlisted
        cases hlisted
    · next hdiffer =>
      rcases hregistered entry hentry with hold | ⟨hnew, hflying, -⟩
      · exact h.vacant hother hopen entry hold
      · rintro rfl
        -- the guild would have two constructions in flight
        rw [hnew] at hother
        exact hdiffer (h.eq_of_inFlight ⟨hother, Progress.inFlight_of_unlisted hopen⟩
          ⟨hguild, hflying⟩)
  joined := by
    intro caller hcaller other hjoined
    rw [hguilds]
    exact h.joined caller hcaller other hjoined
  told := by
    intro caller hcaller other answer hanswered
    have hknown := h.told caller hcaller other answer hanswered
    rw [progress_move, if_neg ?_]
    · exact hknown
    · rintro rfl
      rw [htold] at hknown
      cases hknown

/-- A construction comes to an outcome, or its player comes to serve the guild. -/
theorem stays (h : lobby.Consistent) {progress : Progress} {roster : Roster}
    (hguild : lobby.guildOf? number = some guild)
    (hbefore : (lobby.progress number).unlisted = true) (hafter : progress.inFlight = true)
    (hconstructions : roster.constructions = lobby.roster.constructions)
    (hpending : roster.pending = lobby.roster.pending)
    (hregistered : ∀ entry ∈ roster.registered, entry ∈ lobby.roster.registered ∨
      entry.1 = guild ∧ progress.unlisted = false) :
    (lobby.move number progress roster).Consistent := by
  have hflying := Progress.inFlight_of_unlisted hbefore
  have hnone := Progress.told?_eq_none_of_inFlight hflying
  refine h.move hguild ?_ ?_ hnone ?_ ?_ (fun _ => hbefore) ?_
  · intro other
    simp only [guildOf?, Lobby.move, hconstructions]
  · intro other construction hother
    rw [hconstructions] at hother
    have houtcome := h.outcomes hother
    split
    · next hsame =>
      rw [houtcome, hsame, hnone, Progress.told?_eq_none_of_inFlight hafter]
    · exact houtcome
  · intro other marked
    rw [hpending, h.marks, InFlight]
    split
    · next hsame => rw [hsame, hflying, hafter]
    · rfl
  · rw [hpending]
    exact h.one_mark
  · intro entry hentry
    exact (hregistered entry hentry).imp_right fun hnew => ⟨hnew.1, hflying, hnew.2⟩

theorem builds (h : lobby.Consistent) (number : Nat) (outcome : Except ConstructionFault Nat) :
    (lobby.step (.builds number outcome)).Consistent := by
  unfold step
  dsimp only
  split
  · next guild hguild hbuilding =>
    exact h.stays hguild (by rw [hbuilding]; rfl) rfl rfl rfl fun _ => .inl
  · exact h

theorem enlists (h : lobby.Consistent) {outcome : Except ConstructionFault Nat}
    (hguild : lobby.guildOf? number = some guild)
    (hbuilt : lobby.progress number = .built outcome) :
    (lobby.move number (.enlisted outcome)
      (lobby.roster.enlistIfBuilt guild outcome)).Consistent := by
  have hbefore : (lobby.progress number).unlisted = true := by
    rw [hbuilt]
    rfl
  cases outcome with
  | error cause => exact h.stays hguild hbefore rfl rfl rfl fun _ => .inl
  | ok player =>
    refine h.stays hguild hbefore rfl rfl rfl fun entry hentry => ?_
    rcases List.mem_append.mp hentry with hold | hnew
    · exact .inl (List.mem_filter.mp hold).1
    · rw [List.mem_singleton.mp hnew]
      exact .inr ⟨rfl, rfl⟩

theorem unmarks (h : lobby.Consistent) {outcome : Except ConstructionFault Nat}
    (hguild : lobby.guildOf? number = some guild)
    (henlisted : lobby.progress number = .enlisted outcome) :
    (lobby.move number (.unmarked outcome) (lobby.roster.unmark guild)).Consistent := by
  have hflying : (lobby.progress number).inFlight = true := by
    rw [henlisted]
    rfl
  refine h.move hguild (fun _ => rfl) ?_ (Progress.told?_eq_none_of_inFlight hflying) ?_ ?_ nofun
    fun _ => .inl
  · intro other construction hother
    have houtcome := h.outcomes hother
    split
    · next hsame =>
      rw [houtcome, hsame, henlisted]
      rfl
    · exact houtcome
  · intro other marked
    rw [Roster.unmark, List.mem_filter, h.marks, InFlight]
    split
    · next hsame =>
      refine iff_of_false ?_ (fun h => Bool.false_ne_true h.2)
      rintro ⟨⟨hother, -⟩, hdiffer⟩
      rw [hsame, hguild] at hother
      simp [Option.some.inj hother] at hdiffer
    · next hdiffer =>
      refine and_iff_left_of_imp ?_
      rintro ⟨hother, hflies⟩
      -- a second construction of the guild would be in flight
      refine decide_eq_true fun hsame : other = guild => hdiffer ?_
      exact h.eq_of_inFlight ⟨hsame ▸ hother, hflies⟩ ⟨hguild, hflying⟩
  · exact List.Nodup.sublist (List.filter_sublist.map _) h.one_mark

theorem concludes (h : lobby.Consistent) {outcome : Except ConstructionFault Nat}
    (hguild : lobby.guildOf? number = some guild)
    (hunmarked : lobby.progress number = .unmarked outcome) :
    (lobby.move number (.concluded outcome) (lobby.roster.conclude number outcome)).Consistent := by
  refine h.move hguild ?_ ?_ (by rw [hunmarked]; rfl) ?_ h.one_mark nofun fun _ => .inl
  · intro other
    simp only [guildOf?, Lobby.move, Roster.conclude, List.getElem?_modify]
    cases lobby.roster.constructions[other]? with
    | none => rfl
    | some construction =>
      simp only [Option.map_eq_map, Option.map_some]
      split <;> rfl
  · intro other construction hother
    rw [Roster.conclude, List.getElem?_modify] at hother
    obtain ⟨before, hbefore, rfl⟩ := Option.map_eq_some_iff.mp hother
    by_cases hsame : other = number
    · rw [if_pos hsame, if_pos hsame.symm]
      rfl
    · rw [if_neg hsame, if_neg (Ne.symm hsame)]
      exact h.outcomes hbefore
  · intro other marked
    change (other, marked) ∈ lobby.roster.pending ↔ _
    rw [h.marks, InFlight]
    split
    · next hsame =>
      rw [hsame, hunmarked]
      rfl
    · rfl

theorem goesOn (h : lobby.Consistent) (number : Nat) :
    (lobby.step (.goesOn number)).Consistent := by
  unfold step
  dsimp only
  split
  · next hguild hbuilt => exact h.enlists hguild hbuilt
  · next hguild henlisted => exact h.unmarks hguild henlisted
  · next hguild hunmarked => exact h.concludes hguild hunmarked
  · exact h

theorem step (h : lobby.Consistent) (event : LobbyEvent) : (lobby.step event).Consistent := by
  cases event with
  | arrives guild => exact h.arrives guild
  | looksUp place => exact h.looksUp place
  | joins place => exact h.joins place
  | receives place => exact h.receives place
  | builds number outcome => exact h.builds number outcome
  | goesOn number => exact h.goesOn number
  | dismisses guild => exact h.dismisses guild

theorem run (h : lobby.Consistent) (events : List LobbyEvent) : (lobby.run events).Consistent := by
  induction events generalizing lobby with
  | nil => exact h
  | cons event rest ih => exact ih (h.step event)

end Consistent

structure SingleFlight (lobby : Lobby) : Prop where
  one_in_flight : ∀ (guild : GuildId) (number other : Nat),
    lobby.InFlight guild number → lobby.InFlight guild other → number = other
  /-- The marks are those of the constructions in flight. So that of a construction which is over is
  gone, whatever came of it. -/
  marks : ∀ (guild : GuildId) (number : Nat),
    (guild, number) ∈ lobby.roster.pending ↔ lobby.InFlight guild number
  /-- A player that was built takes nobody's place. -/
  replaces_nobody : ∀ (guild : GuildId) (number player : Nat),
    lobby.guildOf? number = some guild → lobby.progress number = .built (.ok player) →
      lobby.roster.playerOf? guild = none ∧
      (lobby.step (.goesOn number)).roster.registered =
        lobby.roster.registered ++ [(guild, player)]
  /-- Whoever missed the player of a guild and joins waits for the construction in flight, or is
  served by the player that has come to serve since. -/
  joined : ∀ (place : Nat) (guild : GuildId), lobby.callers[place]? = some ⟨guild, .missed⟩ →
    (∃ number, (lobby.step (.joins place)).InFlight guild number ∧
      (lobby.step (.joins place)).callers[place]? =
        some ⟨guild, .holding (.awaiting number)⟩) ∨
    ∃ player, lobby.roster.playerOf? guild = some player ∧
      (lobby.step (.joins place)).callers[place]? = some ⟨guild, .holding (.served player)⟩
  same_answer : ∀ caller ∈ lobby.callers, ∀ other ∈ lobby.callers,
    ∀ (number : Nat) (answer otherAnswer : Except ConstructionFault Nat),
      caller.errand = .answered (.awaiting number) answer →
      other.errand = .answered (.awaiting number) otherAnswer → answer = otherAnswer
  /-- Whoever waits for a construction is given its outcome when it is over. -/
  given : ∀ (place : Nat) (guild : GuildId) (number : Nat),
    lobby.callers[place]? = some ⟨guild, .holding (.awaiting number)⟩ →
      lobby.guildOf? number = some guild ∧
      ∀ outcome, lobby.progress number = .concluded outcome →
        (lobby.step (.receives place)).callers[place]? =
          some ⟨guild, .answered (.awaiting number) outcome⟩
  /-- Nothing that the others do keeps a construction from coming to its end. -/
  ends : ∀ (guild : GuildId) (number : Nat), lobby.guildOf? number = some guild →
    ∃ (own : List LobbyEvent) (outcome : Except ConstructionFault Nat),
      (∀ event ∈ own, event.isOf number = true) ∧
      (lobby.run own).progress number = .concluded outcome

/-- A construction can be carried to its end by its own steps. -/
theorem exists_concluded {lobby : Lobby} {number : Nat} {guild : GuildId}
    (hguild : lobby.guildOf? number = some guild) :
    ∃ (own : List LobbyEvent) (outcome : Except ConstructionFault Nat),
      (∀ event ∈ own, event.isOf number = true) ∧
      (lobby.run own).progress number = .concluded outcome := by
  have hkept (outcome : Except ConstructionFault Nat) :
      (lobby.roster.enlistIfBuilt guild outcome).constructions = lobby.roster.constructions := by
    cases outcome <;> rfl
  simp only [guildOf?] at hguild
  cases hprogress : lobby.progress number with
  | building =>
    refine ⟨[.builds number (.error .aborted), .goesOn number, .goesOn number, .goesOn number],
      .error .aborted, by simp [LobbyEvent.isOf], ?_⟩
    simp [run, step, move, guildOf?, hguild, hprogress, Roster.enlistIfBuilt, Roster.unmark]
  | built outcome =>
    refine ⟨[.goesOn number, .goesOn number, .goesOn number], outcome,
      by simp [LobbyEvent.isOf], ?_⟩
    simp [run, step, move, guildOf?, hguild, hprogress, hkept, Roster.unmark]
  | enlisted outcome =>
    refine ⟨[.goesOn number, .goesOn number], outcome, by simp [LobbyEvent.isOf], ?_⟩
    simp [run, step, move, guildOf?, hguild, hprogress, Roster.unmark]
  | unmarked outcome =>
    refine ⟨[.goesOn number], outcome, by simp [LobbyEvent.isOf], ?_⟩
    simp [run, step, move, guildOf?, hguild, hprogress]
  | concluded outcome => exact ⟨[], outcome, by simp, hprogress⟩

namespace Consistent

variable {lobby : Lobby}

/-- The player that was built is added to those that serve. -/
theorem registered_goesOn (h : lobby.Consistent) {guild : GuildId} {number player : Nat}
    (hguild : lobby.guildOf? number = some guild)
    (hbuilt : lobby.progress number = .built (.ok player)) :
    (∀ entry ∈ lobby.roster.registered, entry.1 ≠ guild) ∧
      (lobby.step (.goesOn number)).roster.registered =
        lobby.roster.registered ++ [(guild, player)] := by
  have hvacant := h.vacant hguild (by rw [hbuilt]; rfl)
  refine ⟨hvacant, ?_⟩
  have hall : lobby.roster.registered.filter (·.1 ≠ guild) = lobby.roster.registered :=
    List.filter_eq_self.mpr fun entry hentry => decide_eq_true (hvacant entry hentry)
  simp only [Lobby.step, hguild, hbuilt]
  change lobby.roster.registered.filter (·.1 ≠ guild) ++ [(guild, player)] = _
  rw [hall]

/-- A caller who joins is sent to the construction that is marked then, or to the player. -/
theorem callers_joins (h : lobby.Consistent) {place : Nat} {guild : GuildId}
    (hcaller : lobby.callers[place]? = some ⟨guild, .missed⟩) :
    (∃ number, (lobby.step (.joins place)).InFlight guild number ∧
      (lobby.step (.joins place)).callers[place]? =
        some ⟨guild, .holding (.awaiting number)⟩) ∨
    ∃ player, lobby.roster.playerOf? guild = some player ∧
      (lobby.step (.joins place)).callers[place]? = some ⟨guild, .holding (.served player)⟩ := by
  have hplace := (List.getElem?_eq_some_iff.mp hcaller).1
  have hmarks (number : Nat) : (guild, number) ∈ (lobby.step (.joins place)).roster.pending ↔
      (lobby.step (.joins place)).InFlight guild number := (h.joins place).marks
  simp only [Lobby.step, hcaller, Roster.join] at hmarks ⊢
  cases hlookup : lobby.roster.pending.lookup guild with
  | some number =>
    simp only [hlookup] at hmarks ⊢
    refine .inl ⟨number, (hmarks number).mp ?_, ?_⟩
    · exact Entries.mem_of_lookup hlookup
    · exact List.getElem?_set_self hplace
  | none =>
    cases hplayer : lobby.roster.playerOf? guild with
    | some player => exact .inr ⟨player, rfl, List.getElem?_set_self hplace⟩
    | none =>
      simp only [hlookup, hplayer] at hmarks ⊢
      refine .inl ⟨lobby.roster.constructions.length, (hmarks _).mp ?_, ?_⟩
      · exact List.mem_append_right _ (List.mem_singleton_self _)
      · exact List.getElem?_set_self hplace

/-- A caller who waits for a construction that is over is given its outcome. -/
theorem callers_receives (h : lobby.Consistent) {place number : Nat} {guild : GuildId}
    {outcome : Except ConstructionFault Nat}
    (hcaller : lobby.callers[place]? = some ⟨guild, .holding (.awaiting number)⟩)
    (hconcluded : lobby.progress number = .concluded outcome) :
    (lobby.step (.receives place)).callers[place]? =
      some ⟨guild, .answered (.awaiting number) outcome⟩ := by
  have hguild := h.joined _ (List.mem_of_getElem? hcaller) number rfl
  have htold : (lobby.progress number).told? = some outcome := by
    rw [hconcluded]
    rfl
  have hready : lobby.ready (.awaiting number) = true := by
    rw [ready, htold]
    rfl
  have hplace := (List.getElem?_eq_some_iff.mp hcaller).1
  simp only [Lobby.step, hcaller, hready, if_true, h.redeem_eq hguild htold, Lobby.setErrand]
  exact List.getElem?_set_self hplace

theorem singleFlight (h : lobby.Consistent) : lobby.SingleFlight where
  one_in_flight := fun _ _ _ => h.eq_of_inFlight
  marks := fun _ _ => h.marks
  replaces_nobody := by
    intro guild number player hguild hbuilt
    obtain ⟨hvacant, hregistered⟩ := h.registered_goesOn hguild hbuilt
    exact ⟨playerOf?_eq_none_iff.mpr hvacant, hregistered⟩
  joined := fun _ _ => h.callers_joins
  same_answer := by
    intro caller hcaller other hother number answer otherAnswer hanswered hotherAnswered
    have htold := h.told caller hcaller number answer hanswered
    exact Option.some.inj (htold.symm.trans (h.told other hother number _ hotherAnswered))
  given := by
    intro place guild number hcaller
    exact ⟨h.joined _ (List.mem_of_getElem? hcaller) number rfl,
      fun _ hconcluded => h.callers_receives hcaller hconcluded⟩
  ends := fun _ _ => exists_concluded

end Consistent

/-- However many callers ask for players, and whatever callers, constructions and dismissals do
between each other's steps, constructions are shared as they should be. -/
theorem singleFlight_run (events : List LobbyEvent) : (({} : Lobby).run events).SingleFlight :=
  (Consistent.opening.run events).singleFlight

/-- A construction that is over when a caller who missed its player joins is not begun again. -/
example : let guild : GuildId := ⟨1, by decide⟩
    (({} : Lobby).run [.arrives guild, .arrives guild, .looksUp 0, .looksUp 1, .joins 0,
      .builds 0 (.ok 7), .goesOn 0, .goesOn 0, .goesOn 0, .joins 1, .receives 0,
      .receives 1]).callers =
    [⟨guild, .answered (.awaiting 0) (.ok 7)⟩, ⟨guild, .answered (.served 7) (.ok 7)⟩] := rfl

end Lobby

end Jukebox
