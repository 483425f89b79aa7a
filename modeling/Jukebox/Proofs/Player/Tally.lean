import Jukebox.Proofs.Player.Calls
import Mathlib.Algebra.GroupWithZero.Nat
import Mathlib.Data.List.Dedup

/-!
A tally of what there is to count: the calls of a player to its node, the loads that the node
reported as failed, and the tracks that the limits refused. The counters of a session are in balance
with a tally if they say what it says; each thing that can be counted keeps them in balance.
-/
namespace Jukebox

namespace Announcement

def tellsFailure (message : String) : Bool := message.toList.head? = some '❌'

theorem tellsFailure_loadFailed (track : Option Track) :
    tellsFailure (loadFailed track) = true := by
  rw [tellsFailure, decide_eq_true_eq]
  unfold loadFailed
  cases track <;> simp

theorem tellsFailure_nowPlaying (track : Track) : tellsFailure (nowPlaying track) = false := by
  rw [tellsFailure, decide_eq_false_iff_not]
  unfold nowPlaying
  cases track.duration? <;> simp

end Announcement

namespace LimitRule

theorem name_injective {rule other : LimitRule} (h : rule.name = other.name) : rule = other := by
  cases rule <;> cases other <;> first | rfl | simp [name] at h

/-- Every rule is tried once. -/
theorem sum_count_chain {rules : List (Option LimitRule)} (h : none ∉ rules) :
    (chain.map fun rule => rules.count (some rule)).sum = rules.length := by
  induction rules with
  | nil => rfl
  | cons head rest ih =>
    have hrest := ih fun hmem => h (List.mem_cons_of_mem head hmem)
    cases head with
    | none => exact absurd List.mem_cons_self h
    | some rule =>
      simp only [chain, List.map_cons, List.map_nil, List.sum_cons, List.sum_nil,
        List.count_cons, List.length_cons] at hrest ⊢
      cases rule <;> simp <;> omega

end LimitRule

namespace Metrics

theorem preventedCount_countRefusal (metrics : Metrics) (broken : Option LimitRule)
    (rule : LimitRule) : (metrics.countRefusal broken).preventedCount rule.name =
      metrics.preventedCount rule.name + [broken].count (some rule) := by
  cases broken with
  | none => rfl
  | some other =>
    refine (metrics.preventedCount_countPrevented other.name rule.name).trans ?_
    by_cases hsame : rule = other
    · simp [hsame]
    · have hname : rule.name ≠ other.name := fun h => hsame (LimitRule.name_injective h)
      have hother : ¬ other = rule := fun h => hsame h.symm
      simp [hname, hother]

theorem preventedCount_foldl (metrics : Metrics) (rules : List (Option LimitRule))
    (rule : LimitRule) : (rules.foldl countRefusal metrics).preventedCount rule.name =
      metrics.preventedCount rule.name + rules.count (some rule) := by
  induction rules generalizing metrics with
  | nil => rfl
  | cons broken rest ih =>
    rw [List.foldl_cons, ih, preventedCount_countRefusal, Nat.add_assoc, ← List.count_append,
      List.singleton_append]

/-- Counting refusals changes no other counter. -/
theorem foldl_countRefusal_others (metrics : Metrics) (rules : List (Option LimitRule)) :
    (rules.foldl countRefusal metrics).tracksStarted = metrics.tracksStarted ∧
      (rules.foldl countRefusal metrics).loadFailures = metrics.loadFailures ∧
      (rules.foldl countRefusal metrics).visits = metrics.visits := by
  induction rules generalizing metrics with
  | nil => exact ⟨rfl, rfl, rfl⟩
  | cons broken rest ih => cases broken <;> exact ih _

theorem mem_visits_prune (metrics : Metrics) (day : Int) (visit : UserId × Int) :
    visit ∈ (metrics.prune day).visits ↔
      visit ∈ metrics.visits ∧ (metrics.prunedDay = day ∨ day - listenerWindow < visit.2) := by
  unfold prune
  split
  · next hpruned => exact ⟨fun h => ⟨h, .inl hpruned⟩, And.left⟩
  · next hpruned => simp [hpruned]

theorem mem_visits_visit (metrics : Metrics) (user : UserId) (day : Int) (visit : UserId × Int) :
    visit ∈ (metrics.visit user day).visits ↔
      visit = (user, day) ∨ visit ∈ metrics.visits := by
  unfold Metrics.visit
  split
  · next hknown => exact ⟨.inr, fun h => h.elim (fun hvisit => hvisit ▸ hknown) id⟩
  · exact List.mem_cons

/-- While all visits are of one day, logging another one of the day drops none. -/
theorem mem_visits_logListener {metrics : Metrics} {day : Int}
    (hday : ∀ visit ∈ metrics.visits, visit.2 = day) (user : UserId) (visit : UserId × Int) :
    visit ∈ (metrics.logListener user day).visits ↔
      visit = (user, day) ∨ visit ∈ metrics.visits := by
  rw [logListener, mem_visits_visit, mem_visits_prune]
  refine or_congr_right (and_iff_left_of_imp fun hvisit => .inr ?_)
  rw [hday visit hvisit]
  exact Int.sub_lt_self day (by decide)

theorem nodup_visits_logListener (metrics : Metrics) (user : UserId) (day : Int)
    (h : metrics.visits.Nodup) : (metrics.logListener user day).visits.Nodup := by
  have hpruned : (metrics.prune day).visits.Nodup := by
    unfold prune
    split
    · exact h
    · exact h.filter _
  unfold logListener Metrics.visit
  split
  · exact hpruned
  · next hnew => exact List.nodup_cons.mpr ⟨hnew, hpruned⟩

/-- Logging a listener changes no other counter. -/
theorem logListener_others (metrics : Metrics) (user : UserId) (day : Int) :
    (metrics.logListener user day).tracksStarted = metrics.tracksStarted ∧
      (metrics.logListener user day).loadFailures = metrics.loadFailures ∧
      (metrics.logListener user day).prevented = metrics.prevented := by
  unfold logListener Metrics.visit prune
  repeat' split
  all_goals exact ⟨rfl, rfl, rfl⟩

end Metrics

namespace Call

def toPlay (track : Track) (start : Millis) (stop : Option Millis) (done : Bool) : Call where
  current := some track
  asked := { command := .play track.audio start stop, done }

def isPlay (call : Call) : Bool := call.asked.command.kind = .play

def accepted (call : Call) : Bool := call.isPlay && call.asked.done

def rejected (call : Call) : Bool := call.isPlay && ! call.asked.done

end Call

/-- What there is to count: the calls of a player to its node, how often the node reported that a
track could not be loaded, and the first rule that each refused track broke. -/
structure Tally where
  calls : List Call := []
  reports : Nat := 0
  refused : List (Option LimitRule) := []

namespace Tally

def failures (tally : Tally) : Nat := tally.calls.countP (·.rejected) + tally.reports

def listeners (tally : Tally) : List UserId :=
  (tally.calls.filter (·.accepted)).filterMap fun call => call.current.map (·.requester)

def noted (tally : Tally) (call : Call) : Tally :=
  { tally with calls := tally.calls ++ [call] }

theorem countP_noted (tally : Tally) (call : Call) (counts : Call → Bool) :
    (tally.noted call).calls.countP counts = tally.calls.countP counts + (counts call).toNat := by
  cases hcounts : counts call <;> simp [noted, hcounts]

theorem failures_noted (tally : Tally) (call : Call) :
    (tally.noted call).failures = tally.failures + call.rejected.toNat := by
  rw [failures, countP_noted, failures, Nat.add_right_comm]
  rfl

theorem mem_listeners_noted (tally : Tally) (call : Call) (user : UserId) :
    user ∈ (tally.noted call).listeners ↔ user ∈ tally.listeners ∨
      call.accepted = true ∧ call.current.map (·.requester) = some user := by
  cases haccepted : call.accepted <;> simp [listeners, noted, haccepted]

end Tally

namespace Session

structure Balanced (session : Session) (tally : Tally) : Prop where
  told : session.node.log = tally.calls.map (·.asked)
  ofCurrent : ∀ call ∈ tally.calls, call.isPlay = true → ∃ track start stop,
    call.current = some track ∧ call.asked.command = .play track.audio start stop
  started : session.services.metrics.tracksStarted = tally.calls.countP (·.accepted)
  failed : session.services.metrics.loadFailures = tally.failures
  announced : session.services.announcements.countP (Announcement.tellsFailure ·.2) =
    tally.failures
  once : session.services.metrics.visits.Nodup
  visits : ∀ user day, (user, day) ∈ session.services.metrics.visits ↔
    day = session.services.today ∧ user ∈ tally.listeners
  prevented : ∀ rule : LimitRule,
    session.services.metrics.preventedCount rule.name = tally.refused.count (some rule)
  broken : none ∉ tally.refused

theorem countP_announce (session : Session) (message : String)
    (counts : GuildId × String → Bool) :
    (session.announce message).services.announcements.countP counts =
      session.services.announcements.countP counts +
        (counts (session.guild, message)).toNat := by
  change (session.services.announcements ++ [(session.guild, message)]).countP counts = _
  rw [List.countP_append, List.countP_singleton]
  cases counts (session.guild, message) <;> rfl

namespace Balanced

variable {session later : Session} {tally : Tally}

theorem day_of_visit (h : session.Balanced tally) :
    ∀ visit ∈ session.services.metrics.visits, visit.2 = session.services.today :=
  fun visit hvisit => ((h.visits visit.1 visit.2).mp hvisit).1

/-- Nothing was counted, and there was nothing to count. -/
theorem of_same (h : session.Balanced tally) (hlog : later.node.log = session.node.log)
    (hmetrics : later.services.metrics = session.services.metrics)
    (hannounced : later.services.announcements = session.services.announcements)
    (htoday : later.services.today = session.services.today) : later.Balanced tally where
  told := hlog.trans h.told
  ofCurrent := h.ofCurrent
  started := hmetrics ▸ h.started
  failed := hmetrics ▸ h.failed
  announced := hannounced ▸ h.announced
  once := hmetrics ▸ h.once
  visits := by
    intro user day
    rw [hmetrics, htoday]
    exact h.visits user day
  prevented := hmetrics ▸ h.prevented
  broken := h.broken

/-- The log of the node goes on with the calls. -/
theorem told_perform (h : session.Balanced tally) (command : Command) (current : Option Track) :
    (session.perform command).2.node.log = (tally.noted {
      current, asked := {
        command, done := (session.node.refusal? command).isNone } }).calls.map (·.asked) := by
  rw [Tally.noted, List.map_append, ← h.told]
  exact session.node.log_perform command

theorem ofCurrent_noted (h : session.Balanced tally) {call : Call}
    (hcall : call.isPlay = true → ∃ track start stop,
      call.current = some track ∧ call.asked.command = .play track.audio start stop) :
    ∀ other ∈ (tally.noted call).calls, other.isPlay = true → ∃ track start stop,
      other.current = some track ∧ other.asked.command = .play track.audio start stop := by
  intro other hother
  rcases List.mem_append.mp hother with hold | hnew
  · exact h.ofCurrent other hold
  · obtain rfl := List.mem_singleton.mp hnew
    exact hcall

/-- A command other than a play counts for nothing. -/
theorem perform (h : session.Balanced tally) {command : Command} (hplay : command.kind ≠ .play)
    (current : Option Track) :
    (session.perform command).2.Balanced (tally.noted {
      current, asked := { command, done := (session.node.refusal? command).isNone } }) := by
  have hnot : decide (command.kind = .play) = false := decide_eq_false hplay
  refine {
    told := h.told_perform command current, ofCurrent := h.ofCurrent_noted ?_, started := ?_,
    failed := ?_, announced := ?_, once := h.once, visits := ?_, prevented := h.prevented,
    broken := h.broken }
  · simp [Call.isPlay, hnot]
  · rw [Tally.countP_noted, Call.accepted, Call.isPlay, hnot]
    exact h.started
  · rw [Tally.failures_noted, Call.rejected, Call.isPlay, hnot]
    exact h.failed
  · rw [Tally.failures_noted, Call.rejected, Call.isPlay, hnot]
    exact h.announced
  · intro user day
    simp only [Tally.mem_listeners_noted, Call.accepted, Call.isPlay, hnot, Bool.false_and,
      Bool.false_eq_true, false_and, or_false]
    exact h.visits user day

/-- A message that tells of no failure counts for nothing. -/
theorem announce (h : session.Balanced tally) {message : String}
    (hmessage : Announcement.tellsFailure message = false) :
    (session.announce message).Balanced tally := by
  refine { h with announced := ?_ }
  rw [session.countP_announce, hmessage]
  exact h.announced

/-- A track that the node accepts is counted, and its requester listens. -/
theorem started_of_accepted (h : session.Balanced tally) {track : Track}
    {start : Millis} {stop : Option Millis} (announce : Bool)
    (hdone : session.node.refusal? (.play track.audio start stop) = none) :
    ((session.perform (.play track.audio start stop)).2.started track announce).Balanced
      (tally.noted (.toPlay track start stop true)) := by
  have htold := h.told_perform (.play track.audio start stop) (some track)
  rw [hdone] at htold
  have hothers := session.services.metrics.countStarted.logListener_others track.requester
    session.services.today
  obtain ⟨hstarted, hfailed, hprevented⟩ := hothers
  have hsilent : ((session.perform (.play track.audio start stop)).2.started track false).Balanced
      (tally.noted (.toPlay track start stop true)) := by
    refine {
      told := htold, ofCurrent := h.ofCurrent_noted fun _ => ⟨track, start, stop, rfl, rfl⟩
      started := ?_, failed := ?_, announced := ?_
      once := session.services.metrics.countStarted.nodup_visits_logListener _ _ h.once
      visits := ?_, prevented := ?_, broken := h.broken }
    · rw [Tally.countP_noted, ← h.started]
      exact hstarted
    · rw [Tally.failures_noted]
      exact hfailed.trans h.failed
    · rw [Tally.failures_noted]
      exact h.announced
    · intro user day
      rw [Tally.mem_listeners_noted]
      have hlogged := @Metrics.mem_visits_logListener session.services.metrics.countStarted
        session.services.today h.day_of_visit track.requester (user, day)
      refine hlogged.trans ((or_congr_right (h.visits user day)).trans ?_)
      constructor
      · rintro (heq | ⟨rfl, hold⟩)
        · cases heq
          exact ⟨rfl, .inr ⟨rfl, rfl⟩⟩
        · exact ⟨rfl, .inl hold⟩
      · rintro ⟨rfl, hold | ⟨-, hnew⟩⟩
        · exact .inr ⟨rfl, hold⟩
        · cases hnew
          exact .inl rfl
    · intro rule
      exact (congrArg (fun prevented => (prevented.lookup rule.name).getD 0) hprevented).trans
        (h.prevented rule)
  cases announce with
  | false => exact hsilent
  | true => exact hsilent.announce (Announcement.tellsFailure_nowPlaying track)

/-- A track that the node refuses is counted and announced. -/
theorem loadFailed_of_refused (h : session.Balanced tally) {track : Track}
    {start : Millis} {stop : Option Millis} {cause : String}
    (hrefused : session.node.refusal? (.play track.audio start stop) = some cause) :
    (((session.perform (.play track.audio start stop)).2.setPlayer
      (·.discard track.id)).loadFailed (some track)).Balanced
      (tally.noted (.toPlay track start stop false)) := by
  have htold := h.told_perform (.play track.audio start stop) (some track)
  rw [hrefused] at htold
  refine {
    told := htold, ofCurrent := h.ofCurrent_noted fun _ => ⟨track, start, stop, rfl, rfl⟩
    started := ?_, failed := ?_, announced := ?_, once := h.once, visits := ?_
    prevented := h.prevented, broken := h.broken }
  · rw [Tally.countP_noted, ← h.started]
    rfl
  · rw [Tally.failures_noted, ← h.failed]
    rfl
  · rw [Tally.failures_noted, ← h.announced, Session.loadFailed, countP_announce,
      Announcement.tellsFailure_loadFailed]
    rfl
  · intro user day
    refine (h.visits user day).trans (and_congr_right fun _ => ?_)
    rw [Tally.mem_listeners_noted]
    simp [Call.accepted, Call.toPlay]

/-- A load that the node reports as failed is counted and announced. -/
theorem loadFailed (h : session.Balanced tally) (track : Option Track) :
    (session.loadFailed track).Balanced { tally with reports := tally.reports + 1 } := by
  refine { h with failed := ?_, announced := ?_ }
  · exact congrArg (· + 1) h.failed
  · rw [Session.loadFailed, countP_announce, Announcement.tellsFailure_loadFailed]
    exact congrArg (· + 1) h.announced

/-- The tracks that the limits refuse are counted. -/
theorem refuse (h : session.Balanced tally) (rules : List (Option LimitRule)) :
    (session.setMetrics fun metrics => ((), rules.foldl Metrics.countRefusal metrics)).2.Balanced
      { tally with refused := tally.refused ++ rules.filter Option.isSome } := by
  obtain ⟨hstarted, hfailed, hvisits⟩ :=
    session.services.metrics.foldl_countRefusal_others rules
  refine { h with
    started := hstarted.trans h.started, failed := hfailed.trans h.failed
    once := ?_, visits := fun user day => ?_, prevented := fun rule => ?_, broken := ?_ }
  · change (rules.foldl Metrics.countRefusal session.services.metrics).visits.Nodup
    exact hvisits ▸ h.once
  · change (user, day) ∈ (rules.foldl Metrics.countRefusal session.services.metrics).visits ↔ _
    exact hvisits ▸ h.visits user day
  · have hcount : (rules.filter Option.isSome).count (some rule) = rules.count (some rule) :=
      List.count_filter rfl
    rw [List.count_append, hcount, ← h.prevented rule]
    exact session.services.metrics.preventedCount_foldl rules rule
  · rw [List.mem_append, not_or]
    exact ⟨h.broken, by simp⟩

/-- On a single day every listener of the day is counted once. -/
theorem listenersOn (h : session.Balanced tally) :
    session.services.metrics.listenersOn session.services.today =
      tally.listeners.dedup.length := by
  have htoday : ∀ visit ∈ session.services.metrics.visits,
      decide (visit.2 = session.services.today) = true := fun visit hvisit =>
    decide_eq_true (h.day_of_visit visit hvisit)
  have hpairs : session.services.metrics.visits.Perm
      (tally.listeners.dedup.map (·, session.services.today)) := by
    refine (List.perm_ext_iff_of_nodup h.once ?_).mpr fun visit => ?_
    · exact tally.listeners.nodup_dedup.map fun _ _ heq => congrArg Prod.fst heq
    · obtain ⟨user, day⟩ := visit
      rw [h.visits]
      simp [and_comm, eq_comm]
  rw [Metrics.listenersOn, List.countP_eq_length.mpr htoday, hpairs.length_eq, List.length_map]

end Balanced

end Session

end Jukebox
