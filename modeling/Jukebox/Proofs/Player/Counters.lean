import Jukebox.Proofs.Player.Tally
import Jukebox.Proofs.Player.Steady

/-!
What the counters count. The plays that the node accepted are the tracks started, the plays that it
refused and the loads that it reported as failed are the failed loads, each announced once, and the
requesters of what was started are the listeners of the day. The limits count the tracks that they
refused, each under the first rule that it breaks. No operation forgets or doubles a count.
-/
namespace Jukebox

namespace Session

/-! ### What operations keep -/

open Operation

def Balancing (reports : Nat) (refused : List (Option LimitRule)) (state : Session × List Call) :
    Prop :=
  state.1.Balanced { calls := state.2, reports, refused }

variable {reports : Nat} {refused : List (Option LimitRule)} {session : Session} {calls : List Call}

/-- Every part of an operation is counted. -/
theorem steady_balancing : Steady (Balancing reports refused) where
  eases := fun _ h => Balanced.of_same h rfl rfl rfl rfl
  tells := fun _ h => Balanced.of_same h rfl rfl rfl rfl
  drifts := fun hlog h => Balanced.of_same h hlog rfl rfl rfl
  asks := fun hplay h => Balanced.perform h hplay _
  accepts := by
    intro session calls track announce hgiven hdone h
    have hloading : Balancing reports refused (session.setPlayer (·.loading track), calls) :=
      Balanced.of_same h rfl rfl rfl rfl
    have hplay : session.node.refusal? (.play track.fromStart.audio track.playStart
        track.endPosition?) = none := hdone
    have hstarted := Balanced.started_of_accepted hloading announce hplay
    exact Balanced.of_same hstarted rfl rfl rfl rfl
  refuses := by
    intro session calls track cause hgiven hrefused h
    have hloading : Balancing reports refused (session.setPlayer (·.loading track), calls) :=
      Balanced.of_same h rfl rfl rfl rfl
    have hplay : session.node.refusal? (.play track.fromStart.audio track.playStart
        track.endPosition?) = some cause := hrefused
    exact Balanced.loadFailed_of_refused hloading hplay

/-! ### Steps -/

/-- How often a step has the node report to a living player that a track could not be loaded. -/
def reportsOf (session : Session) : PlayerStep → Nat
  | .trackEnded .loadFailed => if session.player.destroyed then 0 else 1
  | _ => 0

/-- The tracks that a step is to queue, each with what the limits say about it. Those that they
allow are queued, the others are refused. -/
def weighed (session : Session) : PlayerStep → List (Track × LimitStatus)
  | .member (.enqueue track level) =>
    match (session.weigh track level).1 with
    | .ok status => [(track, status)]
    | .error _ => []
  | .member (.enqueueAll tracks level) =>
    match (session.weighAll tracks level).1 with
    | .ok statuses => tracks.zip statuses
    | .error _ => []
  | _ => []

/-- The first rule that a track breaks when some others are to be queued before it. -/
def brokenRule? (session : Session) (track : Track) (pending : Nat) : Option LimitRule :=
  match session.services.limits with
  | .ok limits => limits.brokenRule? track session.player.counts pending
  | .error _ => none

/-- The first broken rule of each track that a step asks a living player to queue and that is
refused. -/
def refusedBy (session : Session) (step : PlayerStep) : List (Option LimitRule) :=
  if session.player.destroyed then []
  else ((session.weighed step).zipIdx.filter (! ·.1.2.allowed)).map fun entry =>
    session.brokenRule? entry.1.1 entry.2

theorem refusedBy_of_allowed {step : PlayerStep}
    (h : ∀ entry ∈ session.weighed step, entry.2.allowed = true) : session.refusedBy step = [] := by
  have hnone : (session.weighed step).zipIdx.filter (! ·.1.2.allowed) = [] := by
    refine List.filter_eq_nil_iff.mpr fun entry hentry => ?_
    rw [h entry.1 (List.fst_mem_of_mem_zipIdx hentry)]
    exact Bool.false_ne_true
  unfold refusedBy
  rw [hnone]
  exact ite_self _

theorem refusedBy_of_weighed {step : PlayerStep} (h : session.weighed step = []) :
    session.refusedBy step = [] :=
  refusedBy_of_allowed fun _ hentry => absurd (h ▸ hentry) List.not_mem_nil

/-- To the limits, a track is a batch of one. -/
theorem weighAll_single (session : Session) (track : Track) (level : PermissionLevel) :
    session.weighAll [track] level =
      ((session.weigh track level).1.map ([·]), (session.weigh track level).2) := by
  unfold weighAll weigh Admission.checkAll Admission.check
  cases hlevel : level.isElevated with
  | true => rfl
  | false => cases session.services.limits <;> rfl

theorem refused_of_rules (limits : GuildLimits) (counts : TrackCounts) (tracks : List Track)
    (pending : Nat) :
    (((tracks.zip ((limits.brokenRules counts pending tracks).map limits.statusOf)).zipIdx
      pending).filter (! ·.1.2.allowed)).map
        (fun entry => limits.brokenRule? entry.1.1 counts entry.2) =
      (limits.brokenRules counts pending tracks).filter Option.isSome := by
  induction tracks generalizing pending with
  | nil => rfl
  | cons track rest ih =>
    have hrest := ih (pending + 1)
    cases hbroken : limits.brokenRule? track counts pending with
    | none =>
      simpa [GuildLimits.brokenRules, hbroken, GuildLimits.statusOf, LimitStatus.success]
        using hrest
    | some rule =>
      simpa [GuildLimits.brokenRules, hbroken, GuildLimits.statusOf, LimitRule.refusal]
        using hrest

/-- The limits count what they refuse. -/
theorem balancing_weighAll (h : Balancing reports refused (session, calls))
    (halive : session.player.destroyed = false) (tracks : List Track) (level : PermissionLevel) :
    Balancing reports (refused ++ session.refusedBy (.member (.enqueueAll tracks level)))
      ((session.weighAll tracks level).2, calls) := by
  -- elevated members are not weighed, and limits that cannot be had refuse the batch as a whole
  cases hlevel : level.isElevated with
  | true =>
    have hweigh : session.weighAll tracks level =
        (.ok (tracks.map fun _ => LimitStatus.success), session) := by
      simp only [weighAll, setMetrics, Admission.checkAll, hlevel, if_true]
    have hnone : session.refusedBy (.member (.enqueueAll tracks level)) = [] := by
      refine refusedBy_of_allowed fun entry hentry => ?_
      simp only [weighed, hweigh] at hentry
      obtain ⟨-, -, hsuccess⟩ := List.mem_map.mp (List.of_mem_zip hentry).2
      exact hsuccess ▸ rfl
    rw [hnone, hweigh, List.append_nil]
    exact h
  | false =>
    cases hlimits : session.services.limits with
    | error cause =>
      have hweigh : session.weighAll tracks level = (.error cause, session) := by
        unfold weighAll Admission.checkAll
        rw [hlimits, hlevel]
        rfl
      have hnone : session.refusedBy (.member (.enqueueAll tracks level)) = [] :=
        refusedBy_of_weighed (by simp only [weighed, hweigh])
      rw [hnone, hweigh, List.append_nil]
      exact h
    | ok limits =>
      have hweigh : session.weighAll tracks level =
          (.ok ((limits.brokenRules session.player.counts 0 tracks).map limits.statusOf),
            (session.setMetrics fun metrics => ((),
              (limits.brokenRules session.player.counts 0 tracks).foldl Metrics.countRefusal
                metrics)).2) := by
        simp only [weighAll, setMetrics, Admission.checkAll, hlevel, hlimits, Bool.false_eq_true,
          if_false]
      have hrefused : session.refusedBy (.member (.enqueueAll tracks level)) =
          (limits.brokenRules session.player.counts 0 tracks).filter Option.isSome := by
        simp only [refusedBy, weighed, hweigh, halive, brokenRule?, hlimits]
        exact refused_of_rules limits session.player.counts tracks 0
      rw [hrefused, hweigh]
      exact Balanced.refuse h _

theorem balancing_enqueueAll (h : Balancing reports refused (session, calls))
    (tracks : List Track) (level : PermissionLevel) :
    Balancing reports (refused ++ session.refusedBy (.member (.enqueueAll tracks level)))
      ((enqueueAll tracks level).noting (session, calls)).2 := by
  refine steady_balancing.enqueueAll (fun hdestroyed => ?_)
    (fun halive => balancing_weighAll h halive tracks level) fun halive accepted _ => ?_
  · rw [refusedBy, hdestroyed, if_pos rfl, List.append_nil]
    exact h
  · exact Balanced.of_same (balancing_weighAll h halive tracks level) rfl rfl rfl rfl

theorem balancing_enqueue (h : Balancing reports refused (session, calls)) (track : Track)
    (level : PermissionLevel) :
    Balancing reports (refused ++ session.refusedBy (.member (.enqueue track level)))
      ((enqueue track level).noting (session, calls)).2 := by
  have hsingle : session.refusedBy (.member (.enqueue track level)) =
      session.refusedBy (.member (.enqueueAll [track] level)) := by
    simp only [refusedBy, weighed, weighAll_single]
    cases (session.weigh track level).1 <;> rfl
  have hweighed (halive : session.player.destroyed = false) := by
    have hbatch := balancing_weighAll h halive [track] level
    rwa [weighAll_single, ← hsingle] at hbatch
  refine steady_balancing.enqueue (fun hdestroyed => ?_) hweighed fun halive => ?_
  · rw [refusedBy, hdestroyed, if_pos rfl, List.append_nil]
    exact h
  · exact Balanced.of_same (hweighed halive) rfl rfl rfl rfl

theorem balancing_loadFailed (h : Balancing reports refused (session, calls)) :
    Balancing (reports + session.reportsOf (.trackEnded .loadFailed)) refused
      ((trackEnded .loadFailed).noting (session, calls)).2 := by
  refine steady_balancing.loadFailed (fun hdestroyed => ?_) fun halive => ?_
  · rw [reportsOf, if_pos hdestroyed]
    exact h
  · have hgivenUp : Balancing reports refused ((session.withPlayer Player.fail).2, calls) :=
      Balanced.of_same h rfl rfl rfl rfl
    rw [reportsOf, if_neg (Bool.eq_false_iff.mp halive)]
    exact Balanced.loadFailed hgivenUp (session.withPlayer Player.fail).1

/-- A step counts what there is to count in it, and nothing else. -/
theorem balancing_step (h : Balancing reports refused (session, calls)) (step : PlayerStep) :
    Balancing (reports + session.reportsOf step) (refused ++ session.refusedBy step)
      (step.operation.noting (session, calls)).2 := by
  -- only queueing and the report of a failed load add something besides calls
  have hplain (hkept : Balancing reports refused (step.operation.noting (session, calls)).2)
      (hreports : session.reportsOf step = 0) (hweighed : session.weighed step = []) :
      Balancing (reports + session.reportsOf step) (refused ++ session.refusedBy step)
        (step.operation.noting (session, calls)).2 := by
    rwa [hreports, refusedBy_of_weighed hweighed, List.append_nil]
  rcases step.bringing_cases with
    ⟨hbrings, hreport⟩ | rfl | ⟨track, level, rfl⟩ | ⟨tracks, level, rfl⟩ |
      ⟨snapshot, volumeSupported, rfl⟩
  · refine hplain (steady_balancing.step hbrings hreport _ h) ?_ ?_
    · unfold reportsOf
      split
      · exact absurd rfl hreport
      · rfl
    · unfold weighed
      split <;> first | cases hbrings | rfl
  · rw [refusedBy_of_weighed rfl, List.append_nil]
    exact keeps_ignoring (balancing_loadFailed h)
  · exact keeps_ignoring (balancing_enqueue h track level)
  · exact keeps_ignoring (balancing_enqueueAll h tracks level)
  · have htaken : Balancing reports refused
        ((takeOver snapshot volumeSupported session).2, calls) :=
      Balanced.of_same h rfl rfl rfl rfl
    exact hplain (keeps_ignoring (steady_balancing.restore htaken)) rfl rfl

/-! ### Runs -/

def underLimits (session : Session) (limits : LimitsAnswer) : Session :=
  { session with services := { session.services with limits } }

def recordStep (state : Session × Tally) (entry : LimitsAnswer × PlayerStep) : Session × Tally :=
  let session := state.1.underLimits entry.1
  (session.after entry.2,
    { calls := (entry.2.operation.noting (session, state.2.calls)).2.2
      reports := state.2.reports + session.reportsOf entry.2
      refused := state.2.refused ++ session.refusedBy entry.2 })

/-- A step that is watched is the same step. -/
theorem recordStep_noting (state : Session × Tally) (entry : LimitsAnswer × PlayerStep) :
    (entry.2.operation.noting (state.1.underLimits entry.1, state.2.calls)).2 =
      ((recordStep state entry).1, (recordStep state entry).2.calls) :=
  Prod.ext (Flow.runWith_performNoting _ _).2 rfl

def keepTally (session : Session) (entries : List (LimitsAnswer × PlayerStep)) :
    Session × Tally := entries.foldl recordStep (session, {})

/-- A player at its start, with a node that was asked nothing and with nothing counted or
announced. -/
def debut (session : Session) (dice : Dice) (volume : Single) : Session :=
  { session.opening dice volume with
    node := { session.node with log := [] }
    services := { session.services with metrics := {}, announcements := [] } }

theorem balanced_debut (session : Session) (dice : Dice) (volume : Single) :
    (session.debut dice volume).Balanced {} where
  told := rfl
  ofCurrent := by simp
  started := rfl
  failed := rfl
  announced := rfl
  once := List.nodup_nil
  visits := by simp [debut, Tally.listeners]
  prevented := fun _ => rfl
  broken := by simp

theorem balanced_recordStep {tally : Tally} (h : session.Balanced tally)
    (entry : LimitsAnswer × PlayerStep) :
    (recordStep (session, tally) entry).1.Balanced (recordStep (session, tally) entry).2 := by
  have hunder : Balancing tally.reports tally.refused
      (session.underLimits entry.1, tally.calls) := h.of_same rfl rfl rfl rfl
  have hstep : (entry.2.operation.noting (session.underLimits entry.1, tally.calls)).2.1.Balanced
      (recordStep (session, tally) entry).2 := balancing_step hunder entry.2
  rwa [recordStep_noting (session, tally) entry] at hstep

theorem balanced_foldl_recordStep {tally : Tally} (h : session.Balanced tally)
    (entries : List (LimitsAnswer × PlayerStep)) :
    (entries.foldl recordStep (session, tally)).1.Balanced
      (entries.foldl recordStep (session, tally)).2 := by
  induction entries generalizing session tally with
  | nil => exact h
  | cons entry rest ih => exact ih (balanced_recordStep h entry)

structure Counted (session : Session) (tally : Tally) : Prop where
  /-- The calls are what the node was asked. -/
  told : session.node.log = tally.calls.map (·.asked)
  /-- Every play is a play of the track that was current. -/
  ofCurrent : ∀ call ∈ tally.calls, call.isPlay = true → ∃ track start stop,
    call.current = some track ∧ call.asked.command = .play track.audio start stop
  started : session.services.metrics.tracksStarted = tally.calls.countP (·.accepted)
  failed : session.services.metrics.loadFailures =
    tally.calls.countP (·.rejected) + tally.reports
  announced : session.services.announcements.countP (Announcement.tellsFailure ·.2) =
    session.services.metrics.loadFailures
  listeners : session.services.metrics.listenersOn session.services.today =
    tally.listeners.dedup.length
  prevented : ∀ rule : LimitRule,
    session.services.metrics.preventedCount rule.name = tally.refused.count (some rule)
  preventedInAll : (LimitRule.chain.map fun rule =>
    session.services.metrics.preventedCount rule.name).sum = tally.refused.length

/-- Whatever a player goes through on one day, no count is forgotten or doubled. -/
theorem counted_keepTally (session : Session) (dice : Dice) (volume : Single)
    (entries : List (LimitsAnswer × PlayerStep)) :
    ((session.debut dice volume).keepTally entries).1.Counted
      ((session.debut dice volume).keepTally entries).2 := by
  have h := balanced_foldl_recordStep (session.balanced_debut dice volume) entries
  have hsum := LimitRule.sum_count_chain h.broken
  exact {
    told := h.told, ofCurrent := h.ofCurrent, started := h.started, failed := h.failed
    announced := h.announced.trans h.failed.symm, listeners := h.listenersOn
    prevented := h.prevented
    preventedInAll := by
      refine Eq.trans (congrArg List.sum (List.map_congr_left fun rule _ => ?_)) hsum
      exact h.prevented rule }

/-- The third track of the batch is one too many, the node refuses the first, and it reports that it
could not load the second. -/
example : (({ sampleSession with node := {
    outages := fun place _ => if place = 0 then some "gone" else none } }.debut (.ofSeed 1)
      maxVolume).keepTally [
        (.ok { maxTracks := some 2 }, .member (.enqueueAll [sampleTrack 1 firstUser false,
          sampleTrack 2 secondUser false, sampleTrack 3 firstUser false] .user)),
        (.ok {}, .trackEnded .loadFailed)]).1.services.metrics =
      { prevented := [("TrackLimit", 1)], tracksStarted := 1, loadFailures := 2
        visits := [(secondUser, 0)] } := by decide

end Session

end Jukebox
