import Jukebox.Proofs.Player.Stage
import Jukebox.Proofs.Queue.Run

/-!
Stale notices. A notice does not say whose end it tells, and the player takes it for the end of
what it loaded last. So a play that is asked for while something earlier is outstanding gives the
node the means to go wrong, and nothing else does.
-/
namespace Jukebox

def Player.filing (history : List Track) : Option Track → List Track
  | none => history
  | some track => (history ++ [track]).drop ((history ++ [track]).length - historyLimit)

theorem Player.finish_history (player : Player) :
    player.finish.history = Player.filing player.history player.lastLoaded := by
  unfold Player.finish
  cases player.lastLoaded <;> rfl

theorem Flow.of_asksToPlay {α : Type} {flow : Flow α} (h : flow.asksToPlay = true) :
    ∃ session audio start stop resume,
      flow = .waiting session (.play audio start stop) resume := by
  cases flow with
  | ended session outcome => cases h
  | waiting session command resume =>
    cases command with
    | play audio start stop => exact ⟨session, audio, start, stop, resume, rfl⟩
    | stop | pause | seek | volume | connect | destroy => cases h

namespace Stage

def filed (stage : Stage) : StageEvent → Option Track
  | .notice =>
    match stage.notices with
    | (_, .finished) :: _ | (_, .stopped) :: _ =>
      if stage.session.player.destroyed then none else stage.session.player.lastLoaded
    | _ => none
  | _ => none

/-- What the node holds and would give up for the play that it accepts in an event. -/
def displaced (stage : Stage) : StageEvent → Option Load
  | .decide place (.ok ()) =>
    match stage.waits[place]? with
    | some wait => wait.openLoad?.bind fun _ => stage.deck
    | none => none
  | _ => none

structure Rightful (stage : Stage) (event : StageEvent) : Prop where
  history : (stage.step event).session.player.history =
    Player.filing stage.session.player.history (stage.filed event)
  /-- A track gets into the history only when its own notice reaches the player. -/
  own : ∀ track, stage.filed event = some track → event = .notice ∧ ∃ reason rest,
    stage.notices = (.of track, reason) :: rest ∧ (reason = .finished ∨ reason = .stopped)
  /-- What the node holds does not get there. -/
  spared : ∀ track, stage.filed event = some track → stage.deck ≠ some (.of track)
  /-- Nor does another play take its place. -/
  kept : stage.displaced event = none

theorem filed_notice {stage : Stage} (halive : stage.session.player.destroyed = false)
    {load : Load} {reason : EndReason} {rest : List (Load × EndReason)}
    (hnotices : stage.notices = (load, reason) :: rest)
    (hreason : reason = .finished ∨ reason = .stopped) :
    stage.filed .notice = stage.session.player.lastLoaded := by
  rcases hreason with rfl | rfl
  · simp only [filed, hnotices, halive, Bool.false_eq_true, if_false]
  · simp only [filed, hnotices, halive, Bool.false_eq_true, if_false]

theorem filed_eq_none {stage : Stage} {event : StageEvent} (hevent : event ≠ .notice) :
    stage.filed event = none := by
  cases event with
  | notice => exact absurd rfl hevent
  | request | decide | answered | trackEnds => rfl

theorem history_goOn {before : Player} {flow : Flow Unit} (h : flow.Orderly before)
    (stage : Stage) : (stage.goOn flow).session.player.history = before.history := by
  cases flow with
  | ended session outcome => exact h.history
  | waiting session command resume =>
    cases command with
    | play audio start stop =>
      obtain ⟨track, hchooses, -⟩ := h.1
      exact hchooses.history
    | stop | pause | seek | volume | connect | destroy => exact h.1.history

theorem step_decide (stage : Stage) (place : Nat) (answer : Answer) :
    stage.step (.decide place answer) = stage.decide place answer := rfl

theorem player_decide (stage : Stage) (place : Nat) (answer : Answer) :
    (stage.decide place answer).session.player = stage.session.player := by
  rcases decide_cases stage place answer with heq | ⟨wait, -, -, ⟨-, heq⟩ | heq⟩
  · rw [heq]
  · rw [heq, carryOut_session]
    rfl
  · rw [heq]
    rfl

namespace Steady

variable {stage : Stage} {event : StageEvent}

theorem history_step (h : stage.Steady) (event : StageEvent) :
    (stage.step event).session.player.history =
      Player.filing stage.session.player.history (stage.filed event) := by
  cases hmove : stage.move event with
  | mk moved going =>
    cases going with
    | none =>
      have hfiled : stage.filed event = none := by
        by_cases hevent : event = .notice
        · subst hevent
          cases hnotices : stage.notices with
          | nil => simp only [filed, hnotices]
          | cons notice rest => simp [Stage.move, hnotices] at hmove
        · exact filed_eq_none hevent
      rw [step_of_none hmove, hfiled]
      rcases stage.move_cases hmove with rfl | ⟨place, answer, rfl⟩ | rfl
      · rfl
      · rw [player_decide]
        rfl
      · rfl
    | some flow =>
      obtain ⟨-, horderly⟩ := h.move hmove
      rw [step_of_flow hmove, history_goOn horderly]
      by_cases hevent : event = .notice
      · subst hevent
        cases hnotices : stage.notices with
        | nil => simp [Stage.move, hnotices] at hmove
        | cons notice rest =>
          have hreason := h.ends notice (hnotices ▸ List.mem_cons_self)
          rw [filed_notice h.alive hnotices hreason]
          exact Player.finish_history stage.session.player
      · rw [filed_eq_none hevent]
        cases event with
        | notice => exact absurd rfl hevent
        | request | decide | answered | trackEnds => rfl

/-- A notice under way is all that is outstanding. -/
theorem outstanding_rest (h : stage.Steady) {notice : Load × EndReason}
    {rest : List (Load × EndReason)} (hnotices : stage.notices = notice :: rest) :
    { stage with notices := rest }.outstanding = [] := by
  have hone := h.at_most_one
  rw [outstanding, hnotices] at hone
  simp only [List.length_append, List.map_cons, List.length_cons] at hone
  apply List.eq_nil_of_length_eq_zero
  simp only [outstanding, List.length_append]
  omega

theorem deck_of_notices (h : stage.Steady) {notice : Load × EndReason}
    {rest : List (Load × EndReason)} (hnotices : stage.notices = notice :: rest) :
    stage.deck = none := by
  have hrest := h.outstanding_rest hnotices
  rw [outstanding, List.append_eq_nil_iff, List.append_eq_nil_iff] at hrest
  simpa using hrest.2.1

/-- What the player loaded last is what the notice that it hears is about. -/
theorem own_of_filed (h : stage.Steady) {track : Track} (hfiled : stage.filed event = some track) :
    event = .notice ∧ ∃ reason rest,
      stage.notices = (.of track, reason) :: rest ∧ (reason = .finished ∨ reason = .stopped) := by
  by_cases hevent : event = .notice
  · subst hevent
    refine ⟨rfl, ?_⟩
    cases hnotices : stage.notices with
    | nil => simp [filed, hnotices] at hfiled
    | cons notice rest =>
      obtain ⟨load, reason⟩ := notice
      have hreason := h.ends (load, reason) (hnotices ▸ List.mem_cons_self)
      rw [filed_notice h.alive hnotices hreason] at hfiled
      have hload : load = .of track := by
        apply h.last_loaded load _ track hfiled
        simp [outstanding, hnotices]
      exact ⟨reason, rest, by rw [hload], hreason⟩
  · rw [filed_eq_none hevent] at hfiled
    cases hfiled

theorem displaced_eq_none (h : stage.Steady) (event : StageEvent) :
    stage.displaced event = none := by
  unfold displaced
  split
  · next place =>
    split
    · next wait hwait =>
      cases hload : wait.openLoad? with
      | none => rfl
      | some load =>
        obtain ⟨hopen, hasked⟩ := Wait.openLoad?_eq_some_iff.mp hload
        exact (h.free_of_open hwait hopen hasked).1
    · rfl
  · rfl

/-- On a steady stage every event treats the tracks as it should. -/
theorem rightful (h : stage.Steady) (event : StageEvent) : stage.Rightful event where
  history := h.history_step event
  own := fun _ hfiled => h.own_of_filed hfiled
  spared := by
    intro track hfiled hheld
    obtain ⟨-, reason, rest, hnotices, -⟩ := h.own_of_filed hfiled
    rw [h.deck_of_notices hnotices] at hheld
    cases hheld
  kept := h.displaced_eq_none event

/-- What the node does alone is calm on a steady stage. -/
theorem calm_of_isNodes (h : stage.Steady) (hnodes : event.isNodes = true) :
    stage.Calm event := by
  intro flow hflow _
  cases event with
  | request | answered => cases hnodes
  | decide | trackEnds => cases hflow
  | notice =>
    cases hnotices : stage.notices with
    | nil => simp [Stage.move, hnotices] at hflow
    | cons notice rest =>
      simp only [Stage.move, hnotices]
      exact h.outstanding_rest hnotices

theorem foldl_step (h : stage.Steady) {events : List StageEvent}
    (hcalm : Throughout Calm stage events) : (events.foldl Stage.step stage).Steady := by
  induction events generalizing stage with
  | nil => exact h
  | cons event rest ih => exact ih (h.step hcalm.1) hcalm.2

theorem throughout_rightful (h : stage.Steady) {events : List StageEvent}
    (hcalm : Throughout Calm stage events) : Throughout Rightful stage events := by
  induction events generalizing stage with
  | nil => trivial
  | cons event rest ih =>
    obtain ⟨hnow, hlater⟩ := hcalm
    exact ⟨h.rightful event, ih (h.step hnow) hlater⟩

end Steady

/-! ### How a play that is asked for too early goes wrong -/

section TooEarly

variable {stage : Stage} {place : Nat} {wait : Wait} {load : Load}

theorem displaced_of_open (hwait : stage.waits[place]? = some wait)
    (hload : wait.openLoad? = some load) :
    stage.displaced (.decide place (.ok ())) = stage.deck := by
  simp only [displaced, hwait, hload, Option.bind_some]

theorem not_rightful_of_deck (hwait : stage.waits[place]? = some wait)
    (hload : wait.openLoad? = some load) {held : Load} (hdeck : stage.deck = some held) :
    ¬ stage.Rightful (.decide place (.ok ())) := by
  intro hright
  have hkept := hright.kept
  rw [displaced_of_open hwait hload, hdeck] at hkept
  cases hkept

/-- A play that a free node accepts. -/
theorem decide_play (hwait : stage.waits[place]? = some wait)
    (hload : wait.openLoad? = some load) (hdeck : stage.deck = none) :
    (stage.decide place (.ok ())).deck = some load ∧
      (stage.decide place (.ok ())).notices = stage.notices ∧
      (stage.decide place (.ok ())).waits =
        stage.waits.set place { wait with answer := some (.ok ()) } := by
  obtain ⟨hopen, hasked⟩ := Wait.openLoad?_eq_some_iff.mp hload
  have heq : stage.decide place (.ok ()) = (stage.note place wait (.ok ())).carryOut wait := by
    simp [decide, hwait, hopen]
  rw [heq]
  cases hcommand : wait.command with
  | play audio start stop =>
    have hsame : load = ⟨audio, wait.current⟩ := by simpa [Wait.load?, hcommand] using hasked.symm
    simp [carryOut, hcommand, letGo, note, hdeck, hsame]
  | stop | pause | seek | volume | connect | destroy => simp [Wait.load?, hcommand] at hasked

/-- Two plays that wait for the node: it accepts one after the other. -/
theorem not_rightful_of_waits {other : Nat} {earlier : Wait} {first : Load}
    (hwait : stage.waits[place]? = some wait) (hload : wait.openLoad? = some load)
    (hearlier : stage.waits[other]? = some earlier) (hfirst : earlier.openLoad? = some first)
    (hne : other ≠ place) (hdeck : stage.deck = none) :
    ¬ Throughout Rightful stage [.decide other (.ok ()), .decide place (.ok ())] := by
  rintro ⟨-, hright, -⟩
  obtain ⟨hheld, -, hwaits⟩ := decide_play hearlier hfirst hdeck
  rw [step_decide] at hright
  refine not_rightful_of_deck ?_ hload hheld hright
  rw [hwaits, List.getElem?_set_ne hne]
  exact hwait

/-- A play that is accepted before an older notice comes in, which is then taken for its own. -/
theorem not_rightful_of_notice {track : Track} {older : Load} {reason : EndReason}
    {rest : List (Load × EndReason)} (hwait : stage.waits[place]? = some wait)
    (hload : wait.openLoad? = some (.of track)) (hdeck : stage.deck = none)
    (hnotices : stage.notices = (older, reason) :: rest)
    (hreason : reason = .finished ∨ reason = .stopped)
    (halive : stage.session.player.destroyed = false)
    (hlast : stage.session.player.lastLoaded = some track) :
    ¬ Throughout Rightful stage [.decide place (.ok ()), .notice] := by
  rintro ⟨-, hright, -⟩
  obtain ⟨hheld, hsame, -⟩ := decide_play hwait hload hdeck
  rw [step_decide] at hright
  have hplayer := player_decide stage place (.ok ())
  have hfiled : (stage.decide place (.ok ())).filed .notice = some track := by
    rw [filed_notice (hplayer ▸ halive) (hsame.trans hnotices) hreason, hplayer, hlast]
  exact hright.spared track hfiled hheld

theorem waits_goOn (stage : Stage) (session : Session) (command : Command)
    (resume : Answer → Session → Flow Unit) :
    (stage.goOn (.waiting session command resume)).waits[stage.waits.length]? =
      some { command, current := session.player.current, resume } := by
  simp [goOn]

/-- With something outstanding, the node can make a mistake out of a play that is asked for. -/
theorem not_rightful_after_play {before session : Session}
    (hsteady : { stage with session := before }.Steady) {track : Track}
    (hchooses : before.player.Chooses track session.player) (hbusy : stage.outstanding ≠ [])
    (start : Millis) (stop : Option Millis) (resume : Answer → Session → Flow Unit) :
    ∃ more : List StageEvent, (∀ later ∈ more, later.isNodes = true) ∧
      ¬ Throughout Rightful
        (stage.goOn (.waiting session (.play track.audio start stop) resume)) more := by
  have hwait := waits_goOn stage session (.play track.audio start stop) resume
  rw [hchooses.current] at hwait
  have hload : Wait.openLoad? ⟨.play track.audio start stop, some track, resume, none⟩ =
      some (.of track) := rfl
  cases hdeck : stage.deck with
  | some held =>
    refine ⟨[.decide stage.waits.length (.ok ())], by simp [StageEvent.isNodes], ?_⟩
    rintro ⟨hright, -⟩
    exact not_rightful_of_deck hwait hload hdeck hright
  | none =>
    cases hnotices : stage.notices with
    | cons notice rest =>
      have hreason := hsteady.ends notice (hnotices ▸ List.mem_cons_self)
      refine ⟨[.decide stage.waits.length (.ok ()), .notice], by simp [StageEvent.isNodes], ?_⟩
      exact not_rightful_of_notice hwait hload hdeck hnotices hreason
        (hchooses.destroyed.trans hsteady.alive) hchooses.lastLoaded
    | nil =>
      have hopen : stage.waits.filterMap Wait.openLoad? ≠ [] := by
        simpa [outstanding, hdeck, hnotices] using hbusy
      obtain ⟨first, hmem⟩ := List.exists_mem_of_ne_nil _ hopen
      obtain ⟨earlier, hearlier, hfirst⟩ := List.mem_filterMap.mp hmem
      obtain ⟨other, hlt, hget⟩ := List.getElem_of_mem hearlier
      have hother : stage.waits[other]? = some earlier :=
        List.getElem?_eq_some_iff.mpr ⟨hlt, hget⟩
      refine ⟨[.decide other (.ok ()), .decide stage.waits.length (.ok ())],
        by simp [StageEvent.isNodes], ?_⟩
      exact not_rightful_of_waits hwait hload ((List.getElem?_append_left hlt).trans hother) hfirst
        (Nat.ne_of_lt hlt) hdeck

end TooEarly

/-- After a play that was asked for too early, the node alone can make something go wrong. -/
theorem Steady.not_rightful_of_not_calm {stage : Stage} (h : stage.Steady) {event : StageEvent}
    (hloud : ¬ stage.Calm event) : ∃ more : List StageEvent,
      (∀ later ∈ more, later.isNodes = true) ∧
      ¬ Throughout Rightful (stage.step event) more := by
  unfold Calm at hloud
  push Not at hloud
  obtain ⟨flow, hflow, hasks, hbusy⟩ := hloud
  have hmove : stage.move event = ((stage.move event).1, some flow) := Prod.ext rfl hflow
  obtain ⟨hsteady, horderly⟩ := h.move hmove
  rw [step_of_flow hmove]
  obtain ⟨session, audio, start, stop, resume, rfl⟩ := Flow.of_asksToPlay hasks
  obtain ⟨⟨track, hchooses, rfl⟩, -⟩ := horderly
  exact not_rightful_after_play hsteady hchooses hbusy start stop resume

/-! ### Whole runs -/

theorem throughout_calm_of_rightful {stage : Stage} (h : stage.Steady) {events : List StageEvent}
    (hright : ∀ heard more : List StageEvent, heard <+: events →
      (∀ event ∈ more, event.isNodes = true) → Throughout Rightful stage (heard ++ more)) :
    Throughout Calm stage events := by
  induction events generalizing stage with
  | nil => trivial
  | cons event rest ih =>
    have hcalm : stage.Calm event := by
      by_contra hloud
      obtain ⟨more, hnodes, hwrong⟩ := h.not_rightful_of_not_calm hloud
      have hrun := hright [event] more ⟨rest, rfl⟩ hnodes
      exact hwrong hrun.2
    refine ⟨hcalm, ih (h.step hcalm) ?_⟩
    intro heard more hprefix hnodes
    exact (hright (event :: heard) more (List.cons_prefix_cons.mpr ⟨rfl, hprefix⟩) hnodes).2

theorem throughout_calm_of_nodes {stage : Stage} (h : stage.Steady) {events : List StageEvent}
    (hnodes : ∀ event ∈ events, event.isNodes = true) : Throughout Calm stage events := by
  induction events generalizing stage with
  | nil => trivial
  | cons event rest ih =>
    have hcalm := h.calm_of_isNodes (hnodes event List.mem_cons_self)
    refine ⟨hcalm, ih (h.step hcalm) ?_⟩
    intro later hlater
    exact hnodes later (List.mem_cons_of_mem event hlater)

/-- Whatever the node does after any part of a run, all tracks are treated as they should be,
exactly if no play was ever asked for while something earlier was outstanding. -/
theorem throughout_calm_iff_rightful (session : Session) (dice : Dice) (volume : Single)
    (events : List StageEvent) :
    Throughout Calm (opening session dice volume) events ↔
      ∀ heard more : List StageEvent, heard <+: events →
        (∀ event ∈ more, event.isNodes = true) →
        Throughout Rightful (opening session dice volume) (heard ++ more) := by
  have hopening := steady_opening session dice volume
  constructor
  · rintro hcalm heard more ⟨later, rfl⟩ hnodes
    have hheard := (throughout_append.mp hcalm).1
    have hsteady := hopening.foldl_step hheard
    have hmore := throughout_calm_of_nodes hsteady hnodes
    exact hopening.throughout_rightful (throughout_append.mpr ⟨hheard, hmore⟩)
  · exact throughout_calm_of_rightful hopening

def queuedAfterSkip : List StageEvent :=
  [.request (.enqueue (sampleTrack 1 firstUser false) .user), .decide 0 (.ok ()), .answered 0,
    .request .skip, .decide 0 (.ok ()), .answered 0,
    .request (.enqueue (sampleTrack 2 secondUser false) .user), .decide 0 (.ok ()), .answered 0]

/-- The notice of the first track moves the second to the history while the node plays it. -/
theorem stale_notice_files_playing_track :
    ¬ Throughout Rightful (opening sampleSession (.ofSeed 1) maxVolume)
      (queuedAfterSkip ++ [.notice]) := by
  intro hright
  obtain ⟨hnotice, -⟩ := (throughout_append.mp hright).2
  have hspared := hnotice.spared (sampleTrack 2 secondUser false) (by decide)
  exact hspared (by decide)

end Stage

end Jukebox
