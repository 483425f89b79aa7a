import Jukebox.Proofs.Player.Segments
import Mathlib.Data.List.Perm.Subperm

/-!
A player on stage with the node. Members start operations at any time, also while others wait for
the node; the node decides about what it was asked, and its answer reaches the operation at some
later time. The node holds one track at most. When it lets go of one, by a stop, by another play or
at the end of the track, it sends one notice, and the notices reach the player in the order in which
they were sent, however late. What an operation does between two waits is not interrupted.
-/
namespace Jukebox

inductive Request
  | enqueue (track : Track) (level : PermissionLevel)
  | enqueueAll (tracks : List Track) (level : PermissionLevel)
  | skip
  | skipTracks (ids : List TrackId)
  | skipTracksFor (user : UserId) (level : PermissionLevel) (ids : List TrackId)
  | stop
  | setPaused (paused : Bool)
  | seek (position : Millis)
  | setVolume (volume : Single)
  | setRepeat (mode : RepeatMode)
  | setShuffle (on : Bool)
  | setRoundRobin (on : Bool)
  | reshuffle
  | join (channel : ChannelId)

def Request.operation : Request → Operation Unit
  | .enqueue track level => (Session.enqueue track level).ignoring
  | .enqueueAll tracks level => (Session.enqueueAll tracks level).ignoring
  | .skip => Session.skip.ignoring
  | .skipTracks ids => (Session.skipTracks ids).ignoring
  | .skipTracksFor user level ids => (Session.skipTracksFor user level ids).ignoring
  | .stop => Session.stop.ignoring
  | .setPaused paused => (Session.setPaused paused).ignoring
  | .seek position => (Session.seek position).ignoring
  | .setVolume volume => (Session.setVolume volume).ignoring
  | .setRepeat mode => (Session.setRepeat mode).ignoring
  | .setShuffle on => (Session.setShuffle on).ignoring
  | .setRoundRobin on => (Session.setRoundRobin on).ignoring
  | .reshuffle => Session.reshuffle.ignoring
  | .join channel => (Session.join channel).ignoring

/-- What the node was asked to play, and the track that was current when it was asked. -/
structure Load where
  audio : Audio
  track : Option Track
deriving DecidableEq

def Load.of (track : Track) : Load := ⟨track.audio, some track⟩

structure Wait where
  command : Command
  /-- The track that was current when the node was asked. -/
  current : Option Track
  resume : Answer → Session → Flow Unit
  /-- What the node has decided. -/
  answer : Option Answer := none

namespace Wait

def load? (wait : Wait) : Option Load :=
  match wait.command with
  | .play audio _ _ => some ⟨audio, wait.current⟩
  | _ => none

def openLoad? (wait : Wait) : Option Load := if wait.answer.isNone then wait.load? else none

theorem openLoad?_eq_some_iff {wait : Wait} {load : Load} :
    wait.openLoad? = some load ↔ wait.answer = none ∧ wait.load? = some load := by
  cases hanswer : wait.answer <;> simp [openLoad?, hanswer]

end Wait

structure Stage where
  session : Session
  waits : List Wait := []
  /-- What the node holds. -/
  deck : Option Load := none
  /-- What the node has sent and the player has not had yet, oldest first. -/
  notices : List (Load × EndReason) := []

inductive StageEvent
  /-- A member starts an operation. -/
  | request (request : Request)
  /-- The node carries out what the wait at a place is for, or refuses it. -/
  | decide (place : Nat) (answer : Answer)
  /-- The node's answer reaches the operation that waits at a place. -/
  | answered (place : Nat)
  /-- The track that the node holds ends. -/
  | trackEnds
  /-- The oldest notice reaches the player. -/
  | notice

def StageEvent.isNodes : StageEvent → Bool
  | .decide _ _ => true
  | .trackEnds => true
  | .notice => true
  | _ => false

def Flow.asksToPlay {α : Type} : Flow α → Bool
  | .ended _ _ => false
  | .waiting _ command _ => command.kind = .play

namespace Stage

def opening (session : Session) (dice : Dice) (volume : Single) : Stage where
  session := { session with player := .fresh dice volume }

def letGo (stage : Stage) (reason : EndReason) : Stage :=
  { stage with
    deck := none
    notices := stage.notices ++ (stage.deck.map (·, reason)).toList }

def carryOut (stage : Stage) (wait : Wait) : Stage :=
  match wait.command with
  | .play audio _ _ => { stage.letGo .replaced with deck := some ⟨audio, wait.current⟩ }
  | .stop => stage.letGo .stopped
  | _ => stage

def note (stage : Stage) (place : Nat) (wait : Wait) (answer : Answer) : Stage :=
  let node := match answer with
    | .ok () => (stage.session.node.carryOut wait.command).record wait.command true
    | .error _ => stage.session.node.record wait.command false
  { stage with
    session := { stage.session with node }
    waits := stage.waits.set place { wait with answer := some answer } }

def decide (stage : Stage) (place : Nat) (answer : Answer) : Stage :=
  match stage.waits[place]? with
  | none => stage
  | some wait =>
    if wait.answer.isSome then stage
    else
      match answer with
      | .ok () => (stage.note place wait answer).carryOut wait
      | .error _ => stage.note place wait answer

/-- What an event does before an operation goes on, and the flow that then goes on, if any. An
event that cannot happen does nothing. -/
def move (stage : Stage) : StageEvent → Stage × Option (Flow Unit)
  | .request request => (stage, some (request.operation stage.session))
  | .decide place answer => (stage.decide place answer, none)
  | .answered place =>
    match stage.waits[place]? with
    | none => (stage, none)
    | some wait =>
      match wait.answer with
      | none => (stage, none)
      | some answer =>
        ({ stage with waits := stage.waits.eraseIdx place },
          some (wait.resume answer stage.session))
  | .trackEnds => (stage.letGo .finished, none)
  | .notice =>
    match stage.notices with
    | [] => (stage, none)
    | (_, reason) :: rest =>
      ({ stage with notices := rest },
        some ((Session.trackEnded reason).ignoring stage.session))

def goOn (stage : Stage) : Flow Unit → Stage
  | .ended session _ => { stage with session }
  | .waiting session command resume =>
    { stage with
      session
      waits := stage.waits ++ [{ command, current := session.player.current, resume }] }

def step (stage : Stage) (event : StageEvent) : Stage :=
  match stage.move event with
  | (stage, none) => stage
  | (stage, some flow) => stage.goOn flow

theorem step_of_flow {stage moved : Stage} {event : StageEvent} {flow : Flow Unit}
    (hmove : stage.move event = (moved, some flow)) : stage.step event = moved.goOn flow := by
  simp only [step, hmove]

theorem step_of_none {stage moved : Stage} {event : StageEvent}
    (hmove : stage.move event = (moved, none)) : stage.step event = moved := by
  simp only [step, hmove]

def Throughout (holds : Stage → StageEvent → Prop) : Stage → List StageEvent → Prop
  | _, [] => True
  | stage, event :: rest => holds stage event ∧ Throughout holds (stage.step event) rest

theorem throughout_append {holds : Stage → StageEvent → Prop} {stage : Stage}
    {first second : List StageEvent} : Throughout holds stage (first ++ second) ↔
      Throughout holds stage first ∧ Throughout holds (first.foldl step stage) second := by
  induction first generalizing stage with
  | nil => simp [Throughout]
  | cons event rest ih => simp only [List.cons_append, Throughout, List.foldl_cons, ih, and_assoc]

/-- The loads that the node has yet to decide about, the one it holds, and those whose end the
player does not know of. -/
def outstanding (stage : Stage) : List Load :=
  stage.waits.filterMap Wait.openLoad? ++ (stage.deck.toList ++ stage.notices.map (·.1))

/-- If an event makes an operation ask for a play, nothing is outstanding at that time. -/
def Calm (stage : Stage) (event : StageEvent) : Prop :=
  ∀ flow, (stage.move event).2 = some flow → flow.asksToPlay = true →
    (stage.move event).1.outstanding = []

/-! ### What is outstanding -/

theorem filterMap_decided_perm {waits : List Wait} {place : Nat} {wait : Wait}
    (hwait : waits[place]? = some wait) (hopen : wait.answer = none) (answer : Answer) :
    (waits.filterMap Wait.openLoad?).Perm (wait.load?.toList ++
      (waits.set place { wait with answer := some answer }).filterMap Wait.openLoad?) := by
  induction waits generalizing place with
  | nil => simp at hwait
  | cons head rest ih =>
    cases place with
    | zero =>
      obtain rfl : head = wait := by simpa using hwait
      have hload : head.openLoad? = head.load? := by simp [Wait.openLoad?, hopen]
      have hdecided : Wait.openLoad? { head with answer := some answer } = none := by
        simp [Wait.openLoad?]
      rw [List.set_cons_zero, List.filterMap_cons_none hdecided, List.filterMap_cons, hload]
      cases head.load? <;> exact List.Perm.refl _
    | succ place =>
      have hrest := ih (by simpa using hwait)
      rw [List.set_cons_succ, List.filterMap_cons, List.filterMap_cons]
      cases head.openLoad? with
      | none => exact hrest
      | some load => exact (hrest.cons load).trans List.perm_middle.symm

theorem outstanding_letGo_perm (stage : Stage) (reason : EndReason) :
    (stage.letGo reason).outstanding.Perm stage.outstanding := by
  refine List.Perm.append_left _ ?_
  have hmoved : (stage.letGo reason).notices.map (·.1) =
      stage.notices.map (·.1) ++ stage.deck.toList := by
    cases hdeck : stage.deck <;> simp [letGo, hdeck]
  rw [hmoved]
  change (stage.notices.map (·.1) ++ stage.deck.toList).Perm _
  exact List.perm_append_comm

/-- What the node carries out becomes what it holds, or leaves everything outstanding. -/
theorem outstanding_carryOut_perm (stage : Stage) (wait : Wait) :
    (stage.carryOut wait).outstanding.Perm (wait.load?.toList ++ stage.outstanding) := by
  unfold carryOut Wait.load?
  cases wait.command with
  | play audio start stop =>
    have hfreed := outstanding_letGo_perm stage .replaced
    exact (List.perm_middle (a := (⟨audio, wait.current⟩ : Load))).trans (hfreed.cons _)
  | stop => exact outstanding_letGo_perm stage .stopped
  | pause | seek | volume | connect | destroy => exact List.Perm.refl _

theorem outstanding_note_perm {stage : Stage} {place : Nat} {wait : Wait}
    (hwait : stage.waits[place]? = some wait) (hopen : wait.answer = none) (answer : Answer) :
    stage.outstanding.Perm (wait.load?.toList ++ (stage.note place wait answer).outstanding) := by
  have hperm := (filterMap_decided_perm hwait hopen answer).append_right
    (stage.deck.toList ++ stage.notices.map (·.1))
  rwa [List.append_assoc] at hperm

theorem carryOut_session (stage : Stage) (wait : Wait) :
    (stage.carryOut wait).session = stage.session := by
  unfold carryOut
  cases wait.command <;> rfl

theorem carryOut_waits (stage : Stage) (wait : Wait) :
    (stage.carryOut wait).waits = stage.waits := by
  unfold carryOut
  cases wait.command <;> rfl

/-- A decision changes nothing unless it is about a wait that is open. -/
theorem decide_cases (stage : Stage) (place : Nat) (answer : Answer) :
    stage.decide place answer = stage ∨
      ∃ wait, stage.waits[place]? = some wait ∧ wait.answer = none ∧
        (answer = .ok () ∧
            stage.decide place answer = (stage.note place wait answer).carryOut wait ∨
          stage.decide place answer = stage.note place wait answer) := by
  cases hwait : stage.waits[place]? with
  | none => exact Or.inl (by simp only [decide, hwait])
  | some wait =>
    cases hopen : wait.answer with
    | some decided => exact Or.inl (by simp [decide, hwait, hopen])
    | none =>
      refine Or.inr ⟨wait, rfl, hopen, ?_⟩
      cases answer with
      | ok => exact Or.inl ⟨rfl, by simp [decide, hwait, hopen]⟩
      | error cause => exact Or.inr (by simp [decide, hwait, hopen])

/-- A decision of the node adds nothing to what is outstanding. -/
theorem outstanding_decide_subperm (stage : Stage) (place : Nat) (answer : Answer) :
    (stage.decide place answer).outstanding.Subperm stage.outstanding := by
  rcases decide_cases stage place answer with heq | ⟨wait, hwait, hopen, ⟨_, heq⟩ | heq⟩
  · rw [heq]
  · rw [heq]
    have hperm := outstanding_note_perm hwait hopen answer
    exact ((outstanding_carryOut_perm _ wait).trans hperm.symm).subperm
  · rw [heq]
    have hperm := outstanding_note_perm hwait hopen answer
    exact (List.sublist_append_right wait.load?.toList _).subperm.trans hperm.symm.subperm

theorem outstanding_answered_sublist (stage : Stage) (place : Nat) :
    { stage with waits := stage.waits.eraseIdx place }.outstanding.Sublist stage.outstanding :=
  ((List.eraseIdx_sublist stage.waits place).filterMap _).append_right _

theorem outstanding_notice_sublist {stage : Stage} {notice : Load × EndReason}
    {rest : List (Load × EndReason)} (hnotices : stage.notices = notice :: rest) :
    { stage with notices := rest }.outstanding.Sublist stage.outstanding := by
  unfold outstanding
  rw [hnotices]
  exact ((List.sublist_cons_self _ _).append_left _).append_left _

theorem outstanding_goOn (stage : Stage) (flow : Flow Unit) (hquiet : flow.asksToPlay = false) :
    (stage.goOn flow).outstanding = stage.outstanding := by
  cases flow with
  | ended session outcome => rfl
  | waiting session command resume =>
    have hload : Wait.openLoad? ⟨command, session.player.current, resume, none⟩ = none := by
      cases command with
      | play => simp [Flow.asksToPlay, Command.kind] at hquiet
      | stop | pause | seek | volume | connect | destroy => rfl
    simp [goOn, outstanding, List.filterMap_append, hload]

theorem outstanding_goOn_play (stage : Stage) (session : Session) (audio : Audio)
    (start : Millis) (stop : Option Millis) (resume : Answer → Session → Flow Unit) :
    (stage.goOn (.waiting session (.play audio start stop) resume)).outstanding.Perm
      (⟨audio, session.player.current⟩ :: stage.outstanding) := by
  have hload : Wait.openLoad? ⟨.play audio start stop, session.player.current, resume, none⟩ =
      some ⟨audio, session.player.current⟩ := rfl
  simp only [goOn, outstanding, List.filterMap_append, List.filterMap_cons, hload,
    List.filterMap_nil, List.append_assoc]
  exact List.perm_middle

/-! ### Steady stages -/

/-- No more than one load is outstanding, and that is the last one of the player, unless the player
has none; and every operation on stage is in order. -/
structure Steady (stage : Stage) : Prop where
  alive : stage.session.player.destroyed = false
  at_most_one : stage.outstanding.length ≤ 1
  last_loaded : ∀ load ∈ stage.outstanding, ∀ track,
    stage.session.player.lastLoaded = some track → load = .of track
  ends : ∀ notice ∈ stage.notices, notice.2 = .finished ∨ notice.2 = .stopped
  orderly : ∀ wait ∈ stage.waits, ∀ answer session,
    (wait.resume answer session).Orderly session.player

theorem steady_opening (session : Session) (dice : Dice) (volume : Single) :
    (opening session dice volume).Steady where
  alive := rfl
  at_most_one := Nat.zero_le 1
  last_loaded := by
    intro load hload
    exact absurd hload List.not_mem_nil
  ends := by
    intro notice hnotice
    exact absurd hnotice List.not_mem_nil
  orderly := by
    intro wait hwait
    exact absurd hwait List.not_mem_nil

namespace Steady

variable {stage other : Stage}

/-- A stage with the same player stays steady when nothing new becomes outstanding. -/
theorem of_part (h : stage.Steady) (hplayer : other.session.player = stage.session.player)
    (hpart : other.outstanding.Subperm stage.outstanding)
    (hends : ∀ notice ∈ other.notices, notice.2 = .finished ∨ notice.2 = .stopped)
    (hwaits : ∀ wait ∈ other.waits, ∃ old ∈ stage.waits, wait.resume = old.resume) :
    other.Steady where
  alive := hplayer ▸ h.alive
  at_most_one := Nat.le_trans hpart.length_le h.at_most_one
  last_loaded := by
    intro load hload track hlast
    exact h.last_loaded load (hpart.subset hload) track (hplayer ▸ hlast)
  ends := hends
  orderly := by
    intro wait hwait
    obtain ⟨old, hold, hresume⟩ := hwaits wait hwait
    rw [hresume]
    exact h.orderly old hold

/-- While the node has yet to decide about a play, it holds nothing and all its notices are in. -/
theorem free_of_open (h : stage.Steady) {place : Nat} {wait : Wait}
    (hwait : stage.waits[place]? = some wait) (hopen : wait.answer = none) {load : Load}
    (hload : wait.load? = some load) : stage.deck = none ∧ stage.notices = [] := by
  have hmem : load ∈ stage.waits.filterMap Wait.openLoad? := by
    refine List.mem_filterMap.mpr ⟨wait, List.mem_of_getElem? hwait, ?_⟩
    simp [Wait.openLoad?, hopen, hload]
  have hpos := List.length_pos_of_mem hmem
  have hone := h.at_most_one
  rw [outstanding, List.length_append] at hone
  have hrest : (stage.deck.toList ++ stage.notices.map (·.1)).length = 0 := by omega
  rw [List.length_eq_zero_iff, List.append_eq_nil_iff] at hrest
  exact ⟨by simpa using hrest.1, by simpa using hrest.2⟩

theorem ends_letGo (h : stage.Steady) {reason : EndReason}
    (hreason : reason = .finished ∨ reason = .stopped) :
    ∀ notice ∈ (stage.letGo reason).notices, notice.2 = .finished ∨ notice.2 = .stopped := by
  intro notice hnotice
  rcases List.mem_append.mp hnotice with hold | hnew
  · exact h.ends notice hold
  · obtain ⟨load, -, rfl⟩ := Option.map_eq_some_iff.mp (Option.mem_toList.mp hnew)
    exact hreason

theorem letGo (h : stage.Steady) {reason : EndReason}
    (hreason : reason = .finished ∨ reason = .stopped) : (stage.letGo reason).Steady :=
  h.of_part rfl (outstanding_letGo_perm stage reason).subperm (h.ends_letGo hreason)
    fun wait hwait => ⟨wait, hwait, rfl⟩

/-- A play that the node accepts takes the place of nothing. -/
theorem ends_carryOut (h : stage.Steady) {place : Nat} {wait : Wait}
    (hwait : stage.waits[place]? = some wait) (hopen : wait.answer = none) (answer : Answer) :
    ∀ notice ∈ ((stage.note place wait answer).carryOut wait).notices,
      notice.2 = .finished ∨ notice.2 = .stopped := by
  cases hcommand : wait.command with
  | play audio start stop =>
    have hload : wait.load? = some ⟨audio, wait.current⟩ := by simp [Wait.load?, hcommand]
    obtain ⟨hdeck, hnotices⟩ := h.free_of_open hwait hopen hload
    simp [Stage.carryOut, hcommand, Stage.letGo, note, hdeck, hnotices]
  | stop =>
    simp only [Stage.carryOut, hcommand]
    exact h.ends_letGo (.inr rfl)
  | pause | seek | volume | connect | destroy =>
    simp only [Stage.carryOut, hcommand]
    exact h.ends

theorem decide (h : stage.Steady) (place : Nat) (answer : Answer) :
    (stage.decide place answer).Steady := by
  have hpart := outstanding_decide_subperm stage place answer
  rcases decide_cases stage place answer with heq | ⟨wait, hwait, hopen, hcases⟩
  · rwa [heq]
  · have hwaits : ∀ other ∈ (stage.note place wait answer).waits,
        ∃ old ∈ stage.waits, other.resume = old.resume := by
      intro other hother
      rcases List.mem_or_eq_of_mem_set hother with hold | hnew
      · exact ⟨other, hold, rfl⟩
      · exact ⟨wait, List.mem_of_getElem? hwait, by rw [hnew]⟩
    rcases hcases with ⟨-, heq⟩ | heq
    · rw [heq] at hpart ⊢
      refine h.of_part ?_ hpart (h.ends_carryOut hwait hopen answer) ?_
      · rw [carryOut_session]
        rfl
      · rwa [carryOut_waits]
    · rw [heq] at hpart ⊢
      exact h.of_part rfl hpart h.ends hwaits

theorem of_keeps (h : stage.Steady) (hkeeps : stage.session.player.Keeps other.session.player)
    (hsame : other.outstanding = stage.outstanding) (hnotices : other.notices = stage.notices)
    (hwaits : ∀ wait ∈ other.waits, ∀ answer session,
      (wait.resume answer session).Orderly session.player) : other.Steady where
  alive := hkeeps.destroyed.trans h.alive
  at_most_one := hsame ▸ h.at_most_one
  last_loaded := by
    intro load hload track hlast
    exact h.last_loaded load (hsame ▸ hload) track (hkeeps.lastLoaded track hlast)
  ends := hnotices ▸ h.ends
  orderly := hwaits

/-- A play that is asked for when nothing is outstanding is then all that is. -/
theorem goOn_play {before session : Session} (h : { stage with session := before }.Steady)
    {track : Track} (hchooses : before.player.Chooses track session.player)
    (hclear : stage.outstanding = []) (start : Millis) (stop : Option Millis)
    {resume : Answer → Session → Flow Unit}
    (hwaits : ∀ wait ∈
      (stage.goOn (.waiting session (.play track.audio start stop) resume)).waits,
      ∀ answer session, (wait.resume answer session).Orderly session.player) :
    (stage.goOn (.waiting session (.play track.audio start stop) resume)).Steady := by
  have hperm := outstanding_goOn_play stage session track.audio start stop resume
  rw [hclear, hchooses.current] at hperm
  have hsingle := List.perm_singleton.mp hperm
  refine ⟨hchooses.destroyed.trans h.alive, by rw [hsingle]; exact Nat.le_refl 1, ?_, h.ends,
    hwaits⟩
  intro load hload other hlast
  have hsame : other = track := Option.some.inj (hlast.symm.trans hchooses.lastLoaded)
  rw [hsingle, List.mem_singleton] at hload
  rw [hload, hsame]
  rfl

/-- A flow that goes on in order, and asks for a play only when nothing is outstanding, leaves the
stage steady. -/
theorem goOn {before : Session} (h : { stage with session := before }.Steady) {flow : Flow Unit}
    (horderly : flow.Orderly before.player)
    (hcalm : flow.asksToPlay = true → stage.outstanding = []) : (stage.goOn flow).Steady := by
  cases flow with
  | ended session outcome => exact h.of_keeps horderly rfl rfl h.orderly
  | waiting session command resume =>
    obtain ⟨hasks, hresume⟩ := horderly
    have hwaits : ∀ wait ∈ (stage.goOn (.waiting session command resume)).waits,
        ∀ answer session, (wait.resume answer session).Orderly session.player := by
      intro wait hwait
      rcases List.mem_append.mp hwait with hold | hnew
      · exact h.orderly wait hold
      · rw [List.mem_singleton.mp hnew]
        exact hresume
    cases command with
    | play audio start stop =>
      obtain ⟨track, hchooses, rfl⟩ := hasks
      exact h.goOn_play hchooses (hcalm rfl) start stop hwaits
    | stop | pause | seek | volume | connect | destroy =>
      exact h.of_keeps hasks (outstanding_goOn stage _ rfl) rfl hwaits

end Steady

/-- The session in which an operation goes on: what a notice is about is put away before. -/
def hearing (stage : Stage) : StageEvent → Session
  | .notice => stage.session.setPlayer Player.finish
  | _ => stage.session

/-- An event after which no operation goes on changes nothing, or only what the node holds and has
decided. -/
theorem move_cases (stage : Stage) {event : StageEvent} {moved : Stage}
    (hmove : stage.move event = (moved, none)) :
    moved = stage ∨ (∃ place answer, moved = stage.decide place answer) ∨
      moved = stage.letGo .finished := by
  cases event with
  | request request => simp [move] at hmove
  | decide place answer =>
    have heq : stage.decide place answer = moved := by simpa [move] using hmove
    exact Or.inr (Or.inl ⟨place, answer, heq.symm⟩)
  | trackEnds =>
    have heq : stage.letGo .finished = moved := by simpa [move] using hmove
    exact Or.inr (Or.inr heq.symm)
  | answered place =>
    left
    cases hwait : stage.waits[place]? with
    | none => simpa [move, hwait] using hmove.symm
    | some wait =>
      cases hanswer : wait.answer with
      | none => simpa [move, hwait, hanswer] using hmove.symm
      | some answer => simp [move, hwait, hanswer] at hmove
  | notice =>
    left
    cases hnotices : stage.notices with
    | nil => simpa [move, hnotices] using hmove.symm
    | cons notice rest => simp [move, hnotices] at hmove

theorem orderly_operation (request : Request) : request.operation.Orderly := by
  cases request with
  | enqueue track level => exact (Session.orderly_enqueue track level).ignoring
  | enqueueAll tracks level => exact (Session.orderly_enqueueAll tracks level).ignoring
  | skip => exact Session.orderly_skip.ignoring
  | skipTracks ids => exact (Session.orderly_skipTracks ids).ignoring
  | skipTracksFor user level ids => exact (Session.orderly_skipTracksFor user level ids).ignoring
  | stop => exact Session.orderly_stop.ignoring
  | setPaused paused => exact (Session.orderly_setPaused paused).ignoring
  | seek position => exact (Session.orderly_seek position).ignoring
  | setVolume volume => exact (Session.orderly_setVolume volume).ignoring
  | setRepeat | setShuffle | setRoundRobin | reshuffle =>
    exact (Session.orderly_setQueue _).ignoring
  | join channel => exact (Session.orderly_join channel).ignoring

theorem finish_lastLoaded (player : Player) : player.finish.lastLoaded = none := by
  unfold Player.finish
  split
  · assumption
  · rfl

theorem finish_destroyed (player : Player) : player.finish.destroyed = player.destroyed := by
  unfold Player.finish
  split <;> rfl

namespace Steady

variable {stage moved : Stage} {event : StageEvent} {flow : Flow Unit}

/-- Where an operation goes on, the stage is steady and what it does next is in order. -/
theorem move (h : stage.Steady) (hmove : stage.move event = (moved, some flow)) :
    { moved with session := stage.hearing event }.Steady ∧
      flow.Orderly (stage.hearing event).player := by
  cases event with
  | request request =>
    obtain ⟨rfl, rfl⟩ : stage = moved ∧ request.operation stage.session = flow := by
      simpa [Stage.move] using hmove
    exact ⟨h, orderly_operation request stage.session⟩
  | decide place answer => simp [Stage.move] at hmove
  | trackEnds => simp [Stage.move] at hmove
  | answered place =>
    cases hwait : stage.waits[place]? with
    | none => simp [Stage.move, hwait] at hmove
    | some wait =>
      cases hanswer : wait.answer with
      | none => simp [Stage.move, hwait, hanswer] at hmove
      | some answer =>
        simp only [Stage.move, hwait, hanswer, Prod.mk.injEq, Option.some.injEq] at hmove
        obtain ⟨rfl, rfl⟩ := hmove
        refine ⟨h.of_part rfl (outstanding_answered_sublist stage place).subperm h.ends ?_, ?_⟩
        · intro other hother
          exact ⟨other, List.mem_of_mem_eraseIdx hother, rfl⟩
        · exact h.orderly wait (List.mem_of_getElem? hwait) answer stage.session
  | notice =>
    cases hnotices : stage.notices with
    | nil => simp [Stage.move, hnotices] at hmove
    | cons notice rest =>
      simp only [Stage.move, hnotices, Prod.mk.injEq, Option.some.injEq] at hmove
      obtain ⟨rfl, rfl⟩ := hmove
      have hreason := h.ends notice (hnotices ▸ List.mem_cons_self)
      refine ⟨⟨(finish_destroyed _).trans h.alive, ?_, ?_, ?_, h.orderly⟩, ?_⟩
      · exact Nat.le_trans (outstanding_notice_sublist hnotices).length_le h.at_most_one
      · intro load hload track hlast
        have hnone := finish_lastLoaded stage.session.player
        cases hnone.symm.trans hlast
      · intro other hother
        exact h.ends other (hnotices ▸ List.mem_cons_of_mem notice hother)
      · exact (Session.orderly_trackEnded h.alive hreason).settle.andThen
          fun _ => Operation.orderly_pure ()

/-- What happens calmly leaves the stage steady. -/
theorem step (h : stage.Steady) (hcalm : stage.Calm event) : (stage.step event).Steady := by
  cases hmove : stage.move event with
  | mk moved going =>
    cases going with
    | some flow =>
      obtain ⟨hsteady, horderly⟩ := h.move hmove
      have hclear : flow.asksToPlay = true → moved.outstanding = [] := by
        have hflow := hcalm flow (by rw [hmove])
        rwa [hmove] at hflow
      rw [step_of_flow hmove]
      exact hsteady.goOn horderly hclear
    | none =>
      rw [step_of_none hmove]
      rcases stage.move_cases hmove with rfl | ⟨place, answer, rfl⟩ | rfl
      · exact h
      · exact h.decide place answer
      · exact h.letGo (.inl rfl)

end Steady

/-! ### Alone on stage -/

/-- A node that decides as the session's own node does leaves what a command leaves there. -/
theorem session_decide_perform {stage : Stage} {place : Nat} {wait : Wait}
    (hwait : stage.waits[place]? = some wait) (hopen : wait.answer = none) :
    (stage.decide place (stage.session.perform wait.command).1).session =
      (stage.session.perform wait.command).2 := by
  unfold decide Session.perform AudioNode.perform
  cases stage.session.node.refusal? wait.command with
  | some cause =>
    simp only [hwait, hopen]
    rfl
  | none =>
    simp only [hwait, hopen]
    exact carryOut_session _ wait

theorem waits_decide {stage : Stage} {place : Nat} {wait : Wait}
    (hwait : stage.waits[place]? = some wait) (hopen : wait.answer = none) (answer : Answer) :
    (stage.decide place answer).waits =
      stage.waits.set place { wait with answer := some answer } := by
  unfold decide
  cases answer with
  | ok =>
    simp only [hwait, hopen]
    exact carryOut_waits _ wait
  | error cause =>
    simp only [hwait, hopen]
    rfl

theorem step_answered {stage : Stage} {place : Nat} {wait : Wait} {answer : Answer}
    (hwait : stage.waits[place]? = some wait) (hanswer : wait.answer = some answer) :
    stage.step (.answered place) = { stage with waits := stage.waits.eraseIdx place }.goOn
      (wait.resume answer stage.session) := by
  apply step_of_flow
  simp only [move, hwait, hanswer]

/-- If nothing else happens, a flow goes on to its end as it does away from the stage. -/
theorem exists_run_alone (flow : Flow Unit) (stage : Stage) : ∃ events : List StageEvent,
    (events.foldl step (stage.goOn flow)).session = flow.run.2 ∧
      (events.foldl step (stage.goOn flow)).waits = stage.waits := by
  induction flow generalizing stage with
  | ended session outcome => exact ⟨[], rfl, rfl⟩
  | waiting session command resume ih =>
    let place := stage.waits.length
    let wait : Wait := { command, current := session.player.current, resume }
    let asking := stage.goOn (.waiting session command resume)
    let answer := (session.perform command).1
    let decided := asking.decide place answer
    have hwait : asking.waits[place]? = some wait := by simp [asking, place, wait, goOn]
    have hsession : decided.session = (session.perform command).2 :=
      session_decide_perform hwait rfl
    have hwaits : decided.waits = stage.waits ++ [{ wait with answer := some answer }] := by
      rw [waits_decide hwait rfl answer]
      simp [asking, place, wait, goOn]
    obtain ⟨events, hend, hleft⟩ := ih answer decided.session
      { decided with waits := decided.waits.eraseIdx place }
    have hdecided : decided.waits[place]? = some { wait with answer := some answer } := by
      simp [hwaits, place]
    have hresumed := step_answered hdecided rfl
    have herased : decided.waits.eraseIdx place = stage.waits := by
      simp [hwaits, place, List.eraseIdx_append_of_length_le]
    refine ⟨.decide place answer :: .answered place :: events, ?_, ?_⟩
    · change (events.foldl step (decided.step (.answered place))).session = _
      rw [hresumed, hend, hsession]
      rfl
    · change (events.foldl step (decided.step (.answered place))).waits = _
      rw [hresumed, hleft]
      exact herased

end Stage

end Jukebox
