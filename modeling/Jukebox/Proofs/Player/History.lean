import Jukebox.Proofs.Player.Acts
import Jukebox.Proofs.Player.Chronicle
import Jukebox.Proofs.Player.EndNotices

/-!
What the history tells. It is read off the chronicle of all that was seen of the player: the newest
tracks first, and no more than the last twenty.
-/
namespace Jukebox

def latest (tracks : List Track) : List Track := tracks.drop (tracks.length - historyLimit)

theorem filing_latest (tracks : List Track) (track : Track) :
    Player.filing (latest tracks) (some track) = latest (tracks ++ [track]) := by
  have hdrop : ∀ {count : Nat}, count ≤ tracks.length →
      tracks.drop count ++ [track] = (tracks ++ [track]).drop count := fun h =>
    (List.drop_append_of_le_length h).symm
  rw [latest, Player.filing, hdrop (Nat.sub_le _ _), List.drop_drop, latest]
  congr 1
  simp only [List.length_drop, List.length_append, List.length_singleton]
  omega

/-- The newest of the last tracks are the newest of all. -/
theorem take_reverse_latest (tracks : List Track) (count : Nat) :
    (latest tracks).reverse.take count = tracks.reverse.take (min count historyLimit) := by
  rw [latest, List.reverse_drop, List.take_take]
  apply List.take_eq_take_iff.mpr
  rw [List.length_reverse]
  omega

/-- The history of a player is the log of a record, and the track that the player loaded last is the
one whose play is under way. -/
structure Player.Remembers (player : Player) (record : List Happening)
    (entries : List HistoryEntry) : Prop where
  chronicle : Chronicle record entries
  history : player.history = latest (entries.map (·.track))
  idle : player.lastLoaded = none → ∀ place, ¬ UnderWay record place
  loaded : ∀ track, player.lastLoaded = some track → ∃ place play,
    UnderWay record place ∧ record[place]? = some play ∧ play.PlayOf track
  closed : player.destroyed = true → player.lastLoaded = none

namespace Player.Remembers

variable {player later : Player} {record : List Happening} {entries : List HistoryEntry}
  {happening : Happening}

theorem of_same (h : player.Remembers record entries) (hhistory : later.history = player.history)
    (hlast : later.lastLoaded = player.lastLoaded)
    (hdestroyed : later.destroyed = player.destroyed) : later.Remembers record entries where
  chronicle := h.chronicle
  history := hhistory.trans h.history
  idle := fun hnone => h.idle (hlast ▸ hnone)
  loaded := fun track htrack => h.loaded track (hlast ▸ htrack)
  closed := fun hclosed => hlast.trans (h.closed (hdestroyed ▸ hclosed))

/-- What cuts nothing leaves everything as it is. -/
theorem append (h : player.Remembers record entries) (hcuts : happening.cuts = false) :
    player.Remembers (record ++ [happening]) entries where
  chronicle := by
    refine h.chronicle.append fun hend => ?_
    rw [Happening.cuts_of_isEnd hend] at hcuts
    cases hcuts
  history := h.history
  idle := by
    intro hnone place hunderWay
    rcases UnderWay.append_iff.mp hunderWay with ⟨hold, -⟩ | ⟨-, hplay⟩
    · exact h.idle hnone place hold
    · rw [Happening.cuts_of_isPlay hplay] at hcuts
      cases hcuts
  loaded := by
    intro track htrack
    obtain ⟨place, play, hunderWay, hplace, hplay⟩ := h.loaded track htrack
    exact ⟨place, play, UnderWay.append_iff.mpr (.inl ⟨hunderWay, hcuts⟩),
      getElem?_append_singleton_iff.mpr (.inl hplace), hplay⟩
  closed := h.closed

/-- An accepted play is under way, and nothing else is. -/
theorem append_play (h : player.Remembers record entries) {track : Track}
    (hplay : happening.PlayOf track) (hhistory : later.history = player.history)
    (hlast : later.lastLoaded = some track) (halive : later.destroyed = false) :
    later.Remembers (record ++ [happening]) entries where
  chronicle := by
    refine h.chronicle.append fun hend => ?_
    obtain ⟨start, rfl⟩ := hplay
    cases hend
  history := hhistory.trans h.history
  idle := by
    intro hnone
    rw [hlast] at hnone
    cases hnone
  loaded := by
    intro other hother
    obtain rfl : track = other := Option.some.inj (hlast.symm.trans hother)
    exact ⟨record.length, happening, UnderWay.append_iff.mpr (.inr ⟨rfl, hplay.isPlay⟩),
      getElem?_append_singleton_iff.mpr (.inr ⟨rfl, rfl⟩), hplay⟩
  closed := by
    intro hclosed
    rw [halive] at hclosed
    cases hclosed

/-- Nothing is under way, and the player has nothing that it loaded. -/
theorem of_idle (hchronicle : Chronicle record entries)
    (hhistory : player.history = latest (entries.map (·.track)))
    (hidle : ∀ place, ¬ UnderWay record place) (hnone : player.lastLoaded = none) :
    player.Remembers record entries where
  chronicle := hchronicle
  history := hhistory
  idle := fun _ => hidle
  loaded := by
    intro track htrack
    rw [hnone] at htrack
    cases htrack
  closed := fun _ => hnone

/-- Nothing is under way any more once the player has forgotten what it loaded. -/
theorem append_forgotten (h : player.Remembers record entries) (hplay : happening.isPlay = false)
    (hquiet : happening.cuts = true ∧ happening.isEnd = false ∨ player.lastLoaded = none)
    (hhistory : later.history = player.history) (hnone : later.lastLoaded = none) :
    later.Remembers (record ++ [happening]) entries := by
  refine of_idle (h.chronicle.append fun hend => ?_) (hhistory.trans h.history)
    (fun place => ?_) hnone
  · rcases hquiet with ⟨-, hnoEnd⟩ | hidle
    · rw [hend] at hnoEnd
      cases hnoEnd
    · exact h.idle hidle
  · exact UnderWay.not_append hplay (hquiet.imp (·.1) fun hidle => h.idle hidle place)

/-- The end of the play that is under way is remembered. -/
theorem append_end (h : player.Remembers record entries) (hend : happening.isEnd = true)
    (hplay : happening.isPlay = false) : ∃ longer : List HistoryEntry,
    player.finish.Remembers (record ++ [happening]) longer := by
  have hnone := Stage.finish_lastLoaded player
  cases hlast : player.lastLoaded with
  | none =>
    have hhistory : player.finish.history = player.history := by
      rw [Player.finish_history, hlast]
      rfl
    exact ⟨entries, h.append_forgotten hplay (.inr hlast) hhistory hnone⟩
  | some track =>
    obtain ⟨place, play, hunderWay, hplace, hplayOf⟩ := h.loaded track hlast
    have hhistory : player.finish.history =
        latest ((entries ++ [(⟨track, place, record.length⟩ : HistoryEntry)]).map (·.track)) := by
      rw [Player.finish_history, hlast, h.history, filing_latest, List.map_append]
      rfl
    have hcuts := Happening.cuts_of_isEnd hend
    exact ⟨_, of_idle (h.chronicle.append_end hend hunderWay hplace hplayOf) hhistory
      (fun _ => UnderWay.not_append hplay (.inl hcuts)) hnone⟩

theorem tracksInRange (h : player.Remembers record entries) (start stop : Nat) :
    (player.tracksInRange start stop).2.Remembers record entries := by
  unfold Player.tracksInRange
  split
  · exact h.of_same rfl rfl rfl
  · exact h

theorem fresh (dice : Dice) (volume : Single) : (Player.fresh dice volume).Remembers [] [] :=
  of_idle .empty rfl (fun place h => Nat.not_lt_zero place h.lt_length) rfl

/-- The newest tracks of the history are the newest of the log. -/
theorem historyRange_eq (h : player.Remembers record entries) (count : Nat) :
    player.historyRange 0 count =
      (entries.map (·.track)).reverse.take (min count historyLimit) := by
  rw [Player.historyRange, h.history, List.drop_zero, Nat.sub_zero, take_reverse_latest]

end Player.Remembers

/-! ### Steps and runs -/

namespace Session

open Operation

/-- Since some time, with a record of what had happened until then, the node was asked some things,
and the history of the player tells the same as the record that they make. -/
def RemembersSince (base : Session) (record : List Happening) (entries : List HistoryEntry)
    (session : Session) : Prop :=
  ∃ notes : List Asked, session.node.log = base.node.log ++ notes ∧
    session.player.Remembers (record ++ notes.map .asked) entries

theorem log_perform_of_ok {session : Session} {command : Command}
    (h : (session.perform command).1 = .ok ()) :
    (session.perform command).2.node.log = session.node.log ++ [⟨command, true⟩] := by
  have hlog := session.node.log_perform command
  rw [AudioNode.perform_eq_ok_iff.mp h] at hlog
  exact hlog

theorem log_perform_of_error {session : Session} {command : Command} {cause : String}
    (h : (session.perform command).1 = .error cause) :
    (session.perform command).2.node.log = session.node.log ++ [⟨command, false⟩] := by
  have hlog := session.node.log_perform command
  have hrefused : session.node.refusal? command ≠ none := by
    intro hnone
    have hdone : (session.perform command).1 = .ok () := AudioNode.perform_eq_ok_iff.mpr hnone
    rw [hdone] at h
    cases h
  rw [Option.isNone_eq_false_iff.mpr (Option.isSome_iff_ne_none.mpr hrefused)] at hlog
  exact hlog

namespace RemembersSince

variable {base session later : Session} {record : List Happening} {entries : List HistoryEntry}

/-- The node was asked for nothing. -/
theorem of_player (hlog : session.node.log = base.node.log)
    (h : session.player.Remembers record entries) : base.RemembersSince record entries session :=
  ⟨[], by rw [hlog, List.append_nil], by rwa [List.map_nil, List.append_nil]⟩

theorem of_same (h : base.RemembersSince record entries session)
    (hhistory : later.player.history = session.player.history)
    (hlast : later.player.lastLoaded = session.player.lastLoaded)
    (hdestroyed : later.player.destroyed = session.player.destroyed)
    (hlog : later.node.log = session.node.log) : base.RemembersSince record entries later := by
  obtain ⟨notes, hsession, hplayer⟩ := h
  exact ⟨notes, hlog.trans hsession, hplayer.of_same hhistory hlast hdestroyed⟩

/-- The node was asked for one more thing. -/
theorem note (h : base.RemembersSince record entries session) {asked : Asked}
    (hlog : later.node.log = session.node.log ++ [asked])
    (hplayer : ∀ {sofar : List Happening}, session.player.Remembers sofar entries →
      later.player.Remembers (sofar ++ [.asked asked]) entries) :
    base.RemembersSince record entries later := by
  obtain ⟨notes, hsession, hremembers⟩ := h
  refine ⟨notes ++ [asked], by rw [hlog, hsession, List.append_assoc], ?_⟩
  rw [List.map_append, ← List.append_assoc]
  exact hplayer hremembers

theorem perform (h : base.RemembersSince record entries session) (command : Command)
    (hharmless : ∀ done, Happening.cuts (.asked ⟨command, done⟩) = false) :
    base.RemembersSince record entries (session.perform command).2 :=
  h.note (session.node.log_perform command) fun hplayer => hplayer.append (hharmless _)

theorem accepted (h : base.RemembersSince record entries session) {track : Track}
    (halive : session.player.destroyed = false)
    (hdone : ((session.setPlayer (·.loading track)).perform track.playing).1 = .ok ())
    (announce : Bool) : base.RemembersSince record entries (session.accepted track announce) := by
  have hlog : (session.accepted track announce).node.log =
      session.node.log ++ [⟨track.playing, true⟩] :=
    (congrArg AudioNode.log (started_node _ _ _)).trans (log_perform_of_ok hdone)
  have hplayer : (session.accepted track announce).player =
      (session.player.loading track).setQueue TrackQueue.refresh := by
    rw [Session.accepted, publish_player, started_player]
    rfl
  refine h.note hlog fun hremembers => ?_
  rw [hplayer]
  have hplay : Happening.PlayOf track.fromStart (.asked ⟨track.playing, true⟩) :=
    ⟨track.playStart, rfl⟩
  exact hremembers.append_play hplay rfl rfl halive

theorem refused (h : base.RemembersSince record entries session) {track : Track} {cause : String}
    (hrefused : ((session.setPlayer (·.loading track)).perform track.playing).1 = .error cause) :
    base.RemembersSince record entries (session.refused track) := by
  have hforgotten : ((session.player.loading track).discard track.id).lastLoaded = none := by
    simp [Player.discard, Player.loading, Track.fromStart, Option.filter]
  exact h.note (log_perform_of_error hrefused) fun hremembers =>
    hremembers.append_forgotten rfl (.inl ⟨rfl, rfl⟩) rfl hforgotten

/-- What every act but the report of an end and the end of the player keeps. -/
theorem act (h : base.RemembersSince record entries session) {step : PlayerStep}
    (hreport : ∀ reason, step ≠ .trackEnded reason) (hdestroy : step ≠ .destroy)
    (hact : Act step session later) : base.RemembersSince record entries later := by
  cases hact with
  | publishes =>
    refine h.of_same ?_ ?_ ?_ rfl <;> rw [publish_player] <;> rfl
  | loads halive hgiven hdone => exact h.accepted halive hdone _
  | rejects halive hgiven hrefused => exact h.refused hrefused
  | finishes | givesUp => exact absurd rfl (hreport _)
  | closes | letsGo | publishesGone => exact absurd rfl hdestroy
  | cuts | stops | pauses | setsVolume =>
    refine RemembersSince.perform (?_ : base.RemembersSince record entries
      (session.setPlayer _)) _ fun done => rfl
    exact h.of_same rfl rfl rfl rfl
  | seeks | connects | resumesVolume => exact h.perform _ fun done => rfl
  | lists =>
    obtain ⟨notes, hlog, hremembers⟩ := h
    exact ⟨notes, hlog, hremembers.tracksInRange _ _⟩
  | weighs | weighsAll | queues | queuesAll | exhausts | repeats | shuffles | rotates
  | reshuffles | strikes | takesOver | listsRemaining | elapses | losesLink =>
    exact h.of_same rfl rfl rfl rfl

/-- Loading tracks keeps it as well, whatever the step that it is part of. -/
theorem advance (h : base.RemembersSince record entries session) (silent onlyIfIdle : Bool) :
    base.RemembersSince record entries ((Session.advance silent onlyIfIdle).run session).2 := by
  have hchain : Relation.ReflTransGen (Act (.loadAndPlay silent)) session
      ((Session.advance silent onlyIfIdle).run session).2 :=
    within_advance silent onlyIfIdle session
  refine holds_of_chain (fun before later hact hbefore => ?_) hchain h
  exact hbefore.act (by simp) (by simp) hact

end RemembersSince

/-- What can be seen of a step: what the player was told or was made to do, and then what it asked
of its node. -/
def happenings (session : Session) (step : PlayerStep) : List Happening :=
  (match step with
    | .trackEnded reason => [.reported reason]
    | .destroy => [.closed]
    | _ => []) ++
  ((session.after step).node.log.drop session.node.log.length).map .asked

def record (session : Session) : List PlayerStep → List Happening
  | [] => []
  | step :: rest => session.happenings step ++ (session.after step).record rest

/-- What a step kept gives what can be seen of it. -/
theorem RemembersSince.notes_eq {base session : Session} {sofar : List Happening}
    {entries : List HistoryEntry} (h : base.RemembersSince sofar entries session) :
    session.player.Remembers
      (sofar ++ (session.node.log.drop base.node.log.length).map .asked) entries := by
  obtain ⟨notes, hlog, hremembers⟩ := h
  rwa [hlog, List.drop_left]

section Steps

variable {session : Session} {sofar : List Happening} {entries : List HistoryEntry}

/-- The report of an end. -/
theorem remembers_trackEnded (h : session.player.Remembers sofar entries) (reason : EndReason) :
    ∃ longer : List HistoryEntry, session.RemembersSince (sofar ++ [.reported reason]) longer
      (session.after (.trackEnded reason)) := by
  change ∃ longer, session.RemembersSince _ longer ((trackEnded reason).ignoring.run session).2
  rw [run_ignoring]
  unfold trackEnded
  rw [run_bind, run_get]
  cases hdestroyed : session.player.destroyed with
  | true =>
    have hnone := h.closed hdestroyed
    exact ⟨entries, .of_player rfl (h.append_forgotten rfl (.inr hnone) rfl hnone)⟩
  | false =>
    -- what the player remembers before it loads the next track
    have hfinish (hend : Happening.isEnd (.reported reason) = true) :
        ∃ longer : List HistoryEntry, session.RemembersSince (sofar ++ [.reported reason]) longer
          ((loadAndPlay false).run (session.setPlayer Player.finish)).2 := by
      obtain ⟨longer, hremembers⟩ := h.append_end hend rfl
      exact ⟨longer, RemembersSince.advance (.of_player rfl hremembers) false false⟩
    cases reason with
    | finished | stopped => exact hfinish rfl
    | loadFailed =>
      have hremembers : (session.player.fail).2.Remembers
          (sofar ++ [.reported .loadFailed]) entries :=
        h.append_forgotten rfl (.inl ⟨rfl, rfl⟩) rfl rfl
      exact ⟨entries, RemembersSince.advance (.of_player rfl hremembers) false false⟩
    | cleanup | replaced => exact ⟨entries, .of_player rfl (h.append rfl)⟩

theorem remembers_destroy (h : session.player.Remembers sofar entries) :
    session.RemembersSince (sofar ++ [.closed]) entries (session.after .destroy) := by
  change session.RemembersSince _ entries (destroy.run session).2
  unfold destroy
  rw [run_bind, run_get]
  cases hdestroyed : session.player.destroyed with
  | true =>
    have hnone := h.closed hdestroyed
    exact .of_player rfl (h.append_forgotten rfl (.inr hnone) rfl hnone)
  | false =>
    have hclosed : session.RemembersSince (sofar ++ [.closed]) entries
        (session.setPlayer Player.close) :=
      .of_player rfl (h.append_forgotten rfl (.inl ⟨rfl, rfl⟩) rfl rfl)
    simp only [Bool.false_eq_true, if_false, run_bind, run_change, run_get]
    split
    · exact hclosed.of_same rfl rfl rfl rfl
    · simp only [run_bind, run_ignoring, run_ask, run_change]
      have hstopped := hclosed.perform .stop fun done => rfl
      have hgone := hstopped.perform .destroy fun done => rfl
      exact hgone.of_same rfl rfl rfl rfl

/-- A step adds to the record what can be seen of it, and the history goes on telling what the
record says. -/
theorem remembers_after (h : session.player.Remembers sofar entries) (step : PlayerStep) :
    ∃ longer : List HistoryEntry,
      (session.after step).player.Remembers (sofar ++ session.happenings step) longer := by
  have hquiet (hreport : ∀ reason, step ≠ .trackEnded reason) (hdestroy : step ≠ .destroy) :
      session.RemembersSince sofar entries (session.after step) :=
    holds_of_chain (fun _ _ hact hbefore => hbefore.act hreport hdestroy hact)
      (chain_after session step) (.of_player rfl h)
  unfold happenings
  rw [← List.append_assoc]
  cases step with
  | trackEnded reason =>
    obtain ⟨longer, hsince⟩ := remembers_trackEnded h reason
    exact ⟨longer, hsince.notes_eq⟩
  | destroy => exact ⟨entries, (remembers_destroy h).notes_eq⟩
  | member | loadAndPlay | restore | list | listRemaining | elapse | loseLink =>
    rw [List.append_nil]
    exact ⟨entries, (hquiet (by simp) (by simp)).notes_eq⟩

theorem remembers_afterAll (h : session.player.Remembers sofar entries)
    (steps : List PlayerStep) : ∃ longer : List HistoryEntry,
      (session.afterAll steps).player.Remembers (sofar ++ session.record steps) longer := by
  induction steps generalizing session sofar entries with
  | nil =>
    rw [record, List.append_nil]
    exact ⟨entries, h⟩
  | cons step rest ih =>
    obtain ⟨longer, hstep⟩ := remembers_after h step
    rw [record, ← List.append_assoc]
    exact ih hstep

end Steps

/-- After any steps of a new player, whatever its node refused, the history is read off a log of the
plays that came to their end in the record of these steps: the newest of them first, and no more
than the last twenty. -/
theorem historyRange_chronicle (session : Session) (dice : Dice) (volume : Single)
    (steps : List PlayerStep) : ∃ entries : List HistoryEntry,
      Chronicle ((session.opening dice volume).record steps) entries ∧
      ∀ count, ((session.opening dice volume).afterAll steps).player.historyRange 0 count =
        (entries.map (·.track)).reverse.take (min count historyLimit) := by
  have hopening : (session.opening dice volume).player.Remembers [] [] :=
    Player.Remembers.fresh dice volume
  obtain ⟨entries, h⟩ := remembers_afterAll hopening steps
  exact ⟨entries, h.chronicle, h.historyRange_eq⟩

/-- A track that could not be loaded is not remembered, and one whose end is reported twice is
remembered once. -/
example : ((sampleSession.opening (.ofSeed 1) maxVolume).afterAll
    [.member (.enqueueAll [sampleTrack 1 firstUser false, sampleTrack 2 secondUser false] .user),
      .trackEnded .loadFailed, .trackEnded .finished, .trackEnded .stopped]).player.historyRange
        0 5 = [sampleTrack 2 secondUser false] := by decide

end Session

end Jukebox
