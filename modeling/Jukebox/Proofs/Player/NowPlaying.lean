import Jukebox.Proofs.Player.Acts
import Jukebox.Proofs.Queue.Run

/-!
What a player says is playing. Whatever the node refuses, and whenever it does, the current track
of a player is the one that its node was last told to play.
-/
namespace Jukebox

/-- Whether the node, once asked this, plays something else or nothing: a play that it accepted, or
any stop or end, done or not. -/
def Asked.supersedes (asked : Asked) : Bool :=
  match asked.command with
  | .play .. => asked.done
  | .stop | .destroy => true
  | .pause _ | .seek _ | .volume _ | .connect _ => false

/-- The last play that the node accepted was of this track, up to the end of the track, and no stop
or end was asked for after it. -/
def Told (log : List Asked) (track : Track) : Prop :=
  ∃ before start after,
    log = before ++
      { command := .play track.audio start track.endPosition?, done := true } :: after ∧
    ∀ asked ∈ after, asked.supersedes = false

theorem Told.append {log : List Asked} {track : Track} (h : Told log track) {asked : Asked}
    (hasked : asked.supersedes = false) : Told (log ++ [asked]) track := by
  obtain ⟨before, start, after, rfl, hafter⟩ := h
  refine ⟨before, start, after ++ [asked], by simp, ?_⟩
  intro other hother
  rcases List.mem_append.mp hother with hold | hnew
  · exact hafter other hold
  · rw [List.mem_singleton.mp hnew]
    exact hasked

theorem told_of_played (log : List Asked) (track : Track) :
    Told (log ++ [{ command := track.playing, done := true }]) track.fromStart :=
  ⟨log, track.playStart, [], rfl, by simp⟩

namespace Session

def Truthful (session : Session) : Prop :=
  ∀ track, session.player.current = some track → Told session.node.log track

namespace Truthful

variable {session later : Session}

theorem of_idle (h : session.player.current = none) : session.Truthful := by
  intro track htrack
  rw [h] at htrack
  cases htrack

theorem of_same (h : session.Truthful)
    (hcurrent : later.player.current = session.player.current)
    (hlog : later.node.log = session.node.log) : later.Truthful := by
  intro track htrack
  rw [hlog]
  exact h track (hcurrent ▸ htrack)

/-- A command that stops nothing and plays nothing leaves what the node was told. -/
theorem perform (h : session.Truthful) {command : Command}
    (hharmless : ∀ done, Asked.supersedes ⟨command, done⟩ = false) :
    (session.perform command).2.Truthful := by
  intro track htrack
  have hlog : (session.perform command).2.node.log = _ := session.node.log_perform command
  rw [hlog]
  exact (h track htrack).append (hharmless _)

theorem publish (h : session.Truthful) : session.publish.Truthful := by
  refine h.of_same ?_ rfl
  rw [publish_player]
  rfl

end Truthful

theorem current_accepted (session : Session) (track : Track) (announce : Bool) :
    (session.accepted track announce).player.current = some track.fromStart := by
  rw [accepted, publish_player, started_player]
  rfl

/-- An accepted track is what the node was told last. -/
theorem truthful_accepted {session : Session} {track : Track}
    (hdone : ((session.setPlayer (·.loading track)).perform track.playing).1 = .ok ())
    (announce : Bool) : (session.accepted track announce).Truthful := by
  have haccepted : session.node.refusal? track.playing = none :=
    AudioNode.perform_eq_ok_iff.mp hdone
  have hlog : (session.accepted track announce).node.log =
      session.node.log ++ [{ command := track.playing, done := true }] := by
    have h := session.node.log_perform track.playing
    rw [haccepted] at h
    rw [accepted]
    exact (congrArg AudioNode.log (started_node _ _ _)).trans h
  intro other hother
  rw [current_accepted] at hother
  obtain rfl : track.fromStart = other := Option.some.inj hother
  rw [hlog]
  exact told_of_played session.node.log track

theorem finish_current (player : Player) : player.finish.current = none := by
  unfold Player.finish
  split <;> rfl

/-- A track that the node rejected is not current any more. -/
theorem discard_loading_current (player : Player) (track : Track) :
    ((player.loading track).discard track.id).current = none := by
  simp [Player.discard, Player.loading, Track.fromStart, Option.filter]

theorem tracksInRange_current (player : Player) (start stop : Nat) :
    (player.tracksInRange start stop).2.current = player.current := by
  unfold Player.tracksInRange
  split <;> rfl

/-- Every act leaves the player truthful. -/
theorem Truthful.act {step : PlayerStep} {before later : Session} (h : before.Truthful)
    (hact : Act step before later) : later.Truthful := by
  cases hact with
  | publishes => exact h.publish
  | loads halive hgiven hdone => exact truthful_accepted hdone _
  | rejects => exact .of_idle (discard_loading_current before.player _)
  | exhausts | givesUp | closes => exact .of_idle rfl
  | finishes => exact .of_idle (finish_current before.player)
  | cuts | stops | letsGo => exact .of_idle rfl
  | pauses | setsVolume =>
    refine Truthful.perform (h.of_same rfl rfl) fun done => rfl
  | seeks | connects | resumesVolume => exact h.perform fun done => rfl
  | lists => exact h.of_same (tracksInRange_current before.player _ _) rfl
  | weighs | weighsAll | queues | queuesAll | repeats | shuffles | rotates | reshuffles | strikes
  | publishesGone | takesOver | listsRemaining | elapses | losesLink => exact h.of_same rfl rfl

/-- A run keeps the player truthful. -/
theorem Truthful.afterAll {session : Session} (h : session.Truthful) (steps : List PlayerStep) :
    (session.afterAll steps).Truthful := by
  have hact : ∀ step, True → ∀ before later, Act step before later → before.Truthful →
      later.Truthful := fun _ _ _ _ hact hbefore => hbefore.act hact
  exact afterAll_of_act hact h fun _ _ => trivial

/-- After any steps of a new player, the current track is what the node was last told to play,
whatever commands the node refused on the way. -/
theorem told_of_current (session : Session) (dice : Dice) (volume : Single)
    (steps : List PlayerStep) (track : Track)
    (hcurrent : ((session.opening dice volume).afterAll steps).player.current = some track) :
    Told ((session.opening dice volume).afterAll steps).node.log track := by
  have hopening : (session.opening dice volume).Truthful := .of_idle rfl
  exact hopening.afterAll steps track hcurrent

def sampleChapter : Track :=
  { sampleTrack 2 secondUser false with
    audio := .recording "concert" "Concert" 600000
    chapter := some { startMillis := 60000, endMillis := 120000, title := "Overture" } }

def troubledSession : Session :=
  { sampleSession with
    node := {
      rejected := [(sampleTrack 1 firstUser false).audio.title]
      outages := fun place _ => if place = 2 then some "gone" else none } }

def troubledSteps : List PlayerStep :=
  [.member (.enqueue (sampleTrack 1 firstUser false) .user),
    .member (.enqueue sampleChapter .user), .member (.setPaused true),
    .member (.enqueue (sampleTrack 3 firstUser false) .user)]

theorem told_of_current_troubled :
    (((troubledSession.opening (.ofSeed 1) maxVolume).afterAll troubledSteps).player.current =
        some sampleChapter ∧
      Told ((troubledSession.opening (.ofSeed 1) maxVolume).afterAll troubledSteps).node.log
        sampleChapter) := by
  have hcurrent : ((troubledSession.opening (.ofSeed 1) maxVolume).afterAll
      troubledSteps).player.current = some sampleChapter := by decide
  exact ⟨hcurrent, told_of_current troubledSession (.ofSeed 1) maxVolume troubledSteps _ hcurrent⟩

end Session

end Jukebox
