import Jukebox.Track.Basic
import Jukebox.Text.Span
import Jukebox.Metrics

/-!
Admission to the queue. Four rules are tried in order and the first that a track breaks refuses
it; members with elevated rights pass without being checked. In a batch, the track at place `i`
counts the `i` tracks before it as if they were queued already.
-/
namespace Jukebox

/-- How much a member may do, from least to most. -/
inductive PermissionLevel
  | base
  | user
  | dj
  | admin
  | botAdmin
deriving DecidableEq

namespace PermissionLevel

def name : PermissionLevel → String
  | base => "Base"
  | user => "User"
  | dj => "Dj"
  | admin => "Admin"
  | botAdmin => "BotAdmin"

def ofName? (name : String) : Option PermissionLevel :=
  [base, user, dj, admin, botAdmin].find? (·.name = name)

def rank : PermissionLevel → Nat
  | base => 0
  | user => 1
  | dj => 2
  | admin => 3
  | botAdmin => 4

def atLeast (level other : PermissionLevel) : Bool := other.rank ≤ level.rank

/-- From DJ on, no limit of the queue applies. -/
def isElevated (level : PermissionLevel) : Bool := level.atLeast dj

end PermissionLevel

/-- The outcome of an admission check. -/
inductive LimitCode
  | success
  | playlistDisabled
  | userTrackLimitExceeded
  | trackLimitExceeded
  | trackLengthExceeded
deriving DecidableEq

namespace LimitCode

def name : LimitCode → String
  | success => "SUCCESS"
  | playlistDisabled => "PLAYLIST_DISABLED"
  | userTrackLimitExceeded => "USER_TRACK_LIMIT_EXCEEDED"
  | trackLimitExceeded => "TRACK_LIMIT_EXCEEDED"
  | trackLengthExceeded => "TRACK_LENGTH_EXCEEDED"

def ofName? (name : String) : Option LimitCode :=
  [success, playlistDisabled, userTrackLimitExceeded, trackLimitExceeded,
    trackLengthExceeded].find? (·.name = name)

end LimitCode

/-- What a guild allows; an absent limit does not bind. -/
structure GuildLimits where
  playlistAllowed : Bool := true
  userMaxTracks : Option UInt64 := none
  maxTracks : Option UInt64 := none
  maxTrackLengthMillis : Option Millis := none
deriving DecidableEq

/-- Limits whose greatest length is stated in seconds. If the milliseconds leave the word there are
none, and the request for them is broken off. -/
def GuildLimits.ofSeconds? (playlistAllowed : Bool)
    (userMaxTracks maxTracks maxSeconds : Option UInt64) : Option GuildLimits := do
  let maxTrackLengthMillis ← maxSeconds.mapM Millis.ofSeconds?
  return { playlistAllowed, userMaxTracks, maxTracks, maxTrackLengthMillis }

theorem GuildLimits.ofSeconds?_eq_some_iff {playlistAllowed : Bool}
    {userMaxTracks maxTracks maxSeconds : Option UInt64} {limits : GuildLimits} :
    ofSeconds? playlistAllowed userMaxTracks maxTracks maxSeconds = some limits ↔
      limits.playlistAllowed = playlistAllowed ∧ limits.userMaxTracks = userMaxTracks ∧
        limits.maxTracks = maxTracks ∧
        limits.maxTrackLengthMillis.map UInt64.toNat = maxSeconds.map (1000 * ·.toNat) := by
  obtain ⟨playlists, ofUser, total, millis⟩ := limits
  rw [ofSeconds?, Option.bind_eq_bind, Option.bind_eq_some_iff,
    ← Millis.mapM_ofSeconds?_eq_some_iff]
  simp only [Option.pure_def, Option.some.injEq, mk.injEq]
  constructor
  · rintro ⟨_, hmillis, rfl, rfl, rfl, rfl⟩
    exact ⟨rfl, rfl, rfl, hmillis⟩
  · rintro ⟨rfl, rfl, rfl, hmillis⟩
    exact ⟨millis, hmillis, rfl, rfl, rfl, rfl⟩

/-- How many tracks are held already: in all, and by each user. -/
structure TrackCounts where
  total : Nat
  ofUser : UserId → Nat

structure LimitStatus where
  allowed : Bool
  code : LimitCode
  message : String
deriving DecidableEq

def LimitStatus.success : LimitStatus where
  allowed := true
  code := .success
  message := "Successful"

/-- A rule that a track must keep to be admitted. -/
inductive LimitRule
  | noPlaylist
  | userTrackLimit
  | trackLimit
  | trackLength
deriving DecidableEq

namespace LimitRule

def chain : List LimitRule := [noPlaylist, userTrackLimit, trackLimit, trackLength]

def name : LimitRule → String
  | noPlaylist => "NoPlaylist"
  | userTrackLimit => "UserTrackLimit"
  | trackLimit => "TrackLimit"
  | trackLength => "TrackLength"

def code : LimitRule → LimitCode
  | noPlaylist => .playlistDisabled
  | userTrackLimit => .userTrackLimitExceeded
  | trackLimit => .trackLimitExceeded
  | trackLength => .trackLengthExceeded

/-- A limit admits a count or length below it. -/
def below (value : Nat) (limit : Option UInt64) : Bool :=
  match limit with
  | some limit => value < limit.toNat
  | none => true

/-- Whether a track keeps the rule when `pending` tracks are counted besides those held. A live
stream has no end and fits under no length. -/
def allows (rule : LimitRule) (track : Track) (counts : TrackCounts) (pending : Nat)
    (limits : GuildLimits) : Bool :=
  match rule with
  | noPlaylist => ! track.fromPlaylist || limits.playlistAllowed
  | userTrackLimit => below (counts.ofUser track.requester + pending) limits.userMaxTracks
  | trackLimit => below (counts.total + pending) limits.maxTracks
  | trackLength =>
    match track.duration? with
    | some duration => below duration.toNat limits.maxTrackLengthMillis
    | none => limits.maxTrackLengthMillis.isNone

def written (limit : Option UInt64) (write : Nat → String) : String :=
  match limit with
  | some limit => write limit.toNat
  | none => "ILIMITADO"

def message (rule : LimitRule) (limits : GuildLimits) : String :=
  match rule with
  | noPlaylist => "Las playlists están deshabilitadas en este servidor"
  | userTrackLimit =>
    "No puedes tener más de " ++ written limits.userMaxTracks decimal ++
      " canciones en la cola"
  | trackLimit =>
    "La cola está llena (máximo " ++ written limits.maxTracks decimal ++ " canciones)"
  | trackLength =>
    "La canción supera la duración máxima (" ++
      written limits.maxTrackLengthMillis Span.ofMillis ++ ")"

def refusal (rule : LimitRule) (limits : GuildLimits) : LimitStatus where
  allowed := false
  code := rule.code
  message := rule.message limits

end LimitRule

namespace GuildLimits

def brokenRule? (limits : GuildLimits) (track : Track) (counts : TrackCounts) (pending : Nat) :
    Option LimitRule :=
  LimitRule.chain.find? fun rule => ! rule.allows track counts pending limits

def statusOf (limits : GuildLimits) : Option LimitRule → LimitStatus
  | some rule => rule.refusal limits
  | none => LimitStatus.success

/-- The broken rule of every track of a batch whose first track has `pending` tracks before it. -/
def brokenRules (limits : GuildLimits) (counts : TrackCounts) (pending : Nat) :
    List Track → List (Option LimitRule)
  | [] => []
  | track :: rest =>
    limits.brokenRule? track counts pending :: brokenRules limits counts (pending + 1) rest

end GuildLimits

namespace Metrics

def countRefusal (metrics : Metrics) : Option LimitRule → Metrics
  | some rule => metrics.countPrevented rule.name
  | none => metrics

end Metrics

/-- The limits of a guild, or why they cannot be had. -/
abbrev LimitsAnswer := Except String GuildLimits

namespace Admission

/-- Check one track when `pending` tracks are counted besides those held. -/
def check (answer : LimitsAnswer) (track : Track) (level : PermissionLevel)
    (counts : TrackCounts) (pending : Nat) (metrics : Metrics) :
    Except String LimitStatus × Metrics :=
  if level.isElevated then (.ok .success, metrics)
  else
    match answer with
    | .error cause => (.error cause, metrics)
    | .ok limits =>
      let rule := limits.brokenRule? track counts pending
      (.ok (limits.statusOf rule), metrics.countRefusal rule)

def checkAll (answer : LimitsAnswer) (tracks : List Track) (level : PermissionLevel)
    (counts : TrackCounts) (metrics : Metrics) : Except String (List LimitStatus) × Metrics :=
  if level.isElevated then (.ok (tracks.map fun _ => .success), metrics)
  else
    match answer with
    | .error cause => (.error cause, metrics)
    | .ok limits =>
      let rules := limits.brokenRules counts 0 tracks
      (.ok (rules.map limits.statusOf), rules.foldl Metrics.countRefusal metrics)

end Admission

end Jukebox
