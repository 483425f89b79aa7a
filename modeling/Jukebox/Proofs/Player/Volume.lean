import Jukebox.Proofs.Json.ReadableSingles
import Jukebox.Proofs.Player.Traffic
import Jukebox.Proofs.Queue.Run
import Jukebox.Proofs.Storage.SnapshotFiles

/-!
The volume of a player. It is set in three ways. A new player and a restored snapshot have it
clamped, while a member's wish outside the range is refused. Clamping leaves alone what is no
number, and nothing else leads out of the range. So in all traffic the volume is in range, and so is
whatever the node is told, exactly if nobody gives the player what is no number. A volume in range
is a number in JSON, and then the snapshot reads back, while what is no number is written as null,
which makes the whole snapshot unreadable.
-/
namespace Jukebox

theorem Single.le_of_not_lt {a b : Single} (ha : a.isNaN = false) (hb : b.isNaN = false)
    (h : b.lt a ≠ true) : a.le b = true := by
  simpa [lt, le, ha, hb] using h

namespace Player

variable {volume : Single}

theorem isNaN_of_valid (h : validVolume volume = true) : volume.isNaN = false := by
  by_contra hnan
  rw [Bool.not_eq_false] at hnan
  rw [validVolume, Bool.and_eq_true, Single.le_of_isNaN hnan] at h
  exact Bool.false_ne_true h.2

/-- The range ends far below infinity. -/
theorem isFinite_of_valid (h : validVolume volume = true) : volume.isFinite = true := by
  simp only [validVolume, Single.le, Bool.and_eq_true, decide_eq_true_eq] at h
  obtain ⟨⟨-, hlow⟩, -, hhigh⟩ := h
  rw [show Single.zero.rank = 0 by decide] at hlow
  rw [show maxVolume.rank = 0x3fc00000 by decide] at hhigh
  apply decide_eq_true
  cases hsign : volume.isNegative with
  | true =>
    rw [Single.rank, hsign, if_pos rfl] at hlow
    omega
  | false =>
    rw [Single.rank, hsign, if_neg Bool.false_ne_true] at hhigh
    omega

/-- Only what is no number is out of range after it has been clamped. -/
theorem validVolume_clamp (volume : Single) :
    validVolume (volume.clamp .zero maxVolume) = ! volume.isNaN := by
  cases hnan : volume.isNaN with
  | true =>
    have hsame : volume.clamp .zero maxVolume = volume := by
      simp [Single.clamp, Single.lt, hnan]
    rw [hsame, validVolume, Single.le_of_isNaN hnan, Bool.and_false, Bool.not_true]
  | false =>
    dsimp only [Single.clamp]
    by_cases hlow : volume.lt .zero = true
    · rw [if_pos hlow]
      decide
    · rw [if_neg hlow]
      by_cases hhigh : maxVolume.lt volume = true
      · rw [if_pos hhigh]
        decide
      · have hle := Single.le_of_not_lt (by decide) hnan hlow
        have hge := Single.le_of_not_lt hnan (by decide) hhigh
        rw [if_neg hhigh, validVolume, hle, hge, Bool.and_true, Bool.not_false]

/-- A valid volume stays valid, and the node is told valid volumes only, unless a snapshot brings
what is no number. -/
theorem conduct_volume :
    Conduct (fun player => validVolume player.volume = true)
      (fun command => ∀ volume, command = .volume volume → validVolume volume = true)
      fun volume => volume.isNaN = false where
  queue := fun _ h => h
  past := fun _ _ h => h
  idle := fun h => h
  chosen := fun _ _ h => h
  paused := fun _ h => h
  volume := fun hvalid _ => hvalid
  clamped := fun hbrings _ => by rw [validVolume_clamp, hbrings, Bool.not_false]
  closed := fun _ h => h
  asks := by
    rintro _ hkind volume rfl
    exact absurd rfl hkind
  sets := by
    rintro volume hvalid _ heq
    cases heq
    exact hvalid
  tells := by
    rintro player hplayer _ heq
    cases heq
    exact hplayer

end Player

/-! ### What becomes of a snapshot -/

namespace PlayerSnapshot

/-- The text of a snapshot reads back, with a number for the volume, and whoever saves the snapshot
can load it. -/
def Survives (snapshot : PlayerSnapshot) : Prop :=
  ∃ volume, volume.isNaN = false ∧
    (Json.parse? snapshot.toJson.pretty).bind ofJson? = some { snapshot with volume } ∧
    ∀ (storage : Storage) (text? : GuildId → Option String) (guild : GuildId),
      storage.HasTexts text? →
      ∃ next, storage.saveSnapshot guild snapshot = (.ok (), next) ∧
        next.loadSnapshot guild =
          .ok (if snapshot.tracks.isEmpty then none else some { snapshot with volume })

theorem survives_of_isFinite {snapshot : PlayerSnapshot} (h : snapshot.volume.isFinite = true) :
    snapshot.Survives := by
  obtain ⟨volume, hvolume⟩ := Single.exists_single?_toJson h
  refine ⟨volume, Json.Value.isNaN_of_single? hvolume, ?_, ?_⟩
  · rw [ofJson?_parse?_pretty_eq, hvolume, Option.map_some]
  · exact fun storage text? guild htexts => htexts.load_saved guild hvolume

/-- The volume decides whether the text reads back at all. -/
theorem isSome_ofJson?_parse?_pretty (snapshot : PlayerSnapshot) :
    ((Json.parse? snapshot.toJson.pretty).bind ofJson?).isSome = snapshot.volume.isFinite := by
  rw [ofJson?_parse?_pretty_eq, Option.isSome_map, Single.isSome_single?_toJson]

/-- What is read has a number for the volume. -/
theorem isNaN_of_ofJson? {value : Json.Value} {snapshot : PlayerSnapshot}
    (h : ofJson? value = some snapshot) : snapshot.volume.isNaN = false := by
  unfold ofJson? at h
  split at h
  · simp only [Option.bind_eq_bind, Option.bind_eq_some_iff, Option.pure_def,
      Option.some.injEq] at h
    obtain ⟨_, -, _, -, _, -, volume, hvolume, _, -, _, -, _, -, rfl⟩ := h
    obtain ⟨_, -, hread⟩ := Option.bind_eq_some_iff.mp hvolume
    exact Json.Value.isNaN_of_single? hread
  · cases h

end PlayerSnapshot

/-! ### Before the first wait -/

def Flow.session {α : Type} : Flow α → Session
  | .ended session _ => session
  | .waiting session _ _ => session

namespace Operation

variable {α β : Type}

/-- Nothing is changed before the operation has ended, or has asked the node for something. -/
def Hesitates (operation : Operation α) : Prop := ∀ session, (operation session).session = session

theorem session_ignoring (operation : Operation α) (session : Session) :
    (operation.ignoring session).session = (operation session).session := by
  change ((operation session).settle.andThen _).session = _
  cases operation session <;> rfl

theorem Hesitates.ignoring {operation : Operation α} (h : operation.Hesitates) :
    operation.ignoring.Hesitates := fun session =>
  (session_ignoring operation session).trans (h session)

theorem Hesitates.bind {operation : Operation α} (h : operation.Hesitates)
    {next : α → Operation β} (hnext : ∀ value, (next value).Hesitates) :
    (operation >>= next).Hesitates := by
  intro session
  have hsession := h session
  change ((operation session).andThen next).session = session
  cases hflow : operation session with
  | ended later outcome =>
    rw [hflow] at hsession
    cases outcome with
    | ok value => exact (hnext value later).trans hsession
    | error cause => exact hsession
  | waiting later command resume =>
    rw [hflow] at hsession
    exact hsession

theorem hesitates_pure (value : α) : (pure value : Operation α).Hesitates := fun _ => rfl

theorem hesitates_get (read : Session → α) : (get read).Hesitates := fun _ => rfl

theorem hesitates_ask (command : Command) : (ask command).Hesitates := fun _ => rfl

end Operation

namespace Session

open Operation

theorem hesitates_join (channel : ChannelId) : (join channel).Hesitates := by
  apply Hesitates.bind
  · apply (hesitates_get _).bind
    intro destroyed
    cases destroyed with
    | true => exact fun _ => rfl
    | false => exact hesitates_pure ()
  · intro _
    apply (hesitates_get _).bind
    intro current
    by_cases hthere : current = some channel
    · rw [if_pos hthere]
      exact hesitates_pure ()
    · rw [if_neg hthere]
      exact hesitates_ask _

/-- What a snapshot brings is taken over before the node is asked for anything. -/
theorem session_restore (snapshot : PlayerSnapshot) (session : Session) :
    (restore snapshot true session).session = (takeOver snapshot true session).2 := by
  have htell (count : Nat) : (do
      let volume ← get (·.player.volume)
      (ask (.volume volume)).ignoring
      if ! snapshot.paused then (startIfIdle true).ignoring
      setShuffle snapshot.shuffled
      return count : Operation Nat).Hesitates := fun _ => rfl
  unfold restore
  cases snapshot.channelRef with
  | none => exact htell _ _
  | some channel => exact ((hesitates_join channel).ignoring.bind fun _ => htell _) _

end Session

/-! ### In traffic -/

namespace Traffic

/-- From a start on, the volume is in range after every part of a run, the node is told no volume
that is not, and what is saved of the player survives. -/
structure InRange (start : Traffic) (events : List TrafficEvent) : Prop where
  level : ∀ past, past <+: events →
    Player.validVolume (start.run past).session.player.volume = true
  number : ∀ past, past <+: events → (start.run past).session.player.volume.isNaN = false
  sent : ∀ volume, .volume volume ∈ start.sent events → Player.validVolume volume = true
  saved : ∀ past, past <+: events → (start.run past).session.snapshot.Survives

theorem session_goOn (traffic : Traffic) (flow : Flow Unit) :
    (traffic.goOn flow).session = flow.session := by
  cases flow <;> rfl

theorem volume_restoring (traffic : Traffic) (snapshot : PlayerSnapshot) :
    (traffic.step (.starts (.restore snapshot true))).session.player.volume =
      snapshot.volume.clamp .zero maxVolume := by
  rw [step, session_goOn, PlayerStep.operation, Operation.session_ignoring, Session.session_restore]
  rfl

theorem inRange_of_numbers {session : Session} {dice : Dice} {volume : Single}
    {events : List TrafficEvent} (hvolume : volume.isNaN = false)
    (hbrings : ∀ snapshot, .starts (.restore snapshot true) ∈ events →
      snapshot.volume.isNaN = false) : (opening session dice volume).InRange events := by
  have hfresh : Player.validVolume (Player.fresh dice volume).volume = true := by
    rw [Player.fresh, Player.validVolume_clamp, hvolume, Bool.not_false]
  have hopening : (opening session dice volume).Abides
      (fun player => Player.validVolume player.volume = true)
      fun command => ∀ volume, command = .volume volume → Player.validVolume volume = true :=
    abides_opening hfresh
  have hlevel : ∀ past, past <+: events → Player.validVolume
      ((opening session dice volume).run past).session.player.volume = true := by
    intro past hpast
    have hrun := hopening.run Player.conduct_volume fun snapshot hmem =>
      hbrings snapshot (hpast.subset hmem)
    exact hrun.1.now
  refine ⟨hlevel, fun past hpast => Player.isNaN_of_valid (hlevel past hpast), ?_, ?_⟩
  · intro volume hsent
    exact (hopening.run Player.conduct_volume hbrings).2 _ hsent volume rfl
  · intro past hpast
    exact PlayerSnapshot.survives_of_isFinite (Player.isFinite_of_valid (hlevel past hpast))

/-- So nothing comes of snapshots that were read. -/
theorem inRange_of_texts {session : Session} {dice : Dice} {volume : Single}
    {events : List TrafficEvent} (hvolume : volume.isNaN = false)
    (hread : ∀ snapshot, .starts (.restore snapshot true) ∈ events →
      ∃ text, (Json.parse? text).bind PlayerSnapshot.ofJson? = some snapshot) :
    (opening session dice volume).InRange events := by
  apply inRange_of_numbers hvolume
  intro snapshot hmem
  obtain ⟨text, htext⟩ := hread snapshot hmem
  obtain ⟨value, -, hvalue⟩ := Option.bind_eq_some_iff.mp htext
  exact PlayerSnapshot.isNaN_of_ofJson? hvalue

/-- Whatever operations are started on a new player, answered and given up, and whatever the node
answers: all volumes are in range exactly if the player was not given what is no number, neither to
begin with nor by a snapshot. -/
theorem inRange_iff_numbers (session : Session) (dice : Dice) (volume : Single)
    (events : List TrafficEvent) :
    (opening session dice volume).InRange events ↔ volume.isNaN = false ∧
      ∀ snapshot, .starts (.restore snapshot true) ∈ events → snapshot.volume.isNaN = false := by
  have hnumber {given : Single}
      (hclamped : Player.validVolume (given.clamp .zero maxVolume) = true) :
      given.isNaN = false := by
    rwa [Player.validVolume_clamp, Bool.not_eq_true'] at hclamped
  constructor
  · intro h
    constructor
    · exact hnumber (h.level [] List.nil_prefix)
    · intro snapshot hmem
      obtain ⟨before, after, rfl⟩ := List.append_of_mem hmem
      have hlevel := h.level (before ++ [.starts (.restore snapshot true)]) ⟨after, by simp⟩
      rw [run, List.foldl_append, List.foldl_cons, List.foldl_nil, volume_restoring] at hlevel
      exact hnumber hlevel
  · rintro ⟨hvolume, hbrings⟩
    exact inRange_of_numbers hvolume hbrings

def nanOpening : Traffic := opening sampleSession (.ofSeed 1) .nan

def nanRestored : List TrafficEvent := [.starts (.restore nanOpening.session.snapshot true)]

/-- The node is then told what is no number, and what is saved does not read back. -/
theorem nan_stays :
    ¬ nanOpening.InRange nanRestored ∧ .volume .nan ∈ nanOpening.sent nanRestored ∧
      (Json.parse? (nanOpening.run nanRestored).session.snapshot.toJson.pretty).bind
        PlayerSnapshot.ofJson? = none := by
  have hinvalid : Player.validVolume (nanOpening.run []).session.player.volume = false := by decide
  have hinfinite : (nanOpening.run nanRestored).session.snapshot.volume.isFinite = false := by
    decide
  refine ⟨fun h => ?_, by decide, ?_⟩
  · have hlevel := h.level [] List.nil_prefix
    rw [hinvalid] at hlevel
    exact Bool.false_ne_true hlevel
  · rw [← Option.isNone_iff_eq_none, ← Option.not_isSome,
      PlayerSnapshot.isSome_ofJson?_parse?_pretty, hinfinite, Bool.not_false]

end Traffic

end Jukebox
