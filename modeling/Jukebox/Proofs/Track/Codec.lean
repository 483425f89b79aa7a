import Jukebox.Player.Restore
import Jukebox.Proofs.Text.Base64
import Jukebox.Proofs.Json.Records

/-!
The audio of a blob is the audio that was written, whatever its texts and numbers are; so a saved
track gives back what was asked for.
-/
namespace Jukebox

theorem trimBlanks_of_not_blank {text : String} (h : ∀ c ∈ text.toList, isBlank c = false) :
    trimBlanks text = text := by
  have hkept (chars : List Char) (hchars : ∀ c ∈ chars, isBlank c = false) :
      chars.dropWhile isBlank = chars := by
    cases chars with
    | nil => rfl
    | cons c rest => exact List.dropWhile_cons_of_neg (by simp [hchars c List.mem_cons_self])
  rw [trimBlanks, hkept _ h, hkept _ (by simpa using h), List.reverse_reverse, String.ofList_toList]

namespace Audio

theorem toJson_valid (audio : Audio) : audio.toJson.Valid := by
  have hauthor := Json.valid_ofOption Json.valid_string audio.author
  have huri := Json.valid_ofOption Json.valid_string audio.uri
  have hlength := Json.valid_ofWord audio.lengthMillis
  exact ⟨rfl, rfl, rfl, rfl, rfl, hauthor, rfl, huri, rfl, hlength, rfl, trivial, rfl, trivial,
    trivial⟩

theorem ofJson?_toJson (audio : Audio) : ofJson? audio.toJson = some audio := by
  have hread : ∀ text : String, (Json.Value.string text).text? = some text := fun _ => rfl
  have hnull : ∀ text : String, Json.Value.string text ≠ .null := fun _ => nofun
  have hstring := Json.optional_ofOption hread hnull
  have hnames : ["identifier", "title", "author", "uri", "lengthMillis", "isStream",
      "isSeekable"].Nodup := by decide
  have hfields : audio.toJson.fields? ["identifier", "title", "author", "uri", "lengthMillis",
      "isStream", "isSeekable"] = _ := Json.fields?_record hnames
  simp only [ofJson?, hfields, List.map_cons, List.map_nil, hstring, Json.required,
    Option.bind_some, Json.word?_ofWord]
  rfl

/-- A blob decodes to the audio that it was made of. -/
theorem decode_encode (audio : Audio) : decode audio.encode = .ok audio := by
  have hblank : ∀ c ∈ audio.encode.toList, isBlank c = false := by
    intro c hc
    rw [encode, String.toList_ofList] at hc
    exact Base64.not_isBlank_of_mem_encode hc
  have hbytes : Base64.decode? audio.encode.toList =
      some audio.toJson.compact.toUTF8.data.toList := by
    rw [encode, String.toList_ofList, Base64.decode?_encode]
  simp only [decode, trimBlanks_of_not_blank hblank, hbytes,
    Json.parseBytes?_compact audio.toJson_valid, Option.bind_some, ofJson?_toJson]

end Audio

namespace SavedTrack

/-- Nothing but the audio, the requester and the chapter is saved. -/
theorem ofTrack_congr {track other : Track} (haudio : track.audio = other.audio)
    (hrequester : track.requester = other.requester) (hchapter : track.chapter = other.chapter) :
    ofTrack track = ofTrack other := by
  simp only [ofTrack, Track.title, haudio, hrequester, hchapter]

theorem chapter?_ofTrack (track : Track) : (ofTrack track).chapter? = track.chapter := by
  cases hchapter : track.chapter with
  | none => simp [chapter?, ofTrack, hchapter]
  | some chapter => simp [chapter?, ofTrack, Track.title, hchapter]

/-- A saved track comes back as a new request for the same part of the same audio. -/
theorem restore_ofTrack (track : Track) (mint : Mint) :
    (ofTrack track).restore mint =
      (.ok { (mint.request track.audio track.requester).1 with chapter := track.chapter },
        (mint.request track.audio track.requester).2) := by
  have hdecode : Audio.decode (ofTrack track).serializedPayload = .ok track.audio :=
    Audio.decode_encode track.audio
  simp only [restore, hdecode, chapter?_ofTrack]
  rfl

structure Renewed (saved : List SavedTrack) (tracks : List Track) : Prop where
  same : tracks.map ofTrack = saved
  ordinary : ∀ track ∈ tracks, track.isPriority = false

theorem restoreAll_ofTracks (tracks : List Track) (mint : Mint) :
    ∃ renewed, (restoreAll (tracks.map ofTrack) mint).1 = renewed.map some ∧
      Renewed (tracks.map ofTrack) renewed := by
  induction tracks generalizing mint with
  | nil => exact ⟨[], rfl, rfl, fun _ htrack => absurd htrack List.not_mem_nil⟩
  | cons track rest ih =>
    obtain ⟨renewed, heq, hsame, hordinary⟩ := ih (mint.request track.audio track.requester).2
    refine ⟨{ (mint.request track.audio track.requester).1 with chapter := track.chapter } ::
      renewed, ?_, ?_, ?_⟩
    · simp only [List.map_cons, restoreAll, restore_ofTrack, heq]
      rfl
    · rw [List.map_cons, List.map_cons, hsame, ofTrack_congr rfl rfl rfl]
      rfl
    · intro other hother
      rcases List.mem_cons.mp hother with rfl | hlater
      · rfl
      · exact hordinary other hlater

end SavedTrack

/-- A snapshot of saved tracks gives all of them back. -/
theorem PlayerSnapshot.renewed_tracksFrom {snapshot : PlayerSnapshot} {tracks : List Track}
    (h : snapshot.tracks = tracks.map SavedTrack.ofTrack) (mint : Mint) :
    SavedTrack.Renewed snapshot.tracks (snapshot.tracksFrom mint).1 := by
  obtain ⟨renewed, heq, hsame, hordinary⟩ := SavedTrack.restoreAll_ofTracks tracks mint
  have htracks : (snapshot.tracksFrom mint).1 =
      (SavedTrack.resumeFirst snapshot.positionMillis (renewed.map some)).filterMap id := by
    rw [← heq, ← h]
    rfl
  rw [htracks, h]
  cases renewed with
  | nil => exact ⟨hsame, fun _ htrack => absurd htrack List.not_mem_nil⟩
  | cons track rest =>
    have hfirst : ∃ first, SavedTrack.ofTrack first = SavedTrack.ofTrack track ∧
        first.isPriority = false ∧
        SavedTrack.resumeFirst snapshot.positionMillis ((track :: rest).map some) =
          (first :: rest).map some := by
      cases hposition : snapshot.positionMillis with
      | none => exact ⟨track, rfl, hordinary track List.mem_cons_self, rfl⟩
      | some position =>
        exact ⟨track.resumingAt position, rfl, hordinary track List.mem_cons_self, rfl⟩
    obtain ⟨first, hsaved, hpriority, hresumed⟩ := hfirst
    rw [hresumed, List.filterMap_map]
    refine ⟨?_, ?_⟩
    · simpa [hsaved] using hsame
    · intro other hother
      rcases List.mem_cons.mp (by simpa using hother) with rfl | hlater
      · exact hpriority
      · exact hordinary other (List.mem_cons_of_mem track hlater)

end Jukebox
