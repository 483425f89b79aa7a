import Mathlib.Data.List.TakeWhile
import Jukebox.Proofs.Track.Codec
import Jukebox.Proofs.Text.Numerals

/-!
Saved tracks in writing. A track that is saved, written as JSON text and read again asks for the
same part of the same audio on behalf of the same user, whatever characters its texts hold. Blank
characters around a blob do not belong to it.
-/
namespace Jukebox

/-- Blanks at the ends of a text are trimmed off, whatever the text itself begins and ends with. -/
theorem trimBlanks_surrounded {before after : String}
    (hbefore : ∀ c ∈ before.toList, isBlank c = true)
    (hafter : ∀ c ∈ after.toList, isBlank c = true) (text : String) :
    trimBlanks (before ++ text ++ after) = trimBlanks text := by
  have hend : after.toList.dropWhile isBlank = [] := List.dropWhile_eq_nil_iff.mpr hafter
  have hfront : (before ++ text ++ after).toList.dropWhile isBlank =
      (text.toList ++ after.toList).dropWhile isBlank := by
    rw [String.toList_append, String.toList_append, List.append_assoc,
      List.dropWhile_append_of_pos hbefore]
  rw [trimBlanks, trimBlanks, hfront, List.dropWhile_append]
  cases hkept : text.toList.dropWhile isBlank with
  | nil => rw [hend]; rfl
  | cons c rest =>
    have hreverse : ∀ c ∈ after.toList.reverse, isBlank c = true := fun c hc =>
      hafter c (List.mem_reverse.mp hc)
    rw [if_neg (by simp), List.reverse_append, List.dropWhile_append_of_pos hreverse]

/-- Blanks around a blob do not matter. -/
theorem Audio.decode_surrounded {before after : String}
    (hbefore : ∀ c ∈ before.toList, isBlank c = true)
    (hafter : ∀ c ∈ after.toList, isBlank c = true) (blob : String) :
    decode (before ++ blob ++ after) = decode blob := by
  simp only [decode, trimBlanks_surrounded hbefore hafter]

namespace Snowflake

variable {entity : Entity}

theorem toJson_valid (id : Snowflake entity) : id.toJson.Valid := Json.valid_string _

theorem ofJson?_toJson (id : Snowflake entity) : ofJson? id.toJson = some id := by
  change (Numeral.readWord? (decimal id.word.toNat)).bind ofWord? = some id
  rw [Numeral.readWord?_decimal, Option.bind_some, ofWord?_word]

end Snowflake

namespace SavedTrack

theorem toJson_valid (saved : SavedTrack) : saved.toJson.Valid := by
  have hoption := Json.valid_ofOption Json.valid_ofWord
  exact ⟨rfl, Json.valid_string saved.serializedPayload, rfl, saved.requesterId.toJson_valid, rfl,
    hoption saved.startTime, rfl, hoption saved.endTime, rfl, Json.valid_string saved.title,
    trivial⟩

theorem ofJson?_toJson (saved : SavedTrack) : ofJson? saved.toJson = some saved := by
  have hnull : ∀ word : UInt64, Json.Value.ofWord word ≠ .null := fun _ => nofun
  have hword := Json.optional_ofOption Json.word?_ofWord hnull
  have hnames : ["serializedPayload", "requesterId", "startTime", "endTime", "title"].Nodup := by
    decide
  have hfields : saved.toJson.fields? ["serializedPayload", "requesterId", "startTime", "endTime",
      "title"] = _ := Json.fields?_record hnames
  simp only [ofJson?, hfields, List.map_cons, List.map_nil, hword, Json.required,
    Option.bind_some, Snowflake.ofJson?_toJson]
  rfl

/-- A saved track reads back from its text, compact or indented. -/
theorem ofJson?_parse? (saved : SavedTrack) {text : String}
    (htext : text = saved.toJson.compact ∨ text = saved.toJson.pretty) :
    (Json.parse? text).bind ofJson? = some saved := by
  have hread : Json.parse? text = some saved.toJson := by
    rcases htext with rfl | rfl
    · exact Json.parseBytes?_compact saved.toJson_valid
    · exact Json.parse?_pretty saved.toJson_valid
  rw [hread, Option.bind_some, ofJson?_toJson]

/-- A track that was saved and written down comes back with its audio, its requester and its
chapter, and so with all that follows from them; and the blob of its audio may stand between
blanks. -/
theorem track_comes_back (track : Track) {text : String}
    (htext : text = (ofTrack track).toJson.compact ∨ text = (ofTrack track).toJson.pretty)
    (mint : Mint) {before after : String} (hbefore : ∀ c ∈ before.toList, isBlank c = true)
    (hafter : ∀ c ∈ after.toList, isBlank c = true) :
    (∃ saved restored, (Json.parse? text).bind ofJson? = some saved ∧
      (saved.restore mint).1 = .ok restored ∧
      restored.audio = track.audio ∧ restored.requester = track.requester ∧
      restored.chapter = track.chapter ∧ restored.title = track.title ∧
      restored.duration? = track.duration? ∧ restored.startPosition = track.startPosition ∧
      restored.endPosition? = track.endPosition?) ∧
    Audio.decode (before ++ track.audio.encode ++ after) = .ok track.audio := by
  constructor
  · refine ⟨ofTrack track, _, ofJson?_parse? _ htext,
      congrArg Prod.fst (restore_ofTrack track mint), rfl, rfl, rfl, ?_⟩
    -- The rest is read off the audio and the chapter alone.
    exact ⟨rfl, rfl, rfl, rfl⟩
  · rw [Audio.decode_surrounded hbefore hafter, Audio.decode_encode]

def awkwardTrack : Track where
  id := ⟨7⟩
  audio := {
    identifier := "\"\\\x00\n", title := "\u2028ñ😀\x1f", author := none, uri := some ""
    lengthMillis := 18446744073709551615, isStream := false, isSeekable := true }
  requester := ⟨18446744073709551615, by decide⟩
  isPriority := true
  sortKey := prioritySortKey
  fromPlaylist := true
  chapter := some { startMillis := 9, endMillis := 3, title := "\\\"\t" }
  resumeAt := some 5

theorem track_comes_back_awkward :
    (∀ c ∈ "\t\u3000".toList, isBlank c = true) ∧ (∀ c ∈ "\n".toList, isBlank c = true) ∧
    (∃ saved restored,
      (Json.parse? (ofTrack awkwardTrack).toJson.pretty).bind ofJson? = some saved ∧
      (saved.restore { dice := .ofSeed 1 }).1 = .ok restored ∧
      restored.title = "\\\"\t" ∧ restored.duration? = some 0 ∧
      restored.endPosition? = some 3) ∧
    Audio.decode ("\t\u3000" ++ awkwardTrack.audio.encode ++ "\n") = .ok awkwardTrack.audio := by
  have hbefore : ∀ c ∈ "\t\u3000".toList, isBlank c = true := List.all_eq_true.mp (by decide)
  have hafter : ∀ c ∈ "\n".toList, isBlank c = true := List.all_eq_true.mp (by decide)
  obtain ⟨⟨saved, restored, hsaved, hrestored, -, -, -, htitle, hduration, -, hend⟩, hdecode⟩ :=
    track_comes_back awkwardTrack (Or.inr rfl) { dice := .ofSeed 1 } hbefore hafter
  exact ⟨hbefore, hafter, ⟨saved, restored, hsaved, hrestored, htitle, hduration, hend⟩, hdecode⟩

end SavedTrack

end Jukebox
