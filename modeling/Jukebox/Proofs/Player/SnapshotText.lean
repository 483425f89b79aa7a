import Jukebox.Proofs.Json.Singles
import Jukebox.Proofs.Track.SavedTracks

/-!
Snapshots in writing. A snapshot reads back from its text, tracks and all, if its volume does.
-/
namespace Jukebox

theorem RepeatMode.ofJson?_toJson (mode : RepeatMode) : ofJson? mode.toJson = some mode :=
  ofName?_name mode

namespace PlayerSnapshot

theorem toJson_valid (snapshot : PlayerSnapshot) : snapshot.toJson.Valid :=
  ⟨rfl, trivial, rfl, trivial, rfl, Json.valid_string _, rfl, snapshot.volume.toJson_valid, rfl,
    Json.valid_ofOption Json.valid_ofWord snapshot.positionMillis, rfl,
    Json.valid_ofOption Snowflake.toJson_valid snapshot.channelRef, rfl,
    Json.valid_array SavedTrack.toJson_valid snapshot.tracks, trivial⟩

/-- All of a snapshot but its volume is read as it was written. -/
theorem ofJson?_toJson_eq (snapshot : PlayerSnapshot) :
    ofJson? snapshot.toJson =
      snapshot.volume.toJson.single?.map fun volume => { snapshot with volume } := by
  have hposition := Json.optional_ofOption Json.word?_ofWord (fun _ => nofun)
    snapshot.positionMillis
  have hchannel := Json.optional_ofOption Snowflake.ofJson?_toJson (fun _ => nofun)
    snapshot.channelRef
  have htracks := Json.list?_array SavedTrack.ofJson?_toJson snapshot.tracks
  have hnames : ["paused", "shuffled", "repeatMode", "volume", "positionMillis", "channelRef",
      "tracks"].Nodup := by decide
  have hfields : snapshot.toJson.fields? ["paused", "shuffled", "repeatMode", "volume",
      "positionMillis", "channelRef", "tracks"] = _ := Json.fields?_record hnames
  simp only [ofJson?, hfields, List.map_cons, List.map_nil, Json.required, Option.bind_some,
    RepeatMode.ofJson?_toJson, hposition, hchannel, htracks]
  cases snapshot.volume.toJson.single? <;> rfl

/-- So much for what is written to a file. -/
theorem ofJson?_parse?_pretty_eq (snapshot : PlayerSnapshot) :
    (Json.parse? snapshot.toJson.pretty).bind ofJson? =
      snapshot.volume.toJson.single?.map fun volume => { snapshot with volume } := by
  rw [Json.parse?_pretty snapshot.toJson_valid, Option.bind_some, ofJson?_toJson_eq]

end PlayerSnapshot

end Jukebox
