import Jukebox.Proofs.Text.Numerals
import Jukebox.Proofs.Storage.Paths
import Jukebox.Storage.Basic

/-!
The file names of guilds. A guild is found again from the name of its file, so no two guilds share
one, and each name fits into a directory.
-/
namespace Jukebox.Storage

open Jukebox.Path

theorem toList_fileName (guild : UInt64) : (fileName guild).toList =
    "guild_".toList ++ (Digits.chars (Digits.ofNat guild.toNat) ++ ".json".toList) := by
  simp only [fileName, String.toList_append, decimal, String.toList_ofList, List.append_assoc]

theorem guildOfName?_fileName (guild : UInt64) : guildOfName? (fileName guild) = some guild := by
  have hprefix : "guild_".toList.isPrefixOf (fileName guild).toList = true := by
    rw [List.isPrefixOf_iff_prefix, toList_fileName]
    exact List.prefix_append _ _
  have hsuffix : ".json".toList.isSuffixOf (fileName guild).toList = true := by
    rw [List.isSuffixOf_iff_suffix, toList_fileName, ← List.append_assoc]
    exact List.suffix_append _ _
  have hmiddle : ((fileName guild).toList.drop "guild_".toList.length).take
      ((fileName guild).toList.length - "guild_".toList.length - ".json".toList.length) =
      Digits.chars (Digits.ofNat guild.toNat) := by
    rw [toList_fileName, List.drop_left, List.length_append, List.length_append,
      Nat.add_sub_cancel_left, Nat.add_sub_cancel, List.take_left]
  simp only [guildOfName?, hprefix, hsuffix, Bool.and_self, if_true, hmiddle]
  exact Numeral.readWord?_decimal guild

theorem fileName_injective {guild other : UInt64} (h : fileName guild = fileName other) :
    guild = other := by
  have hsame := guildOfName?_fileName guild
  rw [h, guildOfName?_fileName] at hsame
  exact (Option.some.inj hsame).symm

theorem size_fileName_le (guild : UInt64) : (fileName guild).utf8ByteSize ≤ 31 := by
  have hnumber := Numeral.size_decimal_word_le guild
  have hopening : "guild_".utf8ByteSize = 6 := rfl
  have hending : ".json".utf8ByteSize = 5 := rfl
  rw [fileName, String.utf8ByteSize_append, String.utf8ByteSize_append]
  omega

theorem le_size_fileName (guild : UInt64) : 11 ≤ (fileName guild).utf8ByteSize := by
  have hopening : "guild_".utf8ByteSize = 6 := rfl
  have hending : ".json".utf8ByteSize = 5 := rfl
  rw [fileName, String.utf8ByteSize_append, String.utf8ByteSize_append]
  omega

theorem head_toList_fileName (guild : UInt64) (ending : String) :
    (fileName guild ++ ending).toList.head? = some 'g' := by
  rw [String.toList_append, toList_fileName]
  rfl

/-- What begins with a letter is a name, if it fits. -/
theorem isName_of_head {name : String} (hfirst : name.toList.head? = some 'g')
    (hsize : name.utf8ByteSize ≤ Disk.maxNameBytes) : IsName name := by
  have hne {other : String} (h : other.toList.head? ≠ some 'g') : name ≠ other :=
    fun heq => h (heq ▸ hfirst)
  exact ⟨hne (by decide), hne (by decide), hne (by decide), decide_eq_true hsize⟩

theorem isName_fileName (guild : UInt64) : IsName (fileName guild) := by
  have hfirst := head_toList_fileName guild ""
  rw [String.append_empty] at hfirst
  exact isName_of_head hfirst (Nat.le_trans (size_fileName_le guild) (by decide))

theorem fileName_unbroken (guild : UInt64) : (fileName guild).contains '\x00' = false := by
  rw [String.contains_char_eq, decide_eq_false_iff_not, toList_fileName]
  intro hmem
  rcases List.mem_append.mp hmem with hopening | hmem
  · exact absurd hopening (by decide)
  · rcases List.mem_append.mp hmem with hdigit | hending
    · obtain ⟨digit, hdigit, heq⟩ := List.mem_map.mp hdigit
      exact (Digits.char_ascii digit (Digits.lt_ten_of_mem_ofNat hdigit)).2.2 heq
    · exact absurd hending (by decide)

/-! ### The names of drafts -/

theorem isName_draft (guild : UInt64) : IsName (fileName guild ++ ".tmp") := by
  have hname := size_fileName_le guild
  have hending : ".tmp".utf8ByteSize = 4 := rfl
  refine isName_of_head (head_toList_fileName guild ".tmp") ?_
  rw [String.utf8ByteSize_append, hending]
  exact Nat.le_trans (Nat.add_le_add_right hname 4) (by decide)

theorem draft_unbroken (guild : UInt64) :
    (fileName guild ++ ".tmp").contains '\x00' = false := by
  have hname := fileName_unbroken guild
  rw [String.contains_char_eq, decide_eq_false_iff_not] at hname ⊢
  rw [String.toList_append]
  intro hmem
  exact (List.mem_append.mp hmem).elim hname (by decide)

/-- No draft has the name of a file. -/
theorem fileName_ne_draft (guild other : UInt64) : fileName other ≠ fileName guild ++ ".tmp" := by
  intro heq
  have hlast : (fileName other).toList.getLast? = some 'n' := by
    rw [toList_fileName, ← List.append_assoc, List.getLast?_append]
    rfl
  have hdraft : (fileName guild ++ ".tmp").toList.getLast? = some 'p' := by
    rw [String.toList_append, List.getLast?_append]
    rfl
  rw [heq, hdraft] at hlast
  exact absurd hlast (by decide)

/-! ### The paths of the files -/

theorem isName_servers : IsName "servers" := ⟨by decide, by decide, by decide, by decide⟩

theorem isName_players : IsName "players" := ⟨by decide, by decide, by decide, by decide⟩

theorem serversDir_eq (dataDir : Path) : serversDir dataDir = dataDir.stem ++ ["servers"] :=
  join_eq dataDir "servers"

theorem playersDir_eq (dataDir : Path) : playersDir dataDir = dataDir.stem ++ ["players"] :=
  join_eq dataDir "players"

theorem join_fileName (dataDir : Path) (guild : UInt64) :
    (serversDir dataDir).join (fileName guild) = serversDir dataDir ++ [fileName guild] := by
  rw [join_eq, serversDir_eq, stem_append _ isName_servers.ne_empty]

theorem join_players (dataDir : Path) (name : String) :
    (playersDir dataDir).join name = playersDir dataDir ++ [name] := by
  rw [join_eq, playersDir_eq, stem_append _ isName_players.ne_empty]

structure Roomy (dataDir : Path) : Prop where
  unbroken : dataDir.stem.isBroken = false
  short : ∀ guild, ((serversDir dataDir).join (fileName guild)).tooLong = false

/-- A path of no more than some four thousand bytes leaves room for the files. -/
theorem short_of_size {dataDir : Path} (h : dataDir.text.utf8ByteSize + 40 ≤ maxBytes)
    (guild : UInt64) : ((serversDir dataDir).join (fileName guild)).tooLong = false := by
  have hservers : "servers".utf8ByteSize = 7 := rfl
  have hname := size_fileName_le guild
  refine short_join_join ?_
  omega

/-- And a little less for drafts. -/
theorem short_draft_of_size {dataDir : Path} (h : dataDir.text.utf8ByteSize + 44 ≤ maxBytes)
    (guild : UInt64) :
    ((playersDir dataDir).join (fileName guild ++ ".tmp")).tooLong = false := by
  have hplayers : "players".utf8ByteSize = 7 := rfl
  have hending : ".tmp".utf8ByteSize = 4 := rfl
  have hname := size_fileName_le guild
  refine short_join_join ?_
  rw [String.utf8ByteSize_append]
  omega

variable {dataDir : Path} (h : Roomy dataDir)

include h

theorem Roomy.size_stem : dataDir.stem.text.utf8ByteSize + 1 + 7 ≤ maxBytes := by
  have hfile : (text (serversDir dataDir ++ [fileName 0])).utf8ByteSize ≤ maxBytes := by
    rw [← join_fileName]
    exact Nat.not_lt.mp (of_decide_eq_false (h.short 0))
  have hne : dataDir.stem ++ ["servers"] ≠ [] := List.concat_ne_nil _ _
  rw [serversDir_eq, size_append hne] at hfile
  have hstem := le_size_append dataDir.stem "servers"
  have hname := le_size_fileName 0
  omega

theorem Roomy.sound_serversDir : Sound (dataDir.stem ++ ["servers"]) := by
  have hplain : "servers".contains '\x00' = false := by
    rw [String.contains_char_eq]
    decide
  exact sound_append isName_servers.ne_empty h.unbroken hplain h.size_stem

theorem Roomy.sound_playersDir : Sound (dataDir.stem ++ ["players"]) := by
  have hplain : "players".contains '\x00' = false := by
    rw [String.contains_char_eq]
    decide
  exact sound_append isName_players.ne_empty h.unbroken hplain h.size_stem

theorem Roomy.sound_serverFile (guild : UInt64) :
    Sound (serversDir dataDir ++ [fileName guild]) where
  text_ne := text_append_ne _ (isName_fileName guild).ne_empty
  unbroken := by
    rw [isBroken_append, fileName_unbroken, serversDir_eq, h.sound_serversDir.unbroken]
    rfl
  short := by
    rw [← join_fileName]
    exact h.short guild

theorem Roomy.find_serversDir (disk : Disk) :
    disk.find (serversDir dataDir) = disk.walk (serversDir dataDir) := by
  rw [serversDir_eq, Disk.find_append h.sound_serversDir isName_servers.ne_empty]

theorem Roomy.find_playersDir (disk : Disk) :
    disk.find (playersDir dataDir) = disk.walk (playersDir dataDir) := by
  rw [playersDir_eq, Disk.find_append h.sound_playersDir isName_players.ne_empty]

omit h in
/-- Where the directory of the configurations is found, its files have paths that can be followed,
unless these are too long. -/
theorem roomy_of_find {disk : Disk} {spot : Spot}
    (hfind : disk.find (serversDir dataDir) = .ok spot)
    (hshort : ∀ guild, ((serversDir dataDir).join (fileName guild)).tooLong = false) :
    Roomy dataDir := by
  have hunbroken := (Disk.sound_of_find hfind).unbroken
  rw [serversDir_eq, isBroken_append, Bool.or_eq_false_iff] at hunbroken
  exact ⟨hunbroken.1, hshort⟩

/-! ### The paths of the snapshots -/

variable (hdrafts : ∀ guild, ((playersDir dataDir).join (fileName guild ++ ".tmp")).tooLong = false)

include hdrafts

theorem Roomy.sound_draftFile (guild : UInt64) :
    Sound (playersDir dataDir ++ [fileName guild ++ ".tmp"]) where
  text_ne := text_append_ne _ (isName_draft guild).ne_empty
  unbroken := by
    rw [isBroken_append, draft_unbroken, playersDir_eq, h.sound_playersDir.unbroken]
    rfl
  short := by
    rw [← join_players]
    exact hdrafts guild

theorem Roomy.sound_playerFile (guild : UInt64) :
    Sound (playersDir dataDir ++ [fileName guild]) where
  text_ne := text_append_ne _ (isName_fileName guild).ne_empty
  unbroken := by
    rw [isBroken_append, fileName_unbroken, playersDir_eq, h.sound_playersDir.unbroken]
    rfl
  short := by
    have hdraft := (h.sound_draftFile hdrafts guild).short
    have hne : playersDir dataDir ≠ [] := playersDir_eq dataDir ▸ List.concat_ne_nil _ _
    simp only [tooLong, decide_eq_false_iff_not, Nat.not_lt, size_append hne,
      String.utf8ByteSize_append] at hdraft ⊢
    omega

omit h in
/-- Both directories have names of the same length, so there is room for configurations where there
is room for drafts of snapshots. -/
theorem short_of_drafts (guild : UInt64) :
    ((serversDir dataDir).join (fileName guild)).tooLong = false := by
  have hsize : (text (serversDir dataDir)).utf8ByteSize =
      (text (playersDir dataDir)).utf8ByteSize := by
    rw [serversDir_eq, playersDir_eq]
    cases hstem : dataDir.stem with
    | nil => rfl
    | cons piece rest =>
      rw [size_append (List.cons_ne_nil _ _), size_append (List.cons_ne_nil _ _)]
      rfl
  have hservers : serversDir dataDir ≠ [] := serversDir_eq dataDir ▸ List.concat_ne_nil _ _
  have hplayers : playersDir dataDir ≠ [] := playersDir_eq dataDir ▸ List.concat_ne_nil _ _
  have hdraft := hdrafts guild
  rw [join_players] at hdraft
  rw [join_fileName]
  simp only [tooLong, decide_eq_false_iff_not, Nat.not_lt, size_append hservers,
    size_append hplayers, String.utf8ByteSize_append] at hdraft ⊢
  omega

end Jukebox.Storage
