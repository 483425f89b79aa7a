/-!
Platform ids. A user, a guild or a channel is named by a 64-bit word that is never zero. The three
kinds share their rules but cannot be taken for each other.
-/
namespace Jukebox

/-- What a platform id can name. -/
inductive Entity
  | user
  | guild
  | channel
deriving DecidableEq

/-- The id of one entity of the given kind. -/
@[ext]
structure Snowflake (entity : Entity) where
  word : UInt64
  word_ne_zero : word ≠ 0
deriving DecidableEq

abbrev UserId := Snowflake .user

abbrev GuildId := Snowflake .guild

abbrev ChannelId := Snowflake .channel

namespace Snowflake

variable {entity : Entity}

/-- Zero names nothing. -/
def ofWord? (word : UInt64) : Option (Snowflake entity) :=
  if h : word ≠ 0 then some ⟨word, h⟩ else none

theorem ofWord?_word (id : Snowflake entity) : ofWord? id.word = some id := by
  simp [ofWord?, id.word_ne_zero]

theorem ofWord?_eq_some_iff {word : UInt64} {id : Snowflake entity} :
    ofWord? word = some id ↔ id.word = word := by
  constructor
  · intro h
    simp only [ofWord?] at h
    split at h
    · rw [← Option.some.inj h]
    · cases h
  · rintro rfl
    exact ofWord?_word id

end Snowflake

end Jukebox
