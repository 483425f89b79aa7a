/-!
Repeat modes and their names.
-/
namespace Jukebox

/-- What happens to a track that was taken. -/
inductive RepeatMode
  | off
  | single
  | all
deriving DecidableEq

namespace RepeatMode

def name : RepeatMode → String
  | off => "OFF"
  | single => "SINGLE"
  | all => "ALL"

def ofName? (name : String) : Option RepeatMode := [off, single, all].find? (·.name = name)

theorem ofName?_name (mode : RepeatMode) : ofName? mode.name = some mode := by
  cases mode <;> rfl

end RepeatMode

end Jukebox
