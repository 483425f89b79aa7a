import Jukebox.Track.Basic

/-!
The shuffled order. Every ordinary track gets a freshly drawn key and the tracks are sorted by
key, stably; priority tracks have the least key and come first as they stand. A key is drawn from
32-bit words by multiplication, throwing away the words that would favour some keys.
-/
namespace Jukebox.Shuffle

def rekeyAll {m : Type → Type} [Monad m] (draw : m Nat) : List Track → m (List Track)
  | [] => return []
  | track :: rest => do
    let track ← track.rekey draw
    let rest ← rekeyAll draw rest
    return track :: rest

/-- The tracks by key; tracks of one key stay in the order given. -/
def byKey (tracks : List Track) : List Track :=
  tracks.mergeSort fun a b => a.sortKey ≤ b.sortKey

/-- The key that a word stands for: the high half of its product with the number of keys. A word
whose low half is among the last ones is refused, which leaves equally many words for each key. -/
def keyOfWord? (word : UInt32) : Option Nat :=
  let product := word.toNat * maxSortKey
  if product % UInt32.size > 4294967293 then none else some (1 + product / UInt32.size)

def firstAccepted? (accept : UInt32 → Option Nat) : List UInt32 → Option (Nat × List UInt32)
  | [] => none
  | word :: rest =>
    match accept word with
    | some value => some (value, rest)
    | none => firstAccepted? accept rest

def keyOfWords? : List UInt32 → Option (Nat × List UInt32) := firstAccepted? keyOfWord?

/-- Rekeyed tracks in the order given, and the words left over; `none` if the words run out. -/
def rekeyFromWords? (tracks : List Track) (words : List UInt32) :
    Option (List Track × List UInt32) :=
  (rekeyAll (m := StateT (List UInt32) Option) keyOfWords? tracks).run words

def rekeyFromDice (tracks : List Track) (dice : Dice) : List Track × Dice :=
  (rekeyAll (m := StateM Dice) Dice.roll tracks).run dice

end Jukebox.Shuffle
