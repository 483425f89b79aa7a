import Jukebox.Storage.Basic

/-!
Where the registry keeps snapshots: in memory, with faults that can be set for single guilds, or on
disk. What is kept in memory has no files, and a snapshot without tracks is kept like any other.
-/
namespace Jukebox

/-- The guilds for which a request to the memory goes wrong. -/
structure StoreFaults where
  failingLoads : List GuildId := []
  breakingLoads : List GuildId := []
  failingSaves : List GuildId := []
  hangingSaves : List GuildId := []

structure MemoryStore where
  snapshots : List (GuildId × PlayerSnapshot) := []
  /-- How often a snapshot was asked for. -/
  loads : Nat := 0
  faults : StoreFaults := {}

inductive SnapshotStore
  | memory (store : MemoryStore)
  | disk (storage : Storage)

/-- What comes of asking for a snapshot. -/
inductive LoadAnswer
  | found (snapshot : Option PlayerSnapshot)
  | failed (cause : String)
  /-- The request broke off without an answer. -/
  | broken

inductive SaveAnswer
  | saved
  | failed
  /-- The request has no end. -/
  | hanging
deriving DecidableEq

namespace MemoryStore

def load (store : MemoryStore) (guild : GuildId) : LoadAnswer × MemoryStore :=
  let asked := { store with loads := store.loads + 1 }
  if guild ∈ store.faults.breakingLoads then (.broken, asked)
  else if guild ∈ store.faults.failingLoads then (.failed "base de datos caída", asked)
  else (.found (store.snapshots.lookup guild), asked)

def save (store : MemoryStore) (guild : GuildId) (snapshot : PlayerSnapshot) :
    SaveAnswer × MemoryStore :=
  if guild ∈ store.faults.hangingSaves then (.hanging, store)
  else if guild ∈ store.faults.failingSaves then (.failed, store)
  else (.saved, { store with
    snapshots := (guild, snapshot) :: store.snapshots.filter (·.1 ≠ guild) })

end MemoryStore

namespace SnapshotStore

def load (guild : GuildId) : SnapshotStore → LoadAnswer × SnapshotStore
  | memory store =>
    let (answer, store) := store.load guild
    (answer, memory store)
  | disk storage =>
    match storage.loadSnapshot guild with
    | .ok snapshot => (.found snapshot, disk storage)
    | .error error => (.failed (error.message?.getD ""), disk storage)

def save (guild : GuildId) (snapshot : PlayerSnapshot) :
    SnapshotStore → SaveAnswer × SnapshotStore
  | memory store =>
    let (answer, store) := store.save guild snapshot
    (answer, memory store)
  | disk storage =>
    match storage.saveSnapshot guild snapshot with
    | (.ok (), storage) => (.saved, disk storage)
    | (.error _, storage) => (.failed, disk storage)

end SnapshotStore

end Jukebox
