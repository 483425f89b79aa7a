/-!
A disk as a tree of directories and files, and the paths that lead through it. A path is kept as
it is written, cut at its slashes; each of its pieces is followed from directory to directory, so
a dot or a pair of dots leads on only where there is a directory to stand in. Making a directory
with all that it is in starts from the longest path and falls back to shorter ones.
-/
namespace Jukebox

/-- The pieces of a written path. Two slashes in a row, or one at an end, leave an empty piece. -/
abbrev Path := List String

namespace Path

def ofText (text : String) : Path := text.splitOn "/"

def text (path : Path) : String := "/".intercalate path

def maxBytes : Nat := 4095

def tooLong (path : Path) : Bool := maxBytes < path.text.utf8ByteSize

def isBroken (path : Path) : Bool := path.any (·.contains '\x00')

def join (path : Path) (name : String) : Path :=
  if path.getLast? = some "" then path.dropLast ++ [name] else path ++ [name]

def isIdle (piece : String) : Bool := piece = "" || piece = "."

def isAbsolute : Path → Bool
  | "" :: _ :: _ => true
  | _ => false

def endsInSlash (path : Path) : Bool := path.getLast? = some ""

def withoutSlash (path : Path) : Path := (path.reverse.dropWhile (· = "")).reverse

/-- The paths to what a path is in, without idle pieces at their ends, the longest first. They are
given from the last piece to the first. -/
def shorter : List String → List Path
  | [] => []
  | piece :: rest =>
    if isIdle piece then shorter rest else (piece :: rest).reverse :: shorter rest

def parents (path : Path) : List Path := (shorter path.reverse).tail

end Path

/-- A file with its text, or a directory with its entries by name. -/
inductive DiskEntry
  | file (text : String)
  | directory (entries : List (String × DiskEntry))

inductive DiskError
  | notFound
  | alreadyExists
  | notADirectory
  | isADirectory
  | nameTooLong
  | invalid
deriving DecidableEq

/-- The names on the way from the root. -/
abbrev Place := List String

namespace DiskEntry

def isDirectory : DiskEntry → Bool
  | file _ => false
  | directory _ => true

def at? : Place → DiskEntry → Option DiskEntry
  | [], entry => some entry
  | _ :: _, file _ => none
  | name :: rest, directory entries => (entries.lookup name).bind (at? rest)

def change (f : List (String × DiskEntry) → List (String × DiskEntry)) :
    Place → DiskEntry → DiskEntry
  | [], directory entries => directory (f entries)
  | name :: rest, directory entries =>
    directory (entries.map fun (other, entry) =>
      (other, if other = name then change f rest entry else entry))
  | _, file text => file text

mutual

/-- The text of every path from an entry on; directories end in a slash. -/
def texts (path : String) : DiskEntry → List String
  | file _ => [path]
  | directory entries => (path ++ "/") :: textsIn path entries

def textsIn (path : String) : List (String × DiskEntry) → List String
  | [] => []
  | (name, entry) :: rest => texts (path ++ "/" ++ name) entry ++ textsIn path rest

end

end DiskEntry

structure Disk where
  root : DiskEntry := .directory []
  /-- Where the paths start that do not start at the root. -/
  start : Place := []

/-- Where one stands on a disk. -/
structure Spot where
  /-- The names from here to the root. -/
  upward : List String
  entry : DiskEntry

/-- Where a path leads: into a directory, and there to a name. A path that ends in dots, or has no
name at all, names nothing new. -/
structure Target where
  directory : Spot
  name : Option String

namespace Spot

def place (spot : Spot) : Place := spot.upward.reverse

def child? (spot : Spot) (name : String) : Option DiskEntry := spot.entry.at? [name]

end Spot

namespace Disk

/-! ### Following paths -/

def maxNameBytes : Nat := 255

def fits (name : String) : Bool := name.utf8ByteSize ≤ maxNameBytes

def spotAt (disk : Disk) (upward : List String) : Except DiskError Spot :=
  match disk.root.at? upward.reverse with
  | some entry => .ok { upward, entry }
  | none => .error .notFound

/-- Follow one piece of a path. Two dots at the root lead nowhere. -/
def step (disk : Disk) (spot : Spot) (piece : String) : Except DiskError Spot :=
  if ! spot.entry.isDirectory then .error .notADirectory
  else if Path.isIdle piece then .ok spot
  else if piece = ".." then disk.spotAt spot.upward.tail
  else if ! fits piece then .error .nameTooLong
  else
    match spot.child? piece with
    | some entry => .ok { upward := piece :: spot.upward, entry }
    | none => .error .notFound

def origin (disk : Disk) (path : Path) : Except DiskError Spot :=
  if path.text = "" then .error .notFound
  else if path.isBroken then .error .invalid
  else if path.tooLong then .error .nameTooLong
  else if path.isAbsolute then .ok { upward := [], entry := disk.root }
  else disk.spotAt disk.start.reverse

def find (disk : Disk) (path : Path) : Except DiskError Spot := do
  path.foldlM disk.step (← disk.origin path)

def locate (disk : Disk) (path : Path) : Except DiskError Target := do
  let pieces := path.withoutSlash
  let directory ← pieces.dropLast.foldlM disk.step (← disk.origin path)
  match pieces.getLast? with
  | none => return { directory, name := none }
  | some last =>
    if ! directory.entry.isDirectory then throw .notADirectory
    if last = "." || last = ".." then return { directory, name := none }
    if ! fits last then throw .nameTooLong
    return { directory, name := some last }

def isDirectory (disk : Disk) (path : Path) : Bool :=
  match disk.find path with
  | .ok spot => spot.entry.isDirectory
  | .error _ => false

/-! ### Files -/

def change (disk : Disk) (spot : Spot)
    (f : List (String × DiskEntry) → List (String × DiskEntry)) : Disk :=
  { disk with root := disk.root.change f spot.place }

def put (disk : Disk) (spot : Spot) (name : String) (entry : DiskEntry) : Disk :=
  disk.change spot fun entries => entries.filter (·.1 ≠ name) ++ [(name, entry)]

def erase (disk : Disk) (spot : Spot) (name : String) : Disk :=
  disk.change spot fun entries => entries.filter (·.1 ≠ name)

def read (disk : Disk) (path : Path) : Except DiskError String := do
  match (← disk.find path).entry with
  | .file text => return text
  | .directory _ => throw .isADirectory

def write (disk : Disk) (path : Path) (text : String) : Except DiskError Disk := do
  let { directory, name } ← disk.locate path
  match name with
  | none => throw .isADirectory
  | some name =>
    match directory.child? name with
    | some (.directory _) => throw .isADirectory
    | _ =>
      if path.endsInSlash then throw .isADirectory
      return disk.put directory name (.file text)

def removeFile (disk : Disk) (path : Path) : Except DiskError Disk := do
  let { directory, name } ← disk.locate path
  match name with
  | none => throw .isADirectory
  | some name =>
    match directory.child? name with
    | none => throw .notFound
    | some (.directory _) => throw .isADirectory
    | some (.file _) =>
      if path.endsInSlash then throw .notADirectory
      return disk.erase directory name

def rename (disk : Disk) (source target : Path) : Except DiskError Disk := do
  let text ← disk.read source
  if disk.isDirectory target then throw .isADirectory
  (← disk.removeFile source).write target text

/-! ### Directories -/

def makeDirectory (disk : Disk) (path : Path) : Except DiskError Disk := do
  let { directory, name } ← disk.locate path
  match name with
  | none => throw .alreadyExists
  | some name =>
    if (directory.child? name).isSome then throw .alreadyExists
    return disk.put directory name (.directory [])

/-- A failure to make a directory does not matter if it is there. -/
def unlessThere (disk : Disk) (path : Path) (error : DiskError) : Except DiskError Unit :=
  if disk.isDirectory path then .ok () else .error error

/-- Make the directory of the first path, if it cannot be made the others before it. What was made
before a failure stays. -/
def makeFirst (disk : Disk) : List Path → Except DiskError Unit × Disk
  | [] => (.ok (), disk)
  | path :: rest =>
    match disk.makeDirectory path with
    | .ok disk => (.ok (), disk)
    | .error .notFound =>
      match makeFirst disk rest with
      | (.error error, disk) => (.error error, disk)
      | (.ok (), disk) =>
        match disk.makeDirectory path with
        | .ok disk => (.ok (), disk)
        | .error error => (disk.unlessThere path error, disk)
    | .error error => (disk.unlessThere path error, disk)

/-- Make a directory and all that it is in. An empty path asks for nothing. -/
def makeDirectories (disk : Disk) (path : Path) : Except DiskError Unit × Disk :=
  if path.text = "" then (.ok (), disk) else disk.makeFirst (path :: path.parents)

/-- Remove a file, or a directory with all that is in it. A directory is emptied before its path is
followed once more to remove it. If the path led through what is gone now, the directory stays, and
that is no failure; if the path does not name the directory, it is one. -/
def removeTree (disk : Disk) (path : Path) : Except DiskError Unit × Disk :=
  match disk.find path with
  | .error error => (.error error, disk)
  | .ok spot =>
    let disk := disk.change spot fun _ => []
    match disk.locate path with
    | .ok { directory, name := some name } => (.ok (), disk.erase directory name)
    | .ok { name := none, .. } => (.error .invalid, disk)
    | .error .notFound => (.ok (), disk)
    | .error error => (.error error, disk)

def namesIn (disk : Disk) (path : Path) : Except DiskError (List String) := do
  match (← disk.find path).entry with
  | .file _ => throw .notADirectory
  | .directory entries => return entries.map (·.1)

def listing (disk : Disk) (path : Path) : List String :=
  match disk.find path with
  | .ok { entry := .directory entries, .. } =>
    (DiskEntry.textsIn path.text entries).mergeSort fun a b => a ≤ b
  | _ => []

end Disk

end Jukebox
