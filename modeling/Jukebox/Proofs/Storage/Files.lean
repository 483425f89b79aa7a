import Jukebox.Proofs.Storage.Directory

/-!
The files of a disk, wherever they are. What is written under a name in one directory is the only
file of the disk that is another one afterwards.
-/
namespace Jukebox

namespace DiskEntry

def text? (place : Place) (entry : DiskEntry) : Option String :=
  match entry.at? place with
  | some (file text) => some text
  | _ => none

theorem text?_eq_some_iff {place : Place} {entry : DiskEntry} {text : String} :
    entry.text? place = some text ↔ entry.at? place = some (file text) := by
  unfold text?
  split
  · next found heq => simp [heq]
  · next hnone =>
    refine ⟨nofun, fun heq => absurd heq (hnone text)⟩

/-- A directory is no file, and the files in it are those of its entries. -/
theorem text?_directory_cons (entries : List (String × DiskEntry)) (name : String) (rest : Place) :
    (directory entries).text? (name :: rest) = (entries.lookup name).bind (text? rest) := by
  have hat : (directory entries).at? (name :: rest) = (entries.lookup name).bind (at? rest) := rfl
  rw [text?, hat]
  cases entries.lookup name <;> rfl

/-- What is not a directory has no files in it. -/
theorem text?_of_not_directory {entry : DiskEntry} (h : ∀ inner, entry ≠ directory inner)
    {place : Place} (hplace : place ≠ []) : entry.text? place = none := by
  cases entry with
  | directory inner => exact absurd rfl (h inner)
  | file text =>
    cases place with
    | nil => exact absurd rfl hplace
    | cons name rest => rfl

variable {f : List (String × DiskEntry) → List (String × DiskEntry)} {name : String}

/-- A change of one directory that concerns one name there, which is and will be no directory,
leaves the files alone, but for the one of this name. -/
theorem text?_change_of_ne {place : Place} {entry : DiskEntry} {entries : List (String × DiskEntry)}
    (h : entry.at? place = some (directory entries))
    (hothers : ∀ other, other ≠ name → (f entries).lookup other = entries.lookup other)
    (hbefore : ∀ inner, entries.lookup name ≠ some (directory inner))
    (hafter : ∀ inner, (f entries).lookup name ≠ some (directory inner)) {other : Place}
    (hother : other ≠ place ++ [name]) :
    (entry.change f place).text? other = entry.text? other := by
  induction place generalizing entry other with
  | nil =>
    obtain rfl : entry = directory entries := Option.some.inj h
    cases other with
    | nil => rfl
    | cons first later =>
      change (directory (f entries)).text? (first :: later) = _
      rw [text?_directory_cons, text?_directory_cons]
      by_cases hfirst : first = name
      · subst hfirst
        have hlater : later ≠ [] := fun hnil => hother (by rw [hnil]; rfl)
        -- Below the name there is no file, neither before nor after.
        have hnone (found : Option DiskEntry) (hfound : ∀ inner, found ≠ some (directory inner)) :
            found.bind (text? later) = none := by
          cases found with
          | none => rfl
          | some child =>
            exact text?_of_not_directory (fun inner heq => hfound inner (congrArg some heq)) hlater
        rw [hnone _ hafter, hnone _ hbefore]
      · rw [hothers first hfirst]
  | cons head rest ih =>
    obtain ⟨children, rfl⟩ := directory_of_at? h
    obtain ⟨child, hchild, hrest⟩ := Option.bind_eq_some_iff.mp h
    rw [change_directory]
    cases other with
    | nil => rfl
    | cons first later =>
      rw [text?_directory_cons, text?_directory_cons, Entries.lookup_map fun other entry =>
        if other = head then change f rest entry else entry]
      by_cases hfirst : first = head
      · subst hfirst
        rw [hchild, Option.map_some, Option.bind_some, Option.bind_some, if_pos rfl]
        exact ih hrest fun heq => hother (by rw [heq]; rfl)
      · cases children.lookup first with
        | none => rfl
        | some next => rw [Option.map_some, Option.bind_some, Option.bind_some, if_neg hfirst]

end DiskEntry

namespace Disk

def fileAt? (disk : Disk) (place : Place) : Option String := disk.root.text? place

/-- Every file is still there as it was. -/
def Spares (disk later : Disk) : Prop :=
  ∀ place text, disk.fileAt? place = some text → later.fileAt? place = some text

/-- There are the same files, but maybe for the one at a place. -/
def SameBut (place : Place) (disk later : Disk) : Prop :=
  ∀ other, other ≠ place → later.fileAt? other = disk.fileAt? other

theorem Spares.rfl {disk : Disk} : disk.Spares disk := fun _ _ h => h

theorem SameBut.rfl {place : Place} {disk : Disk} : SameBut place disk disk := fun _ _ => Eq.refl _

theorem SameBut.trans {place : Place} {disk later last : Disk} (h : SameBut place disk later)
    (hlater : SameBut place later last) : SameBut place disk last :=
  fun other hother => (hlater other hother).trans (h other hother)

variable {disk : Disk} {base : Path} {upward : List String}
  {entries : List (String × DiskEntry)} {name : String}

section Directory

variable (hwalk : disk.walk base = .ok { upward, entry := .directory entries })

include hwalk

/-- The files in a directory are those among its entries. -/
theorem fileAt?_child {text : String} : disk.fileAt? (name :: upward).reverse = some text ↔
    entries.lookup name = some (.file text) := by
  have hstands : disk.root.at? upward.reverse = some (.directory entries) := stands_walk hwalk
  rw [fileAt?, DiskEntry.text?_eq_some_iff, List.reverse_cons, DiskEntry.at?_append, hstands,
    Option.bind_some]
  change (entries.lookup name).bind (DiskEntry.at? []) = _ ↔ _
  cases entries.lookup name <;> rfl

variable (hname : ∀ inner, entries.lookup name ≠ some (.directory inner)) (text : String)

include hname

/-- Writing a file changes no other. -/
theorem sameBut_put : SameBut (name :: upward).reverse disk
    (disk.put { upward, entry := .directory entries } name (.file text)) := by
  intro place hplace
  have hafter : ∀ inner, (DiskEntry.withEntry entries name (.file text)).lookup name ≠
      some (.directory inner) := by
    intro inner
    rw [DiskEntry.lookup_withEntry, if_pos rfl]
    exact nofun
  refine DiskEntry.text?_change_of_ne (stands_walk hwalk) (fun other hother => ?_) hname hafter ?_
  · exact (DiskEntry.lookup_withEntry entries name _ other).trans (if_neg hother)
  · rwa [List.reverse_cons] at hplace

theorem fileAt?_put :
    (disk.put { upward, entry := .directory entries } name (.file text)).fileAt?
      (name :: upward).reverse = some text := by
  rw [fileAt?_child (walk_put hwalk hname (.file text)), DiskEntry.lookup_withEntry, if_pos rfl]

/-- Writing the text that a file has already changes no file at all. -/
theorem sameBut_put_again (h : entries.lookup name = some (.file text)) (place : Place) :
    SameBut place disk (disk.put { upward, entry := .directory entries } name (.file text)) := by
  intro other _
  by_cases hother : other = (name :: upward).reverse
  · rw [hother, fileAt?_put hwalk hname, (fileAt?_child hwalk).mpr h]
  · exact sameBut_put hwalk hname text other hother

/-- A file that was not there before takes the place of no other. -/
theorem spares_put (hnew : entries.lookup name = none) :
    disk.Spares (disk.put { upward, entry := .directory entries } name (.file text)) := by
  intro place old hold
  by_cases hplace : place = (name :: upward).reverse
  · rw [hplace, fileAt?_child hwalk, hnew] at hold
    cases hold
  · rw [sameBut_put hwalk hname text place hplace, hold]

end Directory

end Disk

end Jukebox
