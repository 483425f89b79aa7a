import Mathlib.Logic.Function.Basic
import Jukebox.Entries
import Jukebox.Proofs.Storage.Paths

/-!
A directory as a map from names to contents. As long as a path leads to a directory, reading and
writing a file in it look a name up and set it, and what else is in the directory, and where other
paths lead, stays as it is.
-/
namespace Jukebox

namespace DiskEntry

def withEntry (entries : List (String × DiskEntry)) (name : String) (entry : DiskEntry) :
    List (String × DiskEntry) :=
  entries.filter (·.1 ≠ name) ++ [(name, entry)]

theorem lookup_withEntry (entries : List (String × DiskEntry)) (name : String) (entry : DiskEntry)
    (other : String) : (withEntry entries name entry).lookup other =
      if other = name then some entry else entries.lookup other := by
  rw [withEntry, List.lookup_append]
  by_cases h : other = name
  · rw [h, Entries.lookup_filter_self]
    simp
  · rw [Entries.lookup_filter_ne entries h, if_neg h, List.lookup_cons, beq_eq_false_iff_ne.mpr h]
    exact Option.or_none

theorem names_withEntry (entries : List (String × DiskEntry)) (name : String)
    (entry : DiskEntry) (other : String) : other ∈ (withEntry entries name entry).map (·.1) ↔
      other = name ∨ other ∈ entries.map (·.1) := by
  by_cases h : other = name
  · simp [withEntry, h]
  · simp [withEntry, h]

section Keyed

variable {α β : Type} {entries : List (String × DiskEntry)} {name : α → String}

/-- Where each key has a file of its own, putting in the file of one key changes what that key has,
and no other. -/
theorem contents_withEntry [DecidableEq α] {text : β → String} {kept? : α → Option β}
    (hname : Function.Injective name)
    (h : ∀ key, entries.lookup (name key) = (kept? key).map fun value => file (text value))
    (key : α) (value : β) (other : α) :
    (withEntry entries (name key) (file (text value))).lookup (name other) =
      (Function.update kept? key (some value) other).map fun value => file (text value) := by
  rw [lookup_withEntry]
  by_cases hother : other = key
  · rw [hother, if_pos rfl, Function.update_self, Option.map_some]
  · rw [if_neg fun heq => hother (hname heq), Function.update_of_ne hother, h]

/-- Taking the file of one key away leaves that key without one, and no other. -/
theorem contents_filter [DecidableEq α] {text : β → String} {kept? : α → Option β}
    (hname : Function.Injective name)
    (h : ∀ key, entries.lookup (name key) = (kept? key).map fun value => file (text value))
    (key other : α) : (entries.filter (·.1 ≠ name key)).lookup (name other) =
      (Function.update kept? key none other).map fun value => file (text value) := by
  by_cases hother : other = key
  · rw [hother, Entries.lookup_filter_self, Function.update_self, Option.map_none]
  · rw [Entries.lookup_filter_ne entries fun heq => hother (hname heq),
      Function.update_of_ne hother, h]

theorem keyed_withEntry (h : ∀ found ∈ entries.map (·.1), ∃ key, found = name key) (key : α)
    (entry : DiskEntry) :
    ∀ found ∈ (withEntry entries (name key) entry).map (·.1), ∃ key, found = name key := by
  intro found hfound
  rcases (names_withEntry entries (name key) entry found).mp hfound with rfl | hold
  · exact ⟨key, rfl⟩
  · exact h found hold

end Keyed

theorem nodup_withEntry {entries : List (String × DiskEntry)} (h : (entries.map (·.1)).Nodup)
    (name : String) (entry : DiskEntry) : ((withEntry entries name entry).map (·.1)).Nodup := by
  rw [withEntry, List.map_append, List.nodup_append]
  refine ⟨Entries.nodup_filter h name, List.nodup_cons.mpr ⟨List.not_mem_nil, List.nodup_nil⟩, ?_⟩
  rintro other hother _ hlast rfl
  rw [List.mem_singleton.mp hlast] at hother
  exact Entries.key_not_mem_filter entries name hother

/-- To take away what was put leaves nothing under the name. -/
theorem filter_withEntry (entries : List (String × DiskEntry)) (name : String)
    (entry : DiskEntry) :
    (withEntry entries name entry).filter (·.1 ≠ name) = entries.filter (·.1 ≠ name) := by
  rw [withEntry, List.filter_append, List.filter_filter]
  simp

/-- There is no directory where there is nothing. -/
theorem free_of_missing {entries : List (String × DiskEntry)} {name : String}
    (h : entries.lookup name = none) (inner : List (String × DiskEntry)) :
    entries.lookup name ≠ some (directory inner) := by
  rw [h]
  exact nofun

/-- There is no directory where there is a file. -/
theorem free_of_file {entries : List (String × DiskEntry)} {name text : String}
    (h : entries.lookup name = some (file text)) (inner : List (String × DiskEntry)) :
    entries.lookup name ≠ some (directory inner) := by
  rw [h]
  exact nofun

theorem free_of_map {α : Type} {entries : List (String × DiskEntry)} {name : String}
    {found : Option α} {text : α → String}
    (h : entries.lookup name = found.map fun value => file (text value))
    (inner : List (String × DiskEntry)) : entries.lookup name ≠ some (directory inner) := by
  cases found with
  | none => exact free_of_missing h inner
  | some value => exact free_of_file h inner

variable {f : List (String × DiskEntry) → List (String × DiskEntry)}

theorem change_directory (f : List (String × DiskEntry) → List (String × DiskEntry))
    (name : String) (rest : Place) (entries : List (String × DiskEntry)) :
    change f (name :: rest) (directory entries) =
      directory (entries.map fun (other, entry) =>
        (other, if other = name then change f rest entry else entry)) := rfl

/-- The changed directory is where it was. -/
theorem at?_change {place : Place} {entry : DiskEntry} {entries : List (String × DiskEntry)}
    (h : entry.at? place = some (.directory entries)) :
    (entry.change f place).at? place = some (.directory (f entries)) := by
  induction place generalizing entry with
  | nil =>
    obtain rfl : entry = .directory entries := Option.some.inj h
    rfl
  | cons name rest ih =>
    cases entry with
    | file text => cases h
    | directory children =>
      obtain ⟨child, hchild, hrest⟩ := Option.bind_eq_some_iff.mp h
      rw [change_directory, at?, Entries.lookup_map fun other entry =>
        if other = name then change f rest entry else entry, hchild, Option.map_some, if_pos rfl]
      exact ih hrest

/-- Only a directory has directories in it. -/
theorem directory_of_at? {place : Place} {entry : DiskEntry} {entries : List (String × DiskEntry)}
    (h : entry.at? place = some (.directory entries)) : ∃ inner, entry = .directory inner := by
  cases entry with
  | directory inner => exact ⟨inner, rfl⟩
  | file text => cases place <;> cases h

/-- If a change keeps the directories in one directory, it keeps all. -/
theorem hasDirectory_change {place : Place} {entry : DiskEntry}
    {entries : List (String × DiskEntry)} (h : entry.at? place = some (.directory entries))
    (hf : ∀ name inner, entries.lookup name = some (.directory inner) →
      (f entries).lookup name = some (.directory inner)) {other : Place}
    (hother : entry.HasDirectory other) : (entry.change f place).HasDirectory other := by
  induction place generalizing entry other with
  | nil =>
    obtain rfl : entry = .directory entries := Option.some.inj h
    obtain ⟨found, hfound⟩ := hother
    cases other with
    | nil => exact ⟨f entries, rfl⟩
    | cons name rest =>
      obtain ⟨child, hchild, hrest⟩ := Option.bind_eq_some_iff.mp hfound
      obtain ⟨inner, rfl⟩ := directory_of_at? hrest
      refine ⟨found, ?_⟩
      change ((f entries).lookup name).bind (at? rest) = _
      rw [hf name inner hchild]
      exact hrest
  | cons name rest ih =>
    cases entry with
    | file text => cases h
    | directory children =>
      obtain ⟨child, hchild, hrest⟩ := Option.bind_eq_some_iff.mp h
      obtain ⟨found, hfound⟩ := hother
      rw [change_directory]
      cases other with
      | nil => exact ⟨_, rfl⟩
      | cons first later =>
        obtain ⟨next, hnext, hlater⟩ := Option.bind_eq_some_iff.mp hfound
        have hlookup : ((children.map fun (other, entry) =>
            (other, if other = name then change f rest entry else entry)).lookup first) =
              some (if first = name then change f rest next else next) := by
          rw [Entries.lookup_map fun other entry =>
            if other = name then change f rest entry else entry,
            hnext, Option.map_some]
        by_cases hsame : first = name
        · subst hsame
          obtain rfl : child = next := Option.some.inj (hchild.symm.trans hnext)
          obtain ⟨kept, hkept⟩ := ih hrest ⟨found, hlater⟩
          refine ⟨kept, ?_⟩
          rw [at?, hlookup, if_pos rfl]
          exact hkept
        · refine ⟨found, ?_⟩
          rw [at?, hlookup, if_neg hsame]
          exact hlater

end DiskEntry

namespace Disk

open Jukebox.Path

variable {disk : Disk} {base : Path} {upward : List String}
  {entries : List (String × DiskEntry)} {name : String}

/-! ### What a change in a directory keeps -/

section Change

variable (hwalk : disk.walk base = .ok { upward, entry := .directory entries })
  {f : List (String × DiskEntry) → List (String × DiskEntry)}
  (hf : ∀ name inner, entries.lookup name = some (.directory inner) →
    (f entries).lookup name = some (.directory inner))

include hwalk hf

theorem keptBy_change : KeptBy disk (disk.change { upward, entry := .directory entries } f) where
  start := rfl
  directories := fun _ => DiskEntry.hasDirectory_change (stands_walk hwalk) hf

theorem walk_change : (disk.change { upward, entry := .directory entries } f).walk base =
    .ok { upward, entry := .directory (f entries) } := by
  obtain ⟨same, hsame, hstands, hupward⟩ := (keptBy_change hwalk hf).walk hwalk rfl
  have hchanged := @DiskEntry.at?_change f _ _ _ (stands_walk hwalk)
  have hplace : same.place = Spot.place { upward, entry := .directory entries } :=
    congrArg List.reverse hupward
  rw [Stands, hplace] at hstands
  have hentry := Option.some.inj (hstands.symm.trans hchanged)
  rw [hsame]
  cases same
  simp only at hupward hentry
  rw [hupward, hentry]

end Change

section Put

variable (hwalk : disk.walk base = .ok { upward, entry := .directory entries })
  (hname : ∀ inner, entries.lookup name ≠ some (.directory inner)) (entry : DiskEntry)

include hname

/-- What is put where there is no directory leaves the directories. -/
theorem lookup_withEntry_directory (other : String) (inner : List (String × DiskEntry))
    (h : entries.lookup other = some (.directory inner)) :
    (DiskEntry.withEntry entries name entry).lookup other = some (.directory inner) := by
  have hne : other ≠ name := fun heq => hname inner (heq ▸ h)
  exact (DiskEntry.lookup_withEntry entries name entry other).trans ((if_neg hne).trans h)

/-- What is erased where there is no directory leaves them as well. -/
theorem lookup_filter_directory (other : String) (inner : List (String × DiskEntry))
    (h : entries.lookup other = some (.directory inner)) :
    (entries.filter (·.1 ≠ name)).lookup other = some (.directory inner) := by
  have hne : other ≠ name := fun heq => hname inner (heq ▸ h)
  exact (Entries.lookup_filter_ne entries hne).trans h

include hwalk

theorem keptBy_put :
    KeptBy disk (disk.put { upward, entry := .directory entries } name entry) :=
  keptBy_change hwalk (lookup_withEntry_directory hname entry)

theorem walk_put :
    (disk.put { upward, entry := .directory entries } name entry).walk base =
      .ok { upward, entry := .directory (DiskEntry.withEntry entries name entry) } :=
  walk_change hwalk (lookup_withEntry_directory hname entry)

theorem keptBy_erase : KeptBy disk (disk.erase { upward, entry := .directory entries } name) :=
  keptBy_change hwalk (lookup_filter_directory hname)

theorem walk_erase :
    (disk.erase { upward, entry := .directory entries } name).walk base =
      .ok { upward, entry := .directory (entries.filter (·.1 ≠ name)) } :=
  walk_change hwalk (lookup_filter_directory hname)

end Put

/-! ### Reading and writing in a directory -/

theorem child?_directory :
    Spot.child? { upward, entry := .directory entries } name = entries.lookup name := by
  change (entries.lookup name).bind (DiskEntry.at? []) = entries.lookup name
  cases entries.lookup name <;> rfl

theorem step_directory (hname : IsName name) :
    disk.step { upward, entry := .directory entries } name = match entries.lookup name with
      | some entry => .ok { upward := name :: upward, entry }
      | none => .error .notFound := by
  cases hlookup : entries.lookup name with
  | none => rw [step_child hname rfl, child?_directory, hlookup]
  | some entry => rw [step_child hname rfl, child?_directory, hlookup]

theorem walk_child (hwalk : disk.walk base = .ok { upward, entry := .directory entries })
    (hname : IsName name) {entry : DiskEntry} (h : entries.lookup name = some entry) :
    disk.walk (base ++ [name]) = .ok { upward := name :: upward, entry } := by
  rw [walk_append hname.ne_empty, hwalk]
  change disk.step _ name = _
  rw [step_directory hname, h]

/-- What a path leads to is an entry of the directory that it leads to first. -/
theorem entry_of_walk {spot : Spot} (hname : IsName name)
    (h : disk.walk (base ++ [name]) = .ok spot) :
    ∃ upward entries, disk.walk base = .ok { upward, entry := .directory entries } ∧
      entries.lookup name = some spot.entry := by
  rw [walk_append hname.ne_empty] at h
  cases hbase : disk.walk base with
  | error error => rw [hbase] at h; cases h
  | ok directory =>
    rw [hbase] at h
    have hstep : disk.step directory name = .ok spot := h
    obtain ⟨upward, entry⟩ := directory
    obtain ⟨entries, rfl⟩ := (DiskEntry.isDirectory_iff _).mp (step_cases hstep).1
    refine ⟨upward, entries, rfl, ?_⟩
    rw [step_directory hname] at hstep
    split at hstep
    · next entry hlookup =>
      cases hstep
      exact hlookup
    · cases hstep

section Directory

variable (hwalk : disk.walk base = .ok { upward, entry := .directory entries })
  (hsound : Sound (base ++ [name])) (hname : IsName name)

include hwalk hsound hname

theorem read_file {text : String} (h : entries.lookup name = some (.file text)) :
    disk.read (base ++ [name]) = .ok text := by
  rw [read, find_append hsound hname.ne_empty, walk_child hwalk hname h]
  rfl

theorem read_missing (h : entries.lookup name = none) :
    disk.read (base ++ [name]) = .error .notFound := by
  have hwalk' : disk.walk (base ++ [name]) = .error .notFound := by
    rw [walk_append hname.ne_empty, hwalk]
    change disk.step _ name = _
    rw [step_directory hname, h]
  rw [read, find_append hsound hname.ne_empty, hwalk']
  rfl

theorem write_file (h : ∀ inner, entries.lookup name ≠ some (.directory inner)) (text : String) :
    disk.write (base ++ [name]) text =
      .ok (disk.put { upward, entry := .directory entries } name (.file text)) := by
  have hlocate := locate_append hsound hname hwalk rfl
  have hslash : endsInSlash (base ++ [name]) = false := by
    simp [endsInSlash, hname.ne_empty]
  simp only [write, hlocate, bind, Except.bind, child?_directory, hslash]
  cases hlookup : entries.lookup name with
  | none => rfl
  | some entry =>
    cases entry with
    | file old => rfl
    | directory inner => exact absurd hlookup (h inner)

/-- No file is written over a directory. -/
theorem write_directory {inner : List (String × DiskEntry)}
    (h : entries.lookup name = some (.directory inner)) (text : String) :
    disk.write (base ++ [name]) text = .error .isADirectory := by
  have hlocate := locate_append hsound hname hwalk rfl
  simp only [write, hlocate, bind, Except.bind, child?_directory, h]
  rfl

theorem removeFile_file {text : String} (h : entries.lookup name = some (.file text)) :
    disk.removeFile (base ++ [name]) =
      .ok (disk.erase { upward, entry := .directory entries } name) := by
  have hlocate := locate_append hsound hname hwalk rfl
  have hslash : endsInSlash (base ++ [name]) = false := by
    simp [endsInSlash, hname.ne_empty]
  simp only [removeFile, hlocate, bind, Except.bind, child?_directory, h, hslash]
  rfl

theorem removeFile_missing (h : entries.lookup name = none) :
    disk.removeFile (base ++ [name]) = .error .notFound := by
  have hlocate := locate_append hsound hname hwalk rfl
  simp only [removeFile, hlocate, bind, Except.bind, child?_directory, h]
  rfl

theorem isDirectory_free (h : ∀ inner, entries.lookup name ≠ some (.directory inner)) :
    disk.isDirectory (base ++ [name]) = false := by
  have hstep : disk.walk (base ++ [name]) =
      disk.step { upward, entry := .directory entries } name := by
    rw [walk_append hname.ne_empty, hwalk]
    rfl
  rw [isDirectory, find_append hsound hname.ne_empty, hstep, step_directory hname]
  cases hlookup : entries.lookup name with
  | none => rfl
  | some entry =>
    cases entry with
    | file text => rfl
    | directory inner => exact absurd hlookup (h inner)

/-- A file that is moved within a directory is under its new name afterwards, and only there. -/
theorem rename_file {text target : String} (htext : entries.lookup name = some (.file text))
    (hsoundTarget : Sound (base ++ [target])) (htarget : IsName target) (hne : target ≠ name)
    (hfree : ∀ inner, entries.lookup target ≠ some (.directory inner)) :
    ∃ made, disk.rename (base ++ [name]) (base ++ [target]) = .ok made ∧ KeptBy disk made ∧
      made.walk base = .ok
        { upward
          entry := .directory
            (DiskEntry.withEntry (entries.filter (·.1 ≠ name)) target (.file text)) } := by
  have hfile := DiskEntry.free_of_file htext
  have hkept := keptBy_erase hwalk hfile
  have herased := walk_erase hwalk hfile
  have hlater : ∀ inner,
      (entries.filter (·.1 ≠ name)).lookup target ≠ some (.directory inner) := by
    rw [Entries.lookup_filter_ne entries hne]
    exact hfree
  have hwrite := write_file herased hsoundTarget htarget hlater text
  refine ⟨_, ?_, hkept.trans (keptBy_put herased hlater (.file text)),
    walk_put herased hlater (.file text)⟩
  simp only [rename, bind, Except.bind, read_file hwalk hsound hname htext,
    isDirectory_free hwalk hsoundTarget htarget hfree, removeFile_file hwalk hsound hname htext]
  exact hwrite

/-- A directory that is to be made and is not there yet is made. -/
theorem makeDirectories_new (h : entries.lookup name = none) :
    ∃ made, disk.makeDirectories (base ++ [name]) = (.ok (), made) ∧
      made.walk base = .ok
        { upward, entry := .directory (DiskEntry.withEntry entries name (.directory [])) } := by
  have hlocate := locate_append hsound hname hwalk rfl
  have hmake : disk.makeDirectory (base ++ [name]) =
      .ok (disk.put { upward, entry := .directory entries } name (.directory [])) := by
    simp only [makeDirectory, hlocate, bind, Except.bind, child?_directory, h]
    rfl
  refine ⟨_, ?_, walk_put hwalk (DiskEntry.free_of_missing h) (.directory [])⟩
  rw [makeDirectories, if_neg hsound.text_ne, makeFirst, hmake]

end Directory

section There

variable {spot : Spot} (hwalk : disk.walk (base ++ [name]) = .ok spot)
  (hsound : Sound (base ++ [name])) (hname : IsName name)

include hwalk hsound hname

/-- A directory that is there is not made again. -/
theorem makeDirectories_there (hdirectory : spot.entry.isDirectory = true) :
    disk.makeDirectories (base ++ [name]) = (.ok (), disk) := by
  obtain ⟨upward, entries, hbase, hentry⟩ := entry_of_walk hname hwalk
  have hlocate := locate_append hsound hname hbase rfl
  have hmake : disk.makeDirectory (base ++ [name]) = .error .alreadyExists := by
    simp only [makeDirectory, hlocate, bind, Except.bind, child?_directory, hentry]
    rfl
  have hthere : disk.isDirectory (base ++ [name]) = true := by
    rw [isDirectory, find_append hsound hname.ne_empty, hwalk]
    exact hdirectory
  rw [makeDirectories, if_neg hsound.text_ne, makeFirst, hmake]
  simp only [unlessThere, hthere, if_true]

theorem namesIn_directory (hentry : spot.entry = .directory entries) :
    disk.namesIn (base ++ [name]) = .ok (entries.map (·.1)) := by
  rw [namesIn, find_append hsound hname.ne_empty, hwalk]
  simp only [bind, Except.bind, hentry]
  rfl

end There

end Disk

end Jukebox
