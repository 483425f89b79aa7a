import Mathlib.Data.List.Basic
import Jukebox.Storage.Disk

/-!
Where paths lead. A path that ends in a name leads to the directory of the name first; there it is
looked up or made. What leads to a directory goes on to do so as long as the disk keeps its
directories, whatever else is made or written.
-/
namespace Jukebox

namespace Path

structure Sound (path : Path) : Prop where
  text_ne : path.text ≠ ""
  unbroken : path.isBroken = false
  short : path.tooLong = false

def stem (path : Path) : Path := if path.getLast? = some "" then path.dropLast else path

theorem join_eq (path : Path) (name : String) : path.join name = path.stem ++ [name] := by
  unfold join stem
  split <;> rfl

theorem stem_append (base : Path) {name : String} (h : name ≠ "") :
    stem (base ++ [name]) = base ++ [name] := by
  rw [stem, List.getLast?_concat, if_neg fun heq => h (Option.some.inj heq)]

theorem text_append {base : Path} (h : base ≠ []) (name : String) :
    text (base ++ [name]) = text base ++ "/" ++ name := by
  rw [text, String.intercalate_append_of_ne_nil h (List.cons_ne_nil _ _),
    String.intercalate_singleton]
  rfl

theorem size_append {base : Path} (h : base ≠ []) (name : String) :
    (text (base ++ [name])).utf8ByteSize = (text base).utf8ByteSize + 1 + name.utf8ByteSize := by
  rw [text_append h, String.utf8ByteSize_append, String.utf8ByteSize_append]
  rfl

theorem size_append_le (base : Path) (name : String) :
    (text (base ++ [name])).utf8ByteSize ≤ (text base).utf8ByteSize + 1 + name.utf8ByteSize := by
  cases base with
  | nil =>
    rw [List.nil_append, text, String.intercalate_singleton]
    omega
  | cons piece rest => exact Nat.le_of_eq (size_append (List.cons_ne_nil _ _) name)

theorem le_size_append (base : Path) (name : String) :
    (text base).utf8ByteSize ≤ (text (base ++ [name])).utf8ByteSize := by
  cases base with
  | nil => exact Nat.zero_le _
  | cons piece rest =>
    rw [size_append (List.cons_ne_nil _ _), Nat.add_assoc]
    exact Nat.le_add_right _ _

theorem text_append_ne (base : Path) {name : String} (h : name ≠ "") :
    text (base ++ [name]) ≠ "" := by
  intro hempty
  have hsize : (text (base ++ [name])).utf8ByteSize = 0 := by rw [hempty]; rfl
  cases base with
  | nil =>
    rw [List.nil_append, text, String.intercalate_singleton] at hempty
    exact h hempty
  | cons piece rest =>
    rw [size_append (List.cons_ne_nil _ _)] at hsize
    omega

theorem size_join_le (path : Path) (name : String) :
    (path.join name).text.utf8ByteSize ≤ path.text.utf8ByteSize + 1 + name.utf8ByteSize := by
  have hstem : (text path.stem).utf8ByteSize ≤ (text path).utf8ByteSize := by
    unfold stem
    split
    · next hslash =>
      obtain ⟨base, rfl⟩ := List.getLast?_eq_some_iff.mp hslash
      rw [List.dropLast_concat]
      exact le_size_append base ""
    · exact Nat.le_refl _
  have hwhole := size_append_le path.stem name
  rw [join_eq]
  omega

/-- What is in a directory has a path that is short enough if the three names are. -/
theorem short_join_join {path : Path} {directory name : String}
    (h : path.text.utf8ByteSize + 1 + directory.utf8ByteSize + 1 + name.utf8ByteSize ≤ maxBytes) :
    ((path.join directory).join name).tooLong = false := by
  have hdirectory := size_join_le path directory
  have hname := size_join_le (path.join directory) name
  simp only [tooLong, decide_eq_false_iff_not, Nat.not_lt]
  omega

theorem isBroken_append (base : Path) (name : String) :
    isBroken (base ++ [name]) = (base.isBroken || name.contains '\x00') := by
  simp [isBroken, List.any_append]

/-- A path whose pieces can be followed and that is short enough can be followed. -/
theorem sound_append {base : Path} {name : String} (hname : name ≠ "")
    (hbase : base.isBroken = false) (hplain : name.contains '\x00' = false)
    (hsize : (text base).utf8ByteSize + 1 + name.utf8ByteSize ≤ maxBytes) :
    Sound (base ++ [name]) where
  text_ne := text_append_ne base hname
  unbroken := by rw [isBroken_append, hbase, hplain]; rfl
  short := by
    have hle := size_append_le base name
    simp only [tooLong, decide_eq_false_iff_not, Nat.not_lt]
    omega

theorem isAbsolute_append {base : Path} {name : String} :
    isAbsolute (base ++ [name]) = decide (base.head? = some "") := by
  cases base with
  | nil => cases hname : decide (name = "") <;> simp [isAbsolute]
  | cons piece rest =>
    cases rest with
    | nil => by_cases hpiece : piece = "" <;> simp [isAbsolute, hpiece]
    | cons next rest => by_cases hpiece : piece = "" <;> simp [isAbsolute, hpiece]

structure IsName (name : String) : Prop where
  ne_empty : name ≠ ""
  ne_dot : name ≠ "."
  ne_dots : name ≠ ".."
  fits : Disk.fits name = true

theorem IsName.not_isIdle {name : String} (h : IsName name) : isIdle name = false := by
  simp [isIdle, h.ne_empty, h.ne_dot]

theorem withoutSlash_append {base : Path} {name : String} (h : name ≠ "") :
    withoutSlash (base ++ [name]) = base ++ [name] := by
  simp [withoutSlash, h]

end Path

namespace DiskEntry

def HasDirectory (entry : DiskEntry) (place : Place) : Prop :=
  ∃ entries, entry.at? place = some (.directory entries)

theorem isDirectory_iff (entry : DiskEntry) :
    entry.isDirectory = true ↔ ∃ entries, entry = .directory entries := by
  cases entry with
  | file text => simp [isDirectory]
  | directory entries => simp [isDirectory]

theorem at?_append (place : Place) (name : String) (entry : DiskEntry) :
    entry.at? (place ++ [name]) = (entry.at? place).bind (at? [name]) := by
  induction place generalizing entry with
  | nil => rfl
  | cons first rest ih =>
    cases entry with
    | file text => rfl
    | directory entries =>
      simp only [List.cons_append, at?]
      cases entries.lookup first with
      | none => rfl
      | some child => exact ih child

end DiskEntry

namespace Disk

open Jukebox.Path

/-- The spot is where the disk has its entry. -/
def Stands (disk : Disk) (spot : Spot) : Prop := disk.root.at? spot.place = some spot.entry

theorem stands_spotAt {disk : Disk} {upward : List String} {spot : Spot}
    (h : disk.spotAt upward = .ok spot) : disk.Stands spot ∧ spot.upward = upward := by
  unfold spotAt at h
  split at h
  · next entry hentry =>
    cases h
    exact ⟨hentry, rfl⟩
  · cases h

/-- What a step along a path can do. -/
theorem step_cases {disk : Disk} {spot next : Spot} {piece : String}
    (h : disk.step spot piece = .ok next) : spot.entry.isDirectory = true ∧
      ((isIdle piece = true ∧ next = spot) ∨
        (isIdle piece = false ∧ piece = ".." ∧ disk.spotAt spot.upward.tail = .ok next) ∨
        (isIdle piece = false ∧ piece ≠ ".." ∧ fits piece = true ∧
          ∃ entry, spot.child? piece = some entry ∧
            next = { upward := piece :: spot.upward, entry })) := by
  unfold step at h
  split at h
  · cases h
  · next hdirectory =>
    refine ⟨by simpa using hdirectory, ?_⟩
    split at h
    · next hidle =>
      cases h
      exact Or.inl ⟨hidle, rfl⟩
    · next hidle =>
      rw [Bool.not_eq_true] at hidle
      split at h
      · next hdots => exact Or.inr (Or.inl ⟨hidle, hdots, h⟩)
      · next hdots =>
        split at h
        · cases h
        · next hfits =>
          split at h
          · next entry hchild =>
            cases h
            exact Or.inr (Or.inr ⟨hidle, hdots, by simpa using hfits, entry, hchild, rfl⟩)
          · cases h

theorem step_child {disk : Disk} {spot : Spot} {name : String} (hname : IsName name)
    (hdirectory : spot.entry.isDirectory = true) :
    disk.step spot name = match spot.child? name with
      | some entry => .ok { upward := name :: spot.upward, entry }
      | none => .error .notFound := by
  cases hchild : spot.child? name <;>
    simp [step, hdirectory, hname.not_isIdle, hname.ne_dots, hname.fits, hchild]

theorem stands_step {disk : Disk} {spot next : Spot} {piece : String} (hspot : disk.Stands spot)
    (h : disk.step spot piece = .ok next) : disk.Stands next := by
  obtain ⟨-, ⟨-, rfl⟩ | ⟨-, -, hup⟩ | ⟨-, -, -, entry, hchild, rfl⟩⟩ := step_cases h
  · exact hspot
  · exact (stands_spotAt hup).1
  · have hplace : (piece :: spot.upward).reverse = spot.place ++ [piece] := by
      rw [List.reverse_cons]
      rfl
    rw [Stands, Spot.place, hplace, DiskEntry.at?_append, hspot]
    exact hchild

/-! ### Disks that keep their directories -/

structure KeptBy (disk other : Disk) : Prop where
  start : other.start = disk.start
  directories : ∀ place, disk.root.HasDirectory place → other.root.HasDirectory place

variable {disk other : Disk}

theorem KeptBy.refl (disk : Disk) : KeptBy disk disk := ⟨rfl, fun _ h => h⟩

theorem KeptBy.trans (h : KeptBy disk other) {last : Disk} (hlast : KeptBy other last) :
    KeptBy disk last where
  start := hlast.start.trans h.start
  directories := fun place hplace => hlast.directories place (h.directories place hplace)

theorem KeptBy.isDirectory (h : KeptBy disk other) {spot same : Spot} (hspot : disk.Stands spot)
    (hsame : other.Stands same) (hupward : same.upward = spot.upward)
    (hdirectory : spot.entry.isDirectory = true) : same.entry.isDirectory = true := by
  obtain ⟨entries, hentries⟩ := (DiskEntry.isDirectory_iff _).mp hdirectory
  obtain ⟨others, hothers⟩ := h.directories spot.place ⟨entries, by rw [hspot, hentries]⟩
  have hplace : same.place = spot.place := congrArg List.reverse hupward
  rw [← hplace, hsame] at hothers
  exact (DiskEntry.isDirectory_iff _).mpr ⟨others, Option.some.inj hothers⟩

theorem KeptBy.spotAt (h : KeptBy disk other) {upward : List String} {spot : Spot}
    (hspot : disk.spotAt upward = .ok spot) (hdirectory : spot.entry.isDirectory = true) :
    ∃ same, other.spotAt upward = .ok same ∧ other.Stands same ∧ same.upward = spot.upward := by
  obtain ⟨hstands, hupward⟩ := stands_spotAt hspot
  obtain ⟨entries, hentries⟩ := (DiskEntry.isDirectory_iff _).mp hdirectory
  obtain ⟨others, hothers⟩ := h.directories spot.place ⟨entries, by rw [hstands, hentries]⟩
  rw [Spot.place, hupward] at hothers
  exact ⟨{ upward, entry := .directory others }, by simp only [Disk.spotAt, hothers], hothers,
    hupward.symm⟩

/-- A step into a directory leads into the directory that is there now. -/
theorem KeptBy.step (h : KeptBy disk other) {spot same next : Spot} {piece : String}
    (hspot : disk.Stands spot) (hsame : other.Stands same) (hupward : same.upward = spot.upward)
    (hstep : disk.step spot piece = .ok next) (hdirectory : next.entry.isDirectory = true) :
    ∃ later, other.step same piece = .ok later ∧ other.Stands later ∧
      later.upward = next.upward := by
  have hnext := stands_step hspot hstep
  obtain ⟨hstart, hcases⟩ := step_cases hstep
  have hsameStart := h.isDirectory hspot hsame hupward hstart
  obtain ⟨hidle, rfl⟩ | ⟨hidle, hdots, hup⟩ | ⟨hidle, hdots, hfits, entry, hchild, rfl⟩ := hcases
  · exact ⟨same, by simp [Disk.step, hsameStart, hidle], hsame, hupward⟩
  · obtain ⟨later, hlater, hstands, heq⟩ := h.spotAt hup hdirectory
    refine ⟨later, ?_, hstands, heq⟩
    simpa [Disk.step, hsameStart, hidle, if_pos hdots, hupward] using hlater
  · obtain ⟨entries, hentries⟩ := (DiskEntry.isDirectory_iff _).mp hdirectory
    obtain ⟨others, hothers⟩ := h.directories _ ⟨entries, by rw [hnext, hentries]⟩
    have hplace : Spot.place { upward := piece :: spot.upward, entry } = same.place ++ [piece] := by
      rw [Spot.place, List.reverse_cons, ← hupward]
      rfl
    rw [hplace, DiskEntry.at?_append, hsame] at hothers
    have hthere : same.child? piece = some (.directory others) := hothers
    have hlater : other.step same piece =
        .ok { upward := piece :: same.upward, entry := .directory others } := by
      simp [Disk.step, hsameStart, hidle, hdots, hfits, hthere]
    refine ⟨_, hlater, stands_step hsame hlater, ?_⟩
    rw [hupward]

/-- Only a path through directories leads into a directory. -/
theorem isDirectory_of_foldlM {pieces : List String} {spot last : Spot}
    (h : pieces.foldlM disk.step spot = .ok last) (hlast : last.entry.isDirectory = true) :
    spot.entry.isDirectory = true := by
  cases pieces with
  | nil =>
    cases h
    exact hlast
  | cons piece rest =>
    rw [List.foldlM_cons] at h
    cases hstep : disk.step spot piece with
    | error error => rw [hstep] at h; cases h
    | ok next => exact (step_cases hstep).1

theorem KeptBy.foldlM (h : KeptBy disk other) {pieces : List String} {spot same last : Spot}
    (hspot : disk.Stands spot) (hsame : other.Stands same) (hupward : same.upward = spot.upward)
    (hwalk : pieces.foldlM disk.step spot = .ok last) (hlast : last.entry.isDirectory = true) :
    ∃ later, pieces.foldlM other.step same = .ok later ∧ other.Stands later ∧
      later.upward = last.upward := by
  induction pieces generalizing spot same with
  | nil =>
    cases hwalk
    exact ⟨same, rfl, hsame, hupward⟩
  | cons piece rest ih =>
    rw [List.foldlM_cons] at hwalk
    cases hstep : disk.step spot piece with
    | error error => rw [hstep] at hwalk; cases hwalk
    | ok next =>
      rw [hstep] at hwalk
      have hrest : rest.foldlM disk.step next = .ok last := hwalk
      obtain ⟨between, hbetween, hstands, heq⟩ :=
        h.step hspot hsame hupward hstep (isDirectory_of_foldlM hrest hlast)
      obtain ⟨later, hlater, hend⟩ := ih (stands_step hspot hstep) hstands heq hrest
      refine ⟨later, ?_, hend⟩
      rw [List.foldlM_cons, hbetween]
      exact hlater

/-! ### Walks -/

/-- Where the pieces are followed from, if more is to come after them. -/
def foot (disk : Disk) (base : Path) : Except DiskError Spot :=
  if base.head? = some "" then .ok { upward := [], entry := disk.root }
  else disk.spotAt disk.start.reverse

def walk (disk : Disk) (base : Path) : Except DiskError Spot := do
  base.foldlM disk.step (← disk.foot base)

theorem stands_foot {base : Path} {spot : Spot} (h : disk.foot base = .ok spot) :
    disk.Stands spot := by
  unfold foot at h
  split at h
  · cases h
    rfl
  · exact (stands_spotAt h).1

theorem stands_foldlM {pieces : List String} {spot last : Spot} (hspot : disk.Stands spot)
    (h : pieces.foldlM disk.step spot = .ok last) : disk.Stands last := by
  induction pieces generalizing spot with
  | nil =>
    cases h
    exact hspot
  | cons piece rest ih =>
    rw [List.foldlM_cons] at h
    cases hstep : disk.step spot piece with
    | error error => rw [hstep] at h; cases h
    | ok next =>
      rw [hstep] at h
      exact ih (stands_step hspot hstep) h

theorem stands_walk {base : Path} {spot : Spot} (h : disk.walk base = .ok spot) :
    disk.Stands spot := by
  unfold walk at h
  cases hfoot : disk.foot base with
  | error error => rw [hfoot] at h; cases h
  | ok start =>
    rw [hfoot] at h
    exact stands_foldlM (stands_foot hfoot) h

/-- What leads to a directory leads there still. -/
theorem KeptBy.walk (h : KeptBy disk other) {base : Path} {spot : Spot}
    (hwalk : disk.walk base = .ok spot) (hdirectory : spot.entry.isDirectory = true) :
    ∃ same, other.walk base = .ok same ∧ other.Stands same ∧ same.upward = spot.upward := by
  unfold Disk.walk at hwalk ⊢
  cases hfoot : disk.foot base with
  | error error => rw [hfoot] at hwalk; cases hwalk
  | ok start =>
    rw [hfoot] at hwalk
    have hpieces : base.foldlM disk.step start = .ok spot := hwalk
    have hstart := isDirectory_of_foldlM hpieces hdirectory
    obtain ⟨same, hsame, hstands, hupward⟩ : ∃ same, other.foot base = .ok same ∧
        other.Stands same ∧ same.upward = start.upward := by
      unfold foot at hfoot ⊢
      split at hfoot
      · next hroot =>
        cases hfoot
        exact ⟨{ upward := [], entry := other.root }, if_pos hroot, rfl, rfl⟩
      · next hroot =>
        rw [if_neg hroot, h.start]
        exact h.spotAt hfoot hstart
    rw [hsame]
    exact h.foldlM (stands_foot hfoot) hstands hupward hpieces hdirectory

theorem KeptBy.walk_directory (h : KeptBy disk other) {base : Path}
    (hbase : ∃ spot, disk.walk base = .ok spot ∧ spot.entry.isDirectory = true) :
    ∃ spot, other.walk base = .ok spot ∧ spot.entry.isDirectory = true := by
  obtain ⟨spot, hwalk, hdirectory⟩ := hbase
  obtain ⟨same, hsame, hstands, hupward⟩ := h.walk hwalk hdirectory
  exact ⟨same, hsame, h.isDirectory (stands_walk hwalk) hstands hupward hdirectory⟩

theorem walk_append {base : Path} {name : String} (hname : name ≠ "") :
    disk.walk (base ++ [name]) = (disk.walk base).bind (disk.step · name) := by
  have hfoot : disk.foot (base ++ [name]) = disk.foot base := by
    cases base with
    | nil => simp [foot, hname]
    | cons piece rest => rfl
  unfold walk
  rw [hfoot]
  cases disk.foot base with
  | error error => rfl
  | ok start =>
    change (base ++ [name]).foldlM disk.step start = _
    rw [List.foldlM_append]
    change (base.foldlM disk.step start).bind _ = (base.foldlM disk.step start).bind _
    congr 1
    funext spot
    rw [List.foldlM_cons]
    cases disk.step spot name <;> rfl

/-- A dot leads to where one is. -/
theorem walk_of_dot {base : Path} {spot : Spot} (h : disk.walk (base ++ ["."]) = .ok spot) :
    disk.walk base = .ok spot := by
  rw [walk_append (by decide)] at h
  cases hbase : disk.walk base with
  | error error => rw [hbase] at h; cases h
  | ok found =>
    rw [hbase] at h
    have hstep : disk.step found "." = .ok spot := h
    obtain ⟨-, ⟨-, rfl⟩ | ⟨hidle, -⟩ | ⟨hidle, -⟩⟩ := step_cases hstep
    · rfl
    · cases hidle
    · cases hidle

theorem origin_append {base : Path} {name : String} (h : Sound (base ++ [name])) :
    disk.origin (base ++ [name]) = disk.foot base := by
  simp only [origin, h.text_ne, h.unbroken, h.short, isAbsolute_append, if_false,
    Bool.false_eq_true, decide_eq_true_eq, foot]

theorem sound_of_find {path : Path} {spot : Spot} (h : disk.find path = .ok spot) :
    Sound path := by
  have horigin : ∃ start, disk.origin path = .ok start := by
    cases hstart : disk.origin path with
    | ok start => exact ⟨start, rfl⟩
    | error error => rw [find, hstart] at h; cases h
  obtain ⟨start, horigin⟩ := horigin
  unfold origin at horigin
  split at horigin
  · cases horigin
  · next htext =>
    split at horigin
    · cases horigin
    · next hbroken =>
      split at horigin
      · cases horigin
      · next hlong => exact ⟨htext, by simpa using hbroken, by simpa using hlong⟩

theorem find_append {base : Path} {name : String} (h : Sound (base ++ [name]))
    (hname : name ≠ "") : disk.find (base ++ [name]) = disk.walk (base ++ [name]) := by
  have hfoot : disk.foot (base ++ [name]) = disk.foot base := by
    cases base with
    | nil => simp [foot, hname]
    | cons piece rest => rfl
  rw [find, walk, origin_append h, hfoot]

theorem locate_append {base : Path} {name : String} (h : Sound (base ++ [name]))
    (hname : IsName name) {directory : Spot} (hbase : disk.walk base = .ok directory)
    (hdirectory : directory.entry.isDirectory = true) :
    disk.locate (base ++ [name]) = .ok { directory, name := some name } := by
  have hwalk : (do base.foldlM disk.step (← disk.foot base)) = .ok directory := hbase
  unfold locate
  simp only [withoutSlash_append hname.ne_empty, List.dropLast_concat, List.getLast?_concat,
    origin_append h]
  cases hfoot : disk.foot base with
  | error error => rw [hfoot] at hwalk; cases hwalk
  | ok start =>
    rw [hfoot] at hwalk
    have hpieces : base.foldlM disk.step start = .ok directory := hwalk
    simp only [bind, Except.bind, hpieces, hdirectory, hname.ne_dot, hname.ne_dots, hname.fits]
    rfl

end Disk

end Jukebox
