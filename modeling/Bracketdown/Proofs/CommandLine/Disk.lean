import Bracketdown.CommandLine.Disk
import Bracketdown.Json.Scan
import Mathlib.Data.List.TakeWhile

/-!
# What writing a file changes

To give a file a content changes that file and no other (`lookup_putFile`), and on a disk no path
leads to another place then (`Disk.resolve_put`). For all the directories on the way to a file are
there before it is written, and it can stop no walk that had not been stopped before.
-/

namespace Bracketdown.CommandLine

section Files

variable {Place : Type} [BEq Place] [LawfulBEq Place]

/-- To leave out other files makes no difference to a file. -/
theorem lookup_filter {keep : Place × List UInt8 → Bool} {place : Place}
    (h : ∀ content, keep (place, content) = true) (files : List (Place × List UInt8)) :
    (files.filter keep).lookup place = files.lookup place := by
  induction files with
  | nil => rfl
  | cons file files ih =>
    obtain ⟨name, content⟩ := file
    cases hkeep : keep (name, content) with
    | true => rw [List.filter_cons_of_pos hkeep, List.lookup_cons, List.lookup_cons, ih]
    | false =>
      have hname : place ≠ name := by
        rintro rfl
        rw [h content] at hkeep
        cases hkeep
      rw [List.filter_cons_of_neg (Bool.eq_false_iff.mp hkeep), List.lookup_cons,
        beq_false_of_ne hname, ih]

/-- A file that is given a content has it, and all others are as they were. -/
theorem lookup_putFile [DecidableEq Place] (files : List (Place × List UInt8)) (place : Place)
    (content : List UInt8) (other : Place) :
    (putFile files place content).lookup other
      = if other = place then some content else files.lookup other := by
  rw [putFile, List.lookup_cons]
  by_cases hother : other = place
  · rw [hother, beq_self_eq_true, if_pos rfl]
  · rw [beq_false_of_ne hother, if_neg hother]
    exact lookup_filter (fun _ => decide_eq_true hother) files

end Files

namespace Disk

/-- A disk on which a file is given a content. -/
def put (disk : Disk) (place : Path) (content : List UInt8) : Disk :=
  { disk with files := putFile disk.files place content }

/-- Whether there is anything at a place or below it; at the root there always is. -/
def Holds (disk : Disk) (place : Path) : Prop := place = [] ∨ ∃ name ∈ disk.names, place <+: name

variable {disk : Disk}

theorem Holds.above {place above : Path} (h : disk.Holds place) (habove : above <+: place) :
    disk.Holds above := by
  obtain rfl | ⟨name, hname, hprefix⟩ := h
  · exact .inl (List.prefix_nil.mp habove)
  · exact .inr ⟨name, hname, habove.trans hprefix⟩

theorem entry?_eq_directory_iff {place : Path} :
    disk.entry? place = some .directory ↔ disk.files.lookup place = none ∧ disk.Holds place := by
  unfold entry? Holds
  cases disk.files.lookup place with
  | some content => simp
  | none => by_cases hplace : place = [] <;> simp [hplace]

/-- With a file that is written, there is something on the way to it, and nothing else is new. -/
theorem holds_put {place other : Path} {content : List UInt8} :
    (disk.put place content).Holds other ↔ disk.Holds other ∨ other <+: place := by
  have hnames : ∀ name,
      name ∈ (disk.put place content).names ↔ name ∈ disk.names ∨ name = place := by
    intro name
    by_cases hname : name = place <;> simp [names, put, putFile, hname]
  unfold Holds
  constructor
  · rintro (rfl | ⟨name, hname, hprefix⟩)
    · exact .inl (.inl rfl)
    · obtain hname | rfl := (hnames name).mp hname
      · exact .inl (.inr ⟨name, hname, hprefix⟩)
      · exact .inr hprefix
  · rintro ((rfl | ⟨name, hname, hprefix⟩) | hprefix)
    · exact .inl rfl
    · exact .inr ⟨name, (hnames name).mpr (.inl hname), hprefix⟩
    · exact .inr ⟨place, (hnames place).mpr (.inr rfl), hprefix⟩

theorem prefix_dropLast_of_ne {place other : Path} (h : other <+: place) (hne : other ≠ place) :
    other <+: place.dropLast := by
  obtain rfl | ⟨above, name, rfl⟩ := List.eq_nil_or_concat place
  · exact absurd (List.prefix_nil.mp h) hne
  · rw [List.concat_eq_append] at *
    rw [List.dropLast_concat]
    exact (List.prefix_concat_iff.mp h).resolve_left hne

/-- A place at which a file may stand: there is a directory above it, and none at it. -/
structure Free (disk : Disk) (place : Path) : Prop where
  above : disk.Holds place.dropLast
  not_directory : disk.entry? place ≠ some .directory

/-- A file that is written makes no directory and takes none away. -/
theorem entry?_put {place : Path} (h : disk.Free place) (content : List UInt8) (other : Path) :
    entry? (disk.put place content) other = some .directory
      ↔ disk.entry? other = some .directory := by
  have hput : (disk.put place content).files.lookup other
      = if other = place then some content else disk.files.lookup other :=
    lookup_putFile disk.files place content other
  rw [entry?_eq_directory_iff, entry?_eq_directory_iff, holds_put, hput]
  constructor
  · rintro ⟨hlookup, hholds⟩
    have hother : other ≠ place := by
      rintro rfl
      rw [if_pos rfl] at hlookup
      cases hlookup
    rw [if_neg hother] at hlookup
    exact ⟨hlookup, hholds.elim id fun hprefix =>
      h.above.above (prefix_dropLast_of_ne hprefix hother)⟩
  · rintro ⟨hlookup, hholds⟩
    have hother : other ≠ place := by
      rintro rfl
      exact h.not_directory (entry?_eq_directory_iff.mpr ⟨hlookup, hholds⟩)
    rw [if_neg hother]
    exact ⟨hlookup, .inl hholds⟩

/-! ## Walks -/

/-- One more part leads to a place right below something that is there, or above it. -/
theorem dropLast_next_isPrefix (place : Path) (part : String) :
    (next place part).dropLast <+: place := by
  unfold next
  split
  · exact List.dropLast_prefix place
  · split
    · exact (List.dropLast_prefix _).trans (List.dropLast_prefix place)
    · simp only [List.dropLast_concat, List.prefix_refl]

theorem walk_cons {place found : Path} {part : String} {parts : List String} :
    disk.walk place (part :: parts) = .ok found
      ↔ disk.entry? place = some .directory ∧ disk.walk (next place part) parts = .ok found := by
  rw [walk]
  split
  next h => simp [h]
  next h => simp [h]
  next h => simp [h]

/-- What a walk comes to has something above it, if it is a walk and not only its start. -/
theorem holds_of_walk {place found : Path} {parts : List String}
    (h : disk.walk place parts = .ok found) (hplace : parts = [] → disk.Holds place.dropLast) :
    disk.Holds found.dropLast := by
  induction parts generalizing place with
  | nil =>
    cases h
    exact hplace rfl
  | cons part parts ih =>
    obtain ⟨hentry, hwalk⟩ := walk_cons.mp h
    have hholds : disk.Holds place := (entry?_eq_directory_iff.mp hentry).2
    exact ih hwalk fun _ => hholds.above (dropLast_next_isPrefix place part)

theorem walk_put {place : Path} (hplace : disk.Free place) (content : List UInt8)
    {path found : Path} {parts : List String} (h : disk.walk path parts = .ok found) :
    (disk.put place content).walk path parts = .ok found := by
  induction parts generalizing path with
  | nil => exact h
  | cons part parts ih =>
    obtain ⟨hentry, hwalk⟩ := walk_cons.mp h
    exact walk_cons.mpr ⟨(entry?_put hplace content path).mpr hentry, ih hwalk⟩

/-! ## Paths -/

/-- A path of nothing but slashes leads to the root. -/
theorem head?_of_withoutSlashes {parts : List String} (hne : parts ≠ [])
    (h : withoutSlashes parts = []) : parts.head? = some "" := by
  obtain ⟨part, rest, rfl⟩ := List.exists_cons_of_ne_nil hne
  rw [withoutSlashes, List.reverse_eq_nil_iff, List.dropWhile_eq_nil_iff] at h
  have hpart := h part (List.mem_reverse.mpr (List.mem_cons_self ..))
  rw [of_decide_eq_true hpart, List.head?_cons]

theorem holds_of_locate {parts walked : List String} {found : Path}
    (h : disk.locate parts walked = .ok found) (hroot : walked = [] → parts.head? = some "") :
    disk.Holds found.dropLast := by
  unfold locate at h
  split at h
  · cases h
  · refine holds_of_walk h fun hwalked => ?_
    rw [start, if_pos (hroot hwalked)]
    exact .inl rfl

theorem locate_put {place : Path} (hplace : disk.Free place) (content : List UInt8)
    {parts walked : List String} {found : Path} (h : disk.locate parts walked = .ok found) :
    (disk.put place content).locate parts walked = .ok found := by
  unfold locate at h ⊢
  split at h
  · cases h
  next hparts =>
    rw [if_neg hparts]
    exact walk_put hplace content h

theorem fileAt_eq_ok {place found : Path} :
    disk.fileAt place = .ok found ↔ disk.entry? place ≠ some .directory ∧ place = found := by
  unfold fileAt
  split
  next h => simp [h]
  next h => simp [h]

theorem pathParts_ne_nil (path : String) : pathParts path ≠ [] :=
  mt List.map_eq_nil_iff.mp (Text.parts_ne_nil _ _)

theorem resolve_read_eq_ok {path : String} {found : Path} :
    disk.resolve (.read path) = .ok found
      ↔ disk.locate (pathParts path) (pathParts path) = .ok found
        ∧ disk.entry? found ≠ some .directory := by
  unfold resolve
  rw [bind_eq_ok]
  simp only [fileAt_eq_ok]
  constructor
  · rintro ⟨place, hlocate, hentry, rfl⟩
    exact ⟨hlocate, hentry⟩
  · rintro ⟨hlocate, hentry⟩
    exact ⟨found, hlocate, hentry, rfl⟩

theorem resolve_write_eq_ok {path : String} {found : Path} :
    disk.resolve (.write path) = .ok found
      ↔ disk.locate (pathParts path) (withoutSlashes (pathParts path)) = .ok found
        ∧ (pathParts path).getLast? ≠ some "" ∧ disk.entry? found ≠ some .directory := by
  unfold resolve
  rw [bind_eq_ok]
  constructor
  · rintro ⟨place, hlocate, h⟩
    split at h
    · cases h
    next hlast =>
      obtain ⟨hentry, rfl⟩ := fileAt_eq_ok.mp h
      exact ⟨hlocate, hlast, hentry⟩
  · rintro ⟨hlocate, hlast, hentry⟩
    exact ⟨found, hlocate, by rw [if_neg hlast, fileAt_eq_ok.mpr ⟨hentry, rfl⟩]⟩

/-- Where a path leads, a file may stand. -/
theorem free_of_resolve {access : Access} {found : Path} (h : disk.resolve access = .ok found) :
    disk.Free found := by
  cases access with
  | read path =>
    obtain ⟨hlocate, hentry⟩ := resolve_read_eq_ok.mp h
    exact ⟨holds_of_locate hlocate fun hwalked => absurd hwalked (pathParts_ne_nil path), hentry⟩
  | write path =>
    obtain ⟨hlocate, -, hentry⟩ := resolve_write_eq_ok.mp h
    exact ⟨holds_of_locate hlocate (head?_of_withoutSlashes (pathParts_ne_nil path)), hentry⟩

/-- **Paths lead to the same places when a file is written.** -/
theorem resolve_put {place : Path} {writing : Access} (hplace : disk.resolve writing = .ok place)
    (content : List UInt8) {access : Access} {found : Path}
    (h : disk.resolve access = .ok found) :
    (disk.put place content).resolve access = .ok found := by
  have hfree := free_of_resolve hplace
  have hentry := (not_congr (entry?_put hfree content found)).mpr (free_of_resolve h).not_directory
  cases access with
  | read path =>
    obtain ⟨hlocate, -⟩ := resolve_read_eq_ok.mp h
    exact resolve_read_eq_ok.mpr ⟨locate_put hfree content hlocate, hentry⟩
  | write path =>
    obtain ⟨hlocate, hlast, -⟩ := resolve_write_eq_ok.mp h
    exact resolve_write_eq_ok.mpr ⟨locate_put hfree content hlocate, hlast, hentry⟩

/-- A path may go above the working directory and start from the root, and ends in no slash if it is
to be written. -/
example :
    let disk : Disk := { files := [(["home", "a.json"], [])], workplace := ["home"] }
    disk.resolve (.write "../a.json") = .ok ["a.json"]
      ∧ disk.resolve (.read "/home/./a.json") = .ok ["home", "a.json"]
      ∧ disk.resolve (.write "a.json/") = .error .isDirectory := by decide +kernel

end Disk

end Bracketdown.CommandLine
