import Fieldwork.Disk.Basic
import Mathlib.Data.List.Basic

/-!
# Files Grow at Their End

What becomes of a file when text is written to it.

A path is followed anew for every text, through the directories that are there
at that time. A write puts a file where a file was, so no directory comes or
goes, every path leads where it led before, and the next text goes to the same
place, behind the last one.

## Main definitions

* `Disk.HasFile`: A path leads to a file with some bytes.

## Theorems

* `hasDirectory_put_file`, `locate?_put_file`: A file where no directory is
  changes no way.
* `hasFile_append`: A text goes behind what was there.
-/

namespace Fieldwork

namespace Disk

/-- A path leads to a file with some bytes. -/
def HasFile (disk : Disk) (path : Path) (content : ByteArray) : Prop :=
  ∃ place, disk.locate? path = some place ∧ disk.entry? place = some (.file content)

variable {disk : Disk} {path : Path} {place : Place} {content : ByteArray}

/-- A path leads to one file. -/
theorem HasFile.unique {other : ByteArray} (h : disk.HasFile path content)
    (h' : disk.HasFile path other) : content = other := by
  rcases h with ⟨place, hplace, hentry⟩
  rcases h' with ⟨place', hplace', hentry'⟩
  cases hplace.symm.trans hplace'
  cases hentry.symm.trans hentry'
  rfl

theorem lookup_put (hplace : place ≠ []) (entry : DiskEntry) (other : Place) :
    Disk.entry? (disk.put place entry) other =
      if other = place then some entry else disk.entry? other := by
  cases other with
  | nil => rw [if_neg hplace.symm, entry?, entry?]
  | cons name rest =>
    -- Places are compared as lists here, and as any keys in the lemma.
    have hlookup := Ordered.lookup_insert place (name :: rest) entry disk.entries
    rw [lawful_beq_subsingleton (instBEqOfDecidableEq : BEq Place) List.instBEq] at hlookup
    exact hlookup

/-- The root is a directory, so another place is meant. -/
theorem ne_root_of_hasDirectory (h : disk.hasDirectory place = false) : place ≠ [] := by
  rintro rfl
  cases h

/-- A file where no directory is: directories are where they were. -/
theorem hasDirectory_put_file (h : disk.hasDirectory place = false) (content : ByteArray)
    (other : Place) :
    (disk.put place (.file content)).hasDirectory other = disk.hasDirectory other := by
  rw [hasDirectory, lookup_put (ne_root_of_hasDirectory h)]
  by_cases hother : other = place
  · rw [if_pos hother, hother, h]
  · rw [if_neg hother, hasDirectory]

/-- Where components lead depends on the directories alone. -/
theorem walk?_congr {other : Disk}
    (h : ∀ place, disk.hasDirectory place = other.hasDirectory place) (components : List FileName)
    (place : Place) : disk.walk? place components = other.walk? place components := by
  induction components generalizing place with
  | nil => rfl
  | cons component rest ih => rw [walk?, walk?, h place, ih]

theorem locate?_put_file (h : disk.hasDirectory place = false) (content : ByteArray)
    (path : Path) : (disk.put place (.file content)).locate? path = disk.locate? path := by
  have hwalk := walk?_congr (hasDirectory_put_file h content) path.pieces (disk.start path)
  rw [locate?, locate?, ← hwalk]
  rfl

/-- A path leads to a file that was put where it leads. -/
theorem hasFile_put (hlocate : disk.locate? path = some place)
    (h : disk.hasDirectory place = false) (content : ByteArray) :
    (disk.put place (.file content)).HasFile path content :=
  ⟨place, (locate?_put_file h content path).trans hlocate,
    (lookup_put (ne_root_of_hasDirectory h) _ place).trans (if_pos rfl)⟩

/-- A text goes behind what was there. -/
theorem hasFile_append (h : disk.HasFile path content) (text : String) :
    (disk.append path text).HasFile path (content ++ text.toUTF8) := by
  rcases h with ⟨place, hplace, hentry⟩
  have hdirectory : disk.hasDirectory place = false := by
    rw [hasDirectory, hentry]
  rw [append, hplace]
  dsimp only
  rw [hentry]
  exact hasFile_put hplace hdirectory _

end Disk

end Fieldwork
