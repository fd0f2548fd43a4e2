import Mathlib.Data.List.DropRight
import SchemaUplift.Text.Blank

/-! What trimming takes from a text: white space at either end, and all of it. -/

namespace SchemaUplift.Text

/-- Trimming drops blanks from the front and then from the end. -/
theorem trimBlank_eq (chars : List Char) :
    trimBlank chars = (chars.dropWhile isBlank).rdropWhile isBlank := rfl

/-- A trimmed text does not begin with a blank. -/
theorem dropWhile_trimBlank (chars : List Char) :
    (trimBlank chars).dropWhile isBlank = trimBlank chars := by
  -- The first character of what is left is the first one after the blanks at the front.
  obtain ⟨after, whole⟩ := List.rdropWhile_prefix isBlank (l := chars.dropWhile isBlank)
  have first := List.head?_dropWhile_not isBlank chars
  rw [trimBlank_eq]
  cases left : (chars.dropWhile isBlank).rdropWhile isBlank with
  -- Nothing is left, and nothing begins with a blank.
  | nil => rfl
  | cons c rest =>
    rw [left] at whole
    rw [← whole] at first
    -- The first character of what is left is not blank.
    exact List.dropWhile_cons_of_neg (by simpa using first)

/-- Trimming twice is trimming once. -/
@[simp] theorem trimBlank_trimBlank (chars : List Char) :
    trimBlank (trimBlank chars) = trimBlank chars := by
  -- Nothing is dropped from the front again, and dropping from the end is idempotent.
  rw [trimBlank_eq (trimBlank chars), dropWhile_trimBlank, trimBlank_eq]
  exact List.rdropWhile_idempotent isBlank _

/-- Trimming takes blanks alone. -/
theorem mem_trimBlank_or_isBlank {c : Char} {chars : List Char} (member : c ∈ chars) :
    c ∈ trimBlank chars ∨ isBlank c := by
  -- The text is the front, what is left, and the end.
  rw [← List.takeWhile_append_dropWhile (p := isBlank) (l := chars), List.mem_append,
    ← List.rdropWhile_append_rtakeWhile (p := isBlank) (l := chars.dropWhile isBlank),
    List.mem_append] at member
  -- A character stands in the front, in what is left, or at the end.
  rcases member with front | kept | back
  · exact .inr (List.mem_takeWhile_imp front)
  · exact .inl kept
  · exact .inr (List.mem_rtakeWhile_imp back)

end SchemaUplift.Text
