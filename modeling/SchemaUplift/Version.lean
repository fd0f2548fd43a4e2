import SchemaUplift.Text.Blank
import SchemaUplift.Text.Quoted

/-! Schema versions: dotted numbers that compare segment by segment, a missing segment counting as
zero, so that `1.0` and `1.0.0` name one version. -/

namespace SchemaUplift

/-- Why a text is no version. -/
inductive VersionError where
  /-- Nothing is left after trimming. -/
  | empty
  /-- The segment at this index has no characters. -/
  | emptySegment (index : Nat)
  /-- The segment at this index is not a decimal number below `2 ^ 64`. -/
  | invalidSegment (index : Nat) (segment : String)
deriving DecidableEq, Repr

/-- The message for a refused version text. -/
def VersionError.message : VersionError → String
  | .empty => "version is empty"
  | .emptySegment index => s!"segment {index} is empty"
  | .invalidSegment index segment =>
    s!"segment {index} ({Text.quoted segment}) is not a non-negative integer"

/-- A schema version: its numbers, and the text that spelled them. -/
structure Version where
  /-- The numbers, in the order in which they were written. -/
  segments : List Nat
  /-- The spelling, without white space around it. -/
  text : String
deriving Repr

namespace Version

/-- The version assumed for data that declares none. -/
def zero : Version := ⟨[0, 0, 0], "0.0.0"⟩

instance : Inhabited Version := ⟨zero⟩

/-! ### Reading -/

/-- Numbers in a segment stay below this bound, the least number of more than 64 binary digits. -/
def segmentBound : Nat := 0x10000000000000000

/-- Reads one segment: ASCII digits, at least one, whose number is below the bound. -/
def readSegment (index : Nat) (digits : List Char) : Except VersionError Nat :=
  if digits.isEmpty then throw (.emptySegment index)
  else if digits.all Char.isDigit && Nat.ofDigitChars 10 digits 0 < segmentBound then
    return Nat.ofDigitChars 10 digits 0
  else throw (.invalidSegment index (String.ofList digits))

/-- Reads segments from left to right, counting them from `index`; the first bad one is reported. -/
def readSegments (index : Nat) : List (List Char) → Except VersionError (List Nat)
  | [] => return []
  | digits :: rest => do
    let number ← readSegment index digits
    let numbers ← readSegments (index + 1) rest
    return number :: numbers

/-- Reads a version: white space around it is dropped, and dots separate the segments. -/
def read (text : String) : Except VersionError Version := do
  let chars := Text.trimBlank text.toList
  if chars.isEmpty then throw .empty
  let segments ← readSegments 0 (chars.splitOn '.')
  return ⟨segments, String.ofList chars⟩

/-- The version that the last path segment of a schema URL spells, slashes at the end aside. -/
def ofSchemaUrl? (url : String) : Option Version :=
  let path := url.toList.reverse.dropWhile (· == '/')
  if path.contains '/' then
    (read (String.ofList (path.takeWhile (· != '/')).reverse)).toOption
  else none

/-! ### Order -/

/-- Compares segment lists number by number, as if zeros followed each without end. -/
def compareSegments : List Nat → List Nat → Ordering
  | [], others => if others.all (· == 0) then .eq else .lt
  | number :: rest, others =>
    (compare number (others.headD 0)).then (compareSegments rest others.tail)

instance : Ord Version := ⟨fun a b => compareSegments a.segments b.segments⟩

/-- Versions are equal when they compare as equal, however they are spelled. -/
instance : BEq Version := ⟨fun a b => compare a b == .eq⟩

instance : LE Version := leOfOrd

instance : LT Version := ltOfOrd

/-- The segments up to the last that is not zero. -/
def significant (version : Version) : List Nat :=
  (version.segments.reverse.dropWhile (· == 0)).reverse

/-- Hashing looks at the significant segments only, so equal versions hash alike. -/
instance : Hashable Version := ⟨fun version => hash version.significant⟩

/-- Whether the first version is at most the second. -/
def atMost (a b : Version) : Bool := (compare a b).isLE

/-- Comparing takes the first numbers, zero where there is none, and then what follows them. -/
theorem compareSegments_eq (numbers others : List Nat) :
    compareSegments numbers others =
      (compare (numbers.headD 0) (others.headD 0)).then
        (compareSegments numbers.tail others.tail) := by
  -- Only an empty left side needs a look at the right side.
  cases numbers with
  | cons number rest => rfl
  | nil =>
    cases others with
    | nil => rfl
    | cons other rest =>
      by_cases same : other = 0
      · simp [compareSegments, same]
      · simp [compareSegments, same, Nat.compare_eq_lt.2 (Nat.pos_of_ne_zero same)]

/-- Swapping the sides of a comparison swaps its result. -/
theorem compareSegments_swap (numbers others : List Nat) :
    compareSegments others numbers = (compareSegments numbers others).swap := by
  -- The induction takes one segment from both sides, the missing ones being zero.
  induction numbers generalizing others with
  | nil =>
    induction others with
    | nil => rfl
    | cons other rest ih =>
      rw [compareSegments_eq, compareSegments_eq [], Ordering.swap_then, ← Nat.compare_swap]
      exact congrArg _ ih
  | cons number rest ih =>
    rw [compareSegments_eq, compareSegments_eq (number :: rest), Ordering.swap_then,
      ← Nat.compare_swap]
    exact congrArg _ (ih others.tail)

/-- A comparison by first numbers comes out as at most exactly if the first number is less, or the
first numbers agree and the rest is at most. -/
theorem isLE_compare_then {x y : Nat} {rest : Ordering} :
    ((compare x y).then rest).isLE ↔ x < y ∨ x = y ∧ rest.isLE := by
  -- The three outcomes of the comparison decide both sides.
  rcases Nat.lt_trichotomy x y with less | same | greater
  · simp [Nat.compare_eq_lt.2 less, less]
  · simp [same]
  · simp [Nat.compare_eq_gt.2 greater]; omega

/-- A list of segments that is at most a second is at most what the second is at most. -/
theorem compareSegments_isLE_trans {a b c : List Nat} (left : (compareSegments a b).isLE)
    (right : (compareSegments b c).isLE) : (compareSegments a c).isLE := by
  -- The induction takes one segment from all three lists.
  induction a generalizing b c with
  | nil => simp only [compareSegments]; split <;> rfl
  | cons number rest ih =>
    rw [compareSegments_eq, isLE_compare_then] at left right ⊢
    rcases left with less | ⟨same, left⟩
    · rcases right with next | ⟨next, -⟩ <;> omega
    · rcases right with next | ⟨next, right⟩
      · omega
      · exact Or.inr ⟨same.trans next, ih left right⟩

/-- Being at most is transitive. -/
theorem atMost_trans (a b c : Version) (left : a.atMost b = true) (right : b.atMost c = true) :
    a.atMost c = true :=
  compareSegments_isLE_trans left right

/-- Of two versions one is at most the other. -/
theorem atMost_total (a b : Version) : (a.atMost b || b.atMost a) = true := by
  -- The comparison the other way round has the swapped result.
  have swapped : compare b a = (compare a b).swap := compareSegments_swap _ _
  simp only [atMost, swapped]
  cases compare a b <;> rfl

end Version

end SchemaUplift
