import Mathlib.Data.Nat.Digits.Defs
import SchemaUplift.Proofs.Except
import SchemaUplift.Proofs.Text.Trimming
import SchemaUplift.Version

/-! The texts that spell versions: between white space, numbers of decimal digits with single dots
between them. Any other text is refused for its first bad segment, or for being empty. -/

namespace SchemaUplift.Version

/-! ### One segment -/

/-- The number that decimal digits denote. -/
def decimal (digits : List Char) : Nat :=
  Nat.ofDigits 10 (digits.reverse.map fun c => c.toNat - '0'.toNat)

/-- A run of ASCII digits that denotes a number below the bound; idle zeros are fine. -/
structure IsSegment (run : List Char) : Prop where
  /-- There is a digit. -/
  ne_nil : run ≠ []
  /-- All characters are digits. -/
  digits : ∀ c ∈ run, '0' ≤ c ∧ c ≤ '9'
  /-- The number fits into 64 bits. -/
  bounded : decimal run < 2 ^ 64

/-- What is wrong with the segment at an index, if it is bad. -/
def segmentError (index : Nat) (run : List Char) : VersionError :=
  if run = [] then .emptySegment index else .invalidSegment index (String.ofList run)

/-- Reading digits from the left gives the number that they denote. -/
theorem ofDigitChars_eq_decimal (digits : List Char) :
    Nat.ofDigitChars 10 digits 0 = decimal digits := by
  induction digits using List.reverseRecOn with
  | nil => rfl
  | append_singleton digits c ih =>
    -- The last digit is the least significant one.
    rw [Nat.ofDigitChars_eq_foldl] at ih
    rw [Nat.ofDigitChars_eq_foldl, List.foldl_concat, ih]
    simp [decimal, Nat.ofDigits_cons, add_comm]

/-- The test for digits is one for a range of characters. -/
theorem all_isDigit_iff {run : List Char} :
    run.all Char.isDigit = true ↔ ∀ c ∈ run, '0' ≤ c ∧ c ≤ '9' := by
  simp [Char.isDigit, Char.le_def]

/-- The tests of the reader are the conditions on a segment. -/
theorem isSegment_iff {run : List Char} : IsSegment run ↔
    run ≠ [] ∧
      (run.all Char.isDigit && decide (Nat.ofDigitChars 10 run 0 < segmentBound)) = true := by
  rw [Bool.and_eq_true, decide_eq_true_iff, all_isDigit_iff, ofDigitChars_eq_decimal]
  -- The three conditions are the tests, with the bound on the number they denote.
  exact ⟨fun good => ⟨good.ne_nil, good.digits, good.bounded⟩,
    fun ⟨ne_nil, digits, bounded⟩ => ⟨ne_nil, digits, bounded⟩⟩

instance : DecidablePred IsSegment := fun _ => decidable_of_iff _ isSegment_iff.symm

/-- The number of a segment is read, and what is no segment is refused. -/
theorem readSegment_eq (index : Nat) (run : List Char) :
    readSegment index run =
      if IsSegment run then .ok (decimal run) else .error (segmentError index run) := by
  by_cases empty : run = []
  · -- An empty segment has an error of its own, whatever the test for digits says of it.
    subst empty
    rfl
  · -- With a digit or more, the test of the reader is what makes a segment.
    have tested : (run.all Char.isDigit &&
        decide (Nat.ofDigitChars 10 run 0 < segmentBound)) = true ↔ IsSegment run := by
      simp [isSegment_iff, empty]
    rw [readSegment, if_neg (by simpa using empty), segmentError, if_neg empty,
      ← ofDigitChars_eq_decimal]
    simp only [tested]
    rfl

/-! ### All segments -/

/-- The first bad one of some segments stands at a position. -/
structure IsFirstBad (runs : List (List Char)) (position : Nat) (run : List Char) : Prop where
  /-- It stands there. -/
  place : runs[position]? = some run
  /-- It is bad. -/
  bad : ¬ IsSegment run
  /-- All before it are good. -/
  before : ∀ earlier ∈ runs.take position, IsSegment earlier

namespace IsFirstBad

variable {first run : List Char} {rest : List (List Char)} {position : Nat}

/-- The first segment of all is the first bad one if it is bad. -/
theorem zero_iff : IsFirstBad (first :: rest) 0 run ↔ first = run ∧ ¬ IsSegment run := by
  constructor
  · intro firstBad
    exact ⟨by simpa using firstBad.place, firstBad.bad⟩
  · rintro ⟨rfl, bad⟩
    -- No segment stands before the first one.
    exact ⟨rfl, bad, by simp⟩

/-- A later segment is the first bad one if the first of all is good. -/
theorem succ_iff : IsFirstBad (first :: rest) (position + 1) run ↔
    IsSegment first ∧ IsFirstBad rest position run := by
  constructor
  · intro firstBad
    -- The first of all stands before the later one.
    obtain ⟨good, others⟩ := List.forall_mem_cons.1 firstBad.before
    exact ⟨good, firstBad.place, firstBad.bad, others⟩
  · rintro ⟨good, firstBad⟩
    -- What stands before the later one is the first of all and what is before it in the rest.
    exact ⟨firstBad.place, firstBad.bad, List.forall_mem_cons.2 ⟨good, firstBad.before⟩⟩

end IsFirstBad

/-- The number of a good segment comes before those of the segments that follow it, which are
counted from the next index; a bad one ends the reading. -/
theorem readSegments_cons (index : Nat) (first : List Char) (rest : List (List Char)) :
    readSegments index (first :: rest) =
      if IsSegment first then (readSegments (index + 1) rest).map (decimal first :: ·)
      else .error (segmentError index first) := by
  rw [readSegments, readSegment_eq]
  split
  · -- The numbers of the others come behind that of the segment.
    cases readSegments (index + 1) rest <;> rfl
  · -- The error of the segment ends the reading.
    rfl

/-- Segments are read exactly if all of them are good, and then their numbers are. -/
theorem readSegments_eq_ok_iff {index : Nat} {runs : List (List Char)} {numbers : List Nat} :
    readSegments index runs = .ok numbers ↔
      (∀ run ∈ runs, IsSegment run) ∧ numbers = runs.map decimal := by
  -- The induction reads the first segment, and the others count from the next index.
  induction runs generalizing index numbers with
  | nil => simp [readSegments, Pure.pure, Except.pure, eq_comm]
  | cons first rest ih =>
    rw [readSegments_cons, List.forall_mem_cons, List.map_cons]
    split
    · -- The others are read on their own, and the number of the first one is put before them.
      rename_i good
      rw [Except.map_eq_ok_iff]
      constructor
      · rintro ⟨others, read, rfl⟩
        obtain ⟨goods, rfl⟩ := ih.1 read
        exact ⟨⟨good, goods⟩, rfl⟩
      · rintro ⟨⟨-, goods⟩, rfl⟩
        exact ⟨_, ih.2 ⟨goods, rfl⟩, rfl⟩
    · -- A bad segment ends the reading, so there are no numbers on either side.
      rename_i bad
      simp [bad]

/-- Segments are refused exactly for the first bad one. -/
theorem readSegments_eq_error_iff {index : Nat} {runs : List (List Char)} {cause : VersionError} :
    readSegments index runs = .error cause ↔
      ∃ position run, IsFirstBad runs position run ∧
        cause = segmentError (index + position) run := by
  -- The position counts from the segment at hand, the index from the first one of the text.
  induction runs generalizing index with
  | nil =>
    -- Without segments nothing is refused and none is bad.
    refine iff_of_false (by simp [readSegments, Pure.pure, Except.pure]) ?_
    rintro ⟨position, run, firstBad, -⟩
    simpa using firstBad.place
  | cons first rest ih =>
    rw [readSegments_cons]
    split
    · -- The search goes on behind a good segment, with the next index.
      rename_i good
      rw [Except.map_eq_error_iff, ih]
      constructor
      · -- The segment found in the rest is one position further in all.
        rintro ⟨position, run, firstBad, rfl⟩
        exact ⟨position + 1, run, IsFirstBad.succ_iff.2 ⟨good, firstBad⟩, by congr 1; omega⟩
      · rintro ⟨_ | position, run, firstBad, rfl⟩
        · -- The first segment of all is good.
          obtain ⟨rfl, bad⟩ := IsFirstBad.zero_iff.1 firstBad
          exact absurd good bad
        · -- The first bad segment is in the rest.
          exact ⟨position, run, (IsFirstBad.succ_iff.1 firstBad).2, by congr 1; omega⟩
    · -- A bad segment is the first bad one, and what follows it is not looked at.
      rename_i bad
      constructor
      · -- The error is that of the first segment of all.
        rintro ⟨⟩
        exact ⟨0, first, IsFirstBad.zero_iff.2 ⟨rfl, bad⟩, rfl⟩
      · rintro ⟨_ | position, run, firstBad, rfl⟩
        · -- The first bad segment is the first of all.
          obtain ⟨rfl, -⟩ := IsFirstBad.zero_iff.1 firstBad
          rfl
        · -- No later segment is the first bad one.
          exact absurd (IsFirstBad.succ_iff.1 firstBad).1 bad

/-! ### Whole texts -/

/-- Reading looks at what is left of a text without the white space around it: if nothing is, the
text is refused as empty, and else the segments between the dots are read. -/
theorem read_eq (text : String) :
    read text = if Text.trimBlank text.toList = [] then .error .empty
      else (readSegments 0 ((Text.trimBlank text.toList).splitOn '.')).map
        (⟨·, String.ofList (Text.trimBlank text.toList)⟩) := by
  simp only [read, List.isEmpty_iff]
  split
  · -- Nothing is left to read.
    rfl
  · -- The segments are read, or one of them is refused.
    cases readSegments 0 ((Text.trimBlank text.toList).splitOn '.') <;> rfl

/-- Texts that are the same, white space around them aside, are read alike. -/
theorem read_congr {text other : String}
    (same : Text.trimBlank text.toList = Text.trimBlank other.toList) : read text = read other := by
  simp only [read, same]

/-- A segment has no dot in it. -/
theorem IsSegment.dot_not_mem {run : List Char} (good : IsSegment run) : '.' ∉ run :=
  fun dot => absurd (good.digits '.' dot).1 (by decide)

/-- The characters are segments with single dots between them, which denote the numbers. -/
def Spells (chars : List Char) (numbers : List Nat) : Prop :=
  ∃ runs : List (List Char), runs ≠ [] ∧ (∀ run ∈ runs, IsSegment run) ∧
    chars = ['.'].intercalate runs ∧ numbers = runs.map decimal

/-- Without characters no number is spelled. -/
theorem Spells.ne_nil {chars : List Char} {numbers : List Nat} (spells : Spells chars numbers) :
    chars ≠ [] := by
  -- There is a segment.
  obtain ⟨_ | ⟨first, rest⟩, ne_nil, goods, rfl, -⟩ := spells
  · exact absurd rfl ne_nil
  · -- The first segment has characters, whatever follows it.
    have first := (goods first List.mem_cons_self).ne_nil
    cases rest <;> simp [first]

/-- Characters that spell numbers are digits and dots. -/
theorem Spells.eq_dot_or_digit {chars : List Char} {numbers : List Nat}
    (spells : Spells chars numbers) : ∀ c ∈ chars, c = '.' ∨ '0' ≤ c ∧ c ≤ '9' := by
  obtain ⟨runs, -, goods, rfl, -⟩ := spells
  clear numbers
  -- The induction is on the segments; each but the last has a dot behind it.
  induction runs with
  | nil => simp
  | cons first rest ih =>
    obtain ⟨good, others⟩ := List.forall_mem_cons.1 goods
    cases rest with
    -- The last segment is all that is left.
    | nil => exact fun c member => .inr (good.digits c (by simpa using member))
    | cons second rest =>
      -- A character is one of the first segment, the dot behind it, or one of the rest.
      rw [List.intercalate_cons_cons]
      intro c member
      rcases List.mem_append.1 member with member | member
      · rcases List.mem_append.1 member with digit | dot
        · exact .inr (good.digits c digit)
        · exact .inl (List.mem_singleton.1 dot)
      · exact ih others c member

/-- A text is read exactly if what is left of it without the white space around it spells numbers,
and then these are read. -/
theorem read_eq_ok_iff {text : String} {version : Version} :
    read text = .ok version ↔ Spells (Text.trimBlank text.toList) version.segments ∧
      version.text = String.ofList (Text.trimBlank text.toList) := by
  rw [read_eq]
  constructor
  · intro success
    -- An empty text is not read.
    split at success
    · cases success
    · -- The segments are those between the dots.
      obtain ⟨numbers, segments, rfl⟩ := Except.map_eq_ok_iff.1 success
      obtain ⟨goods, rfl⟩ := readSegments_eq_ok_iff.1 segments
      exact ⟨⟨_, List.splitOn_ne_nil _ _, goods, (List.intercalate_splitOn '.').symm, rfl⟩, rfl⟩
  · -- The text spells the numbers, so that it is not empty.
    obtain ⟨numbers, spelling⟩ := version
    rintro ⟨spells, rfl⟩
    rw [if_neg spells.ne_nil]
    obtain ⟨runs, ne_nil, goods, whole, rfl⟩ := spells
    -- No segment has a dot of its own, so splitting at the dots finds the segments again.
    have between : (Text.trimBlank text.toList).splitOn '.' = runs := by
      rw [whole]
      exact List.splitOn_intercalate '.' (fun run member => (goods run member).dot_not_mem)
        ne_nil
    rw [between, readSegments_eq_ok_iff.2 ⟨goods, rfl⟩]
    rfl

/-- A version is read back from its text. -/
theorem read_text {text : String} {version : Version} (success : read text = .ok version) :
    read version.text = .ok version := by
  -- The text is what is left of the one that was read, and trimming it again takes nothing.
  refine (read_congr ?_).trans success
  rw [(read_eq_ok_iff.1 success).2, String.toList_ofList, Text.trimBlank_trimBlank]

/-- A text is refused exactly if nothing is left of it without the white space around it, or else
for the first bad one of the segments between its dots. -/
theorem read_eq_error_iff {text : String} {cause : VersionError} :
    read text = .error cause ↔
      Text.trimBlank text.toList = [] ∧ cause = .empty ∨
      Text.trimBlank text.toList ≠ [] ∧ ∃ position run,
        IsFirstBad ((Text.trimBlank text.toList).splitOn '.') position run ∧
          cause = segmentError position run := by
  rw [read_eq]
  -- The empty text has an empty segment too, but is refused before it is split.
  split
  · rename_i empty
    -- The text is empty.
    simp [empty, eq_comm]
  · rename_i left
    -- There are segments, and the first bad one of them is reported.
    rw [Except.map_eq_error_iff, readSegments_eq_error_iff]
    simp [left]

end SchemaUplift.Version
