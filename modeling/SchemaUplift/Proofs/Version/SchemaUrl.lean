import SchemaUplift.Proofs.Version.Grammar

/-! Versions at the end of schema URLs. Slashes after the version do not matter, nor does what
stands before the slash in front of it. -/

namespace SchemaUplift.Version

/-- The URL without the slashes at its end. -/
def urlPath (url : String) : List Char := url.toList.rdropWhile (· == '/')

/-- What spells a version has no slash in it, nor has the white space around it. -/
theorem slash_not_mem_of_read {text : String} {version : Version}
    (success : read text = .ok version) : '/' ∉ text.toList := by
  intro slash
  rcases Text.mem_trimBlank_or_isBlank slash with kept | blank
  · -- A slash is neither a dot nor a digit.
    have allowed := (read_eq_ok_iff.1 success).1.eq_dot_or_digit '/' kept
    exact absurd allowed (by decide)
  · -- A slash is not blank.
    exact absurd blank (by decide)

/-- The piece behind the last slash of a path is read. -/
theorem ofSchemaUrl?_eq (url : String) : ofSchemaUrl? url =
    if '/' ∈ urlPath url then
      (read (String.ofList ((urlPath url).rtakeWhile (· != '/')))).toOption
    else none := by
  -- The search runs over the URL from its end, which is the path from its end.
  have reversed : url.toList.reverse.dropWhile (· == '/') = (urlPath url).reverse := by
    rw [urlPath, List.rdropWhile, List.reverse_reverse]
  simp only [ofSchemaUrl?, reversed, List.rtakeWhile, List.contains_iff_mem, List.mem_reverse]

/-- What stands behind the last slash is the last piece. -/
theorem rtakeWhile_append_slash (start : List Char) {last : List Char} (clear : '/' ∉ last) :
    (start ++ '/' :: last).rtakeWhile (· != '/') = last := by
  -- From the end, the walk passes the last piece and stops at the slash before it.
  have reversed : (start ++ '/' :: last).reverse = last.reverse ++ '/' :: start.reverse := by simp
  have passed : ∀ c ∈ last.reverse, (c != '/') = true := by
    intro c member
    simp only [bne_iff_ne]
    rintro rfl
    exact clear (List.mem_reverse.1 member)
  rw [List.rtakeWhile, reversed, List.takeWhile_append_of_pos passed,
    List.takeWhile_cons_of_neg (by simp), List.append_nil, List.reverse_reverse]

/-- A path with a slash ends in its last slash and its last piece. -/
theorem exists_eq_append_slash {path : List Char} (slash : '/' ∈ path) :
    ∃ start, path = start ++ '/' :: path.rtakeWhile (· != '/') := by
  -- The path is what the last piece leaves of it, and the last piece.
  have whole := List.rdropWhile_append_rtakeWhile (p := (· != '/')) (l := path)
  -- What the last piece leaves of the path holds the slash, and so it ends in one.
  have ne_nil : path.rdropWhile (· != '/') ≠ [] := by
    intro empty
    have passed := List.rdropWhile_eq_nil_iff.1 empty '/' slash
    simp at passed
  have ends := List.rdropWhile_last_not _ _ ne_nil
  rw [bne_iff_ne, not_not] at ends
  have parted := List.dropLast_append_getLast ne_nil
  rw [ends] at parted
  refine ⟨(path.rdropWhile (· != '/')).dropLast, ?_⟩
  rw [← List.singleton_append, ← List.append_assoc, parted, whole]

/-- A URL has a version exactly if, slashes at its end aside, it ends in a slash and a text that is
read as the version. -/
theorem ofSchemaUrl?_eq_some_iff {url : String} {version : Version} :
    ofSchemaUrl? url = some version ↔ ∃ start last,
      urlPath url = start ++ '/' :: last ∧ read (String.ofList last) = .ok version := by
  rw [ofSchemaUrl?_eq]
  constructor
  · intro found
    split at found
    · -- What was read is the last piece, and a slash stands before it.
      rename_i slash
      obtain ⟨start, path⟩ := exists_eq_append_slash slash
      -- The version is that of the last piece.
      exact ⟨start, _, path, Except.toOption_eq_some_iff.1 found⟩
    · cases found
  · rintro ⟨start, last, path, success⟩
    -- A text that is read has no slash, so it is the last piece of the path.
    have clear := slash_not_mem_of_read success
    rw [String.toList_ofList] at clear
    rw [path, if_pos (by simp), rtakeWhile_append_slash start clear]
    exact Except.toOption_eq_some_iff.2 success

/-- A URL has no version exactly if, slashes at its end aside, it has no slash or does not end in a
slash and a text that spells a version. -/
theorem ofSchemaUrl?_eq_none_iff {url : String} : ofSchemaUrl? url = none ↔
    '/' ∉ urlPath url ∨ ¬ ∃ start last numbers,
      urlPath url = start ++ '/' :: last ∧ Spells (Text.trimBlank last) numbers := by
  rw [Option.eq_none_iff_forall_ne_some]
  simp only [ne_eq, ofSchemaUrl?_eq_some_iff]
  constructor
  · intro unread
    refine .inr ?_
    -- Characters that spell numbers are read as the version with these.
    rintro ⟨start, last, numbers, path, spells⟩
    refine unread ⟨numbers, String.ofList (Text.trimBlank last)⟩ ⟨start, last, path, ?_⟩
    exact read_eq_ok_iff.2 ⟨by simpa using spells, by simp⟩
  · rintro absent version ⟨start, last, path, success⟩
    -- A version that is read takes a slash before it and a text that spells it.
    rcases absent with clear | unspelled
    · -- A path without a slash does not end in one and a text behind it.
      exact clear (by simp [path])
    · -- The text that was read spells the segments of its version.
      exact unspelled ⟨start, last, _, path, by simpa using (read_eq_ok_iff.1 success).1⟩

/-- Slashes at the end of a URL do not matter. -/
theorem urlPath_append_slashes (url : String) (count : Nat) :
    urlPath (url ++ String.ofList (List.replicate count '/')) = urlPath url := by
  -- All that was appended is dropped, and then dropping goes on in the URL itself.
  have slashes : ∀ c ∈ List.replicate count '/', (c == '/') = true := by simp
  rw [urlPath, String.toList_append, String.toList_ofList, List.rdropWhile, List.reverse_append,
    List.reverse_replicate, List.dropWhile_append_of_pos slashes]
  rfl

/-- A version is found behind any text that ends in a slash, whatever number of slashes follow. -/
theorem ofSchemaUrl?_append {text : String} {version : Version}
    (success : read text = .ok version) (start : String) (count : Nat) :
    ofSchemaUrl? (start ++ "/" ++ version.text ++ String.ofList (List.replicate count '/')) =
      some version := by
  -- The text of the version is read as the version again.
  have again : read version.text = .ok version := read_text success
  have clear := slash_not_mem_of_read again
  refine ofSchemaUrl?_eq_some_iff.2 ⟨start.toList, version.text.toList, ?_, by simpa using again⟩
  -- The slash that is added stands between the text in front and the version.
  have whole :
      (start ++ "/" ++ version.text).toList = start.toList ++ '/' :: version.text.toList := by
    simp
  rw [urlPath_append_slashes, urlPath, whole, List.rdropWhile_eq_self_iff]
  -- The last character is one of the version, which is no slash.
  intro ne_nil slash
  have spelled : version.text.toList ≠ [] := by
    intro empty
    exact (read_eq_ok_iff.1 again).1.ne_nil (by simp [empty, Text.trimBlank])
  rw [List.getLast_append_of_ne_nil _ (List.cons_ne_nil _ _), List.getLast_cons spelled,
    beq_iff_eq] at slash
  exact clear (slash ▸ List.getLast_mem spelled)

/-- A text is read as a version exactly if, white space around it aside, it is made of runs of
digits with single dots between them, each of which denotes a number below 2 ^ 64; else it is
refused for being empty or for the first bad run. A version reads back from its text, alone and at
the end of a URL, and a URL that ends in no version has none. -/
theorem read_eq_ok_iff_spells :
    (∀ text version, read text = .ok version ↔
      Spells (Text.trimBlank text.toList) version.segments ∧
        version.text = String.ofList (Text.trimBlank text.toList)) ∧
    (∀ text cause, read text = .error cause ↔
      Text.trimBlank text.toList = [] ∧ cause = .empty ∨
      Text.trimBlank text.toList ≠ [] ∧ ∃ index run,
        IsFirstBad ((Text.trimBlank text.toList).splitOn '.') index run ∧
          cause = if run = [] then .emptySegment index
            else .invalidSegment index (String.ofList run)) ∧
    (∀ text version, read text = .ok version → read version.text = .ok version ∧
      ∀ (start : String) (count : Nat),
        ofSchemaUrl? (start ++ "/" ++ version.text ++ String.ofList (List.replicate count '/')) =
          some version) ∧
    ∀ url, ofSchemaUrl? url = none ↔
      '/' ∉ urlPath url ∨ ¬ ∃ start last numbers,
        urlPath url = start ++ '/' :: last ∧ Spells (Text.trimBlank last) numbers := by
  refine ⟨fun text version => read_eq_ok_iff, fun text cause => read_eq_error_iff, ?_,
    fun url => ofSchemaUrl?_eq_none_iff⟩
  intro text version success
  exact ⟨read_text success, ofSchemaUrl?_append success⟩

/-- Idle zeros and white space do not matter, nor does where the version stands in a URL; the
largest number of 64 bits is fine. -/
theorem read_eq_ok_iff_spells_widest :
    read " 01.18446744073709551615\n" = .ok ⟨[1, 18446744073709551615], "01.18446744073709551615"⟩ ∧
      read "01.18446744073709551615" = .ok ⟨[1, 18446744073709551615], "01.18446744073709551615"⟩ ∧
      ofSchemaUrl? "https://opentelemetry.io/schemas/01.18446744073709551615//" =
        some ⟨[1, 18446744073709551615], "01.18446744073709551615"⟩ := by
  have success : read " 01.18446744073709551615\n" =
      .ok ⟨[1, 18446744073709551615], "01.18446744073709551615"⟩ := by rfl
  obtain ⟨-, -, readsBack, -⟩ := read_eq_ok_iff_spells
  obtain ⟨again, found⟩ := readsBack _ _ success
  exact ⟨success, again, found "https://opentelemetry.io/schemas" 2⟩

end SchemaUplift.Version
