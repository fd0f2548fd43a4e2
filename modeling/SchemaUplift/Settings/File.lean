import SchemaUplift.Settings.File.Number
import SchemaUplift.Settings.File.Table
import SchemaUplift.Settings.File.Text

/-! Settings files: lines of the form `key = value`, and headers that put the lines below them into
a table. Values are texts, truth values, numbers, dates, lists and tables. What a table holds is no
setting. -/

namespace SchemaUplift.SettingsFile

/-! ### Keys -/

/-- The most parts of a key, and the most lists and tables that may stand inside each other. -/
def nestingLimit : Nat := 79

/-- Whether a character may stand in a key without quotes. -/
def isKeyChar (c : Char) : Bool := c.isAlphanum || c == '_' || c == '-'

/-- Reads one part of a key, with what follows it. -/
def keyPart? (chars : List Char) : Option (String × List Char) :=
  match chars with
  | '"' :: rest => quoted? '"' rest
  | '\'' :: rest => quoted? '\'' rest
  | _ =>
    let part := chars.takeWhile isKeyChar
    if part.isEmpty then none else some (String.ofList part, chars.drop part.length)

/-- Reads a key of at most the given number of parts between dots, with what follows it and the
spaces around it. -/
def keyFrom? (chars : List Char) : Nat → Option (Key × List Char)
  | 0 => none
  | limit + 1 => do
    let (part, rest) ← keyPart? (skipSpaces chars)
    match skipSpaces rest with
    | '.' :: rest =>
      let (key, rest) ← keyFrom? rest limit
      return ({ key with path := part :: key.path }, rest)
    | rest => return (⟨[], part⟩, rest)

/-- Reads a key, with what follows it and the spaces around it. -/
def key? (chars : List Char) : Option (Key × List Char) := keyFrom? chars nestingLimit

/-! ### Values -/

/-- The value that a word without quotes, brackets and braces stands for. -/
def word? (word : List Char) : Option SettingValue :=
  if word == ['t', 'r', 'u', 'e'] then some (.flag true)
  else if word == ['f', 'a', 'l', 's', 'e'] then some (.flag false)
  else if isInteger word || isFloat word then some .other
  else none

/-- Whether a character ends a word. -/
def endsWord (c : Char) : Bool :=
  isSpace c || ['\n', '\r', ',', ']', '\x7d', '#'].contains c

/-- Reads a date, a time of day or a word, with what follows it. -/
def bare? (chars : List Char) : Option (SettingValue × List Char) :=
  match afterMoment? chars with
  | some rest => some (.other, rest)
  | none => do
    let word := chars.takeWhile (!endsWord ·)
    return (← word? word, chars.drop word.length)

/-- The text after spaces, comments and line breaks. -/
def skipFiller (chars : List Char) : Nat → List Char
  | 0 => chars
  | budget + 1 =>
    match lineBreak? (skipComment (skipSpaces chars)) with
    | some rest => skipFiller rest budget
    | none => skipSpaces chars

mutual

/-- Reads a value in which at most `depth` lists and tables stand inside each other, with what
follows it. -/
def value? (depth : Nat) (chars : List Char) : Nat → Option (SettingValue × List Char)
  | 0 => none
  | budget + 1 =>
    match chars with
    | '"' :: rest => (text? '"' rest).map fun (content, rest) => (.text content, rest)
    | '\'' :: rest => (text? '\'' rest).map fun (content, rest) => (.text content, rest)
    | '[' :: rest =>
      if depth = 0 then none
      else
        (list? (depth - 1) (skipFiller rest rest.length) budget).map fun rest => (.other, rest)
    | '\x7b' :: rest =>
      if depth = 0 then none
      else
        match skipSpaces rest with
        | '\x7d' :: rest => some (.other, rest)
        | rest => (table? (depth - 1) [] rest budget).map fun rest => (.other, rest)
    | _ => bare? chars

/-- The text after a list, given the text from the next item or the closing bracket on. -/
def list? (depth : Nat) (chars : List Char) : Nat → Option (List Char)
  | 0 => none
  | budget + 1 =>
    match chars with
    | ']' :: rest => some rest
    | _ => do
      let (_, rest) ← value? depth chars budget
      match skipFiller rest rest.length with
      | ',' :: rest => list? depth (skipFiller rest rest.length) budget
      | ']' :: rest => some rest
      | _ => none

/-- The text after a table in braces that has the given entries, given the text from the next key
on. The table stands on one line. -/
def table? (depth : Nat) (entries : Entries) (chars : List Char) : Nat → Option (List Char)
  | 0 => none
  | budget + 1 => do
    let (key, value, rest) ← assignment? depth chars budget
    let entries ← entries.assign? .own key value
    match skipSpaces rest with
    | ',' :: rest => table? depth entries rest budget
    | '\x7d' :: rest => some rest
    | _ => none

/-- Reads a key with its value, with what follows them. -/
def assignment? (depth : Nat) (chars : List Char) :
    Nat → Option (Key × SettingValue × List Char)
  | 0 => none
  | budget + 1 => do
    let (key, rest) ← key? chars
    match rest with
    | '=' :: rest =>
      let (value, rest) ← value? depth (skipSpaces rest) budget
      return (key, value, rest)
    | _ => none

end

/-! ### Lines -/

/-- A line that is neither empty nor only a comment. -/
inductive Line where
  /-- A key with its value. -/
  | assignment (key : Key) (value : SettingValue)
  /-- The header of a table, or of a table in a list if `listed` holds. -/
  | header (listed : Bool) (key : Key)

/-- Reads a header, with what follows it. -/
def header? (chars : List Char) : Option (Line × List Char) := do
  match chars with
  | '[' :: '[' :: rest =>
    match ← key? rest with
    | (key, ']' :: ']' :: rest) => some (.header true key, rest)
    | _ => none
  | '[' :: rest =>
    match ← key? rest with
    | (key, ']' :: rest) => some (.header false key, rest)
    | _ => none
  | _ => none

/-- Reads what a line holds after its spaces, with what follows it. -/
def line? (chars : List Char) : Option (Option Line × List Char) :=
  match chars with
  | [] => some (none, [])
  | c :: _ =>
    if ['#', '\n', '\r'].contains c then some (none, chars)
    else if c == '[' then (header? chars).map fun (line, rest) => (some line, rest)
    else
      (assignment? nestingLimit chars (2 * chars.length + 2)).map fun (key, value, rest) =>
        (some (.assignment key value), rest)

/-- Reads the lines of a file. -/
def lines? (chars : List Char) : Nat → Option (List Line)
  | 0 => none
  | budget + 1 => do
    let (found?, rest) ← line? (skipSpaces chars)
    match skipComment (skipSpaces rest) with
    | [] => return found?.toList
    | rest =>
      let next ← lineBreak? rest
      return found?.toList ++ (← lines? next budget)

/-! ### Files -/

/-- A file as far as its lines were taken in. -/
structure Contents where
  /-- The entries of the file as a whole. -/
  entries : Entries
  /-- The path of the table that the next lines belong to. -/
  path : List String

/-- Takes a line in. -/
def Contents.add? (contents : Contents) : Line → Option Contents
  | .header listed key => do
    return ⟨← contents.entries.open? listed key, key.path ++ [key.name]⟩
  | .assignment key value => do
    let assign? (origin : TableOrigin) (entries : Entries) : Option Entries :=
      entries.assign? origin key value
    let entries ← Entries.addAt? .header assign? .own contents.entries contents.path
    return { contents with entries }

/-- The value that an item is as a setting. -/
def Item.setting : Item → SettingValue
  | .value given => given
  | _ => .other

/-- Reads the settings of a file, which may start with a byte order mark. -/
def read? (text : String) : Option (List (String × SettingValue)) := do
  let chars := match text.toList with
    | '\ufeff' :: rest => rest
    | chars => chars
  let contents ← (← lines? chars (chars.length + 1)).foldlM Contents.add? ⟨[], []⟩
  return contents.entries.map fun (name, item) => (name, item.setting)

end SchemaUplift.SettingsFile
