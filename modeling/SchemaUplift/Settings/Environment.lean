import SchemaUplift.Decimal.Literal
import SchemaUplift.Settings.Value
import SchemaUplift.Text.Blank

/-! Settings from the variables of an environment. The text of a variable is read as a value where
it has the form of one, and counts as a text as it stands where it has not. -/

namespace SchemaUplift.Environment

/-- The start of the names of variables that are settings, in any case of letters. -/
def namePrefix : String := "TELEMETRY_SCHEMA_"

/-- Whether a character is white space among the ASCII characters. -/
def isSpace (c : Char) : Bool := [' ', '\t', '\n', '\r', '\x0c'].contains c

/-- The text after its white space. -/
def skipSpaces (chars : List Char) : List Char := chars.dropWhile isSpace

/-- Whether a character cannot stand in a bare word. -/
def isSeparator (c : Char) : Bool := [',', '\x7b', '\x7d', '[', ']'].contains c

/-- Whether a character may stand in a key without quotes. -/
def isKeyChar (c : Char) : Bool := c.isAlphanum || c == '_' || c == '-'

/-- Whether a word is a number: one with a point, or an integer of at most 64 bits. -/
def isNumber (word : List Char) : Bool :=
  word.contains '.' && (Decimal.Literal.magnitude? word).isSome ||
    match word with
    | '-' :: digits => (Text.number? 10 digits).any (· ≤ Text.bitBound 63)
    | '+' :: digits => (Text.number? 10 digits).any (· < Text.bitBound 64)
    | digits => (Text.number? 10 digits).any (· < Text.bitBound 64)

/-- The value of a bare word. -/
def bare (word : List Char) : SettingValue :=
  let word := Text.trimBlank word
  if isNumber word then .other else .text (String.ofList word)

/-- The longest start of a text that has at most the given number of bytes. -/
def firstBytes : Nat → List Char → List Char
  | count, c :: rest =>
    if c.utf8Size ≤ count then c :: firstBytes (count - c.utf8Size) rest else []
  | _, [] => []

/-- Reads a text in double quotes, from after its opening quote. Before its first escape, the text
keeps only as many bytes as it has characters there. -/
def quoted? (chars : List Char) : Option (String × List Char) :=
  let start := chars.takeWhile fun c => c != '"' && c != '\\' && SettingValue.isAllowed c
  let rest := chars.drop start.length
  let kept := if rest.head? == some '\\' then firstBytes start.length start else start
  SettingValue.quotedFrom kept.reverse rest (rest.length + 1)

/-- Reads the key of an entry of a table, with what follows the equals sign after it. -/
def key? (chars : List Char) : Option (List Char) := do
  let rest ← match chars with
    | '"' :: rest => (quoted? rest).map (·.2)
    | _ => if (chars.head?).any isKeyChar then some (chars.dropWhile isKeyChar) else none
  match skipSpaces rest with
  | '=' :: rest => some rest
  | _ => none

mutual

/-- Reads a value, with what follows it and its white space. -/
def value? (chars : List Char) : Nat → Option (SettingValue × List Char)
  | 0 => none
  | budget + 1 => do
    let (value, rest) ← match skipSpaces chars with
      | 't' :: 'r' :: 'u' :: 'e' :: rest => some (.flag true, rest)
      | 'f' :: 'a' :: 'l' :: 's' :: 'e' :: rest => some (.flag false, rest)
      | '"' :: rest => (quoted? rest).map fun (content, rest) => (.text content, rest)
      | '\'' :: c :: '\'' :: rest => some (.text (String.ofList [c]), rest)
      | '\'' :: _ => none
      | '[' :: rest => (list? rest budget).map fun rest => (.other, rest)
      | '\x7b' :: rest => (table? rest budget).map fun rest => (.other, rest)
      | chars => some (bare (chars.takeWhile (!isSeparator ·)), chars.dropWhile (!isSeparator ·))
    return (value, skipSpaces rest)

/-- The text after a list, given the text from the next item or the closing bracket on. -/
def list? (chars : List Char) : Nat → Option (List Char)
  | 0 => none
  | budget + 1 =>
    match chars with
    | ']' :: rest => some rest
    | _ => do
      let (_, rest) ← value? chars budget
      match rest with
      | ',' :: rest => list? rest budget
      | ']' :: rest => some rest
      | _ => none

/-- The text after a table, given the text from the next entry or the closing brace on. -/
def table? (chars : List Char) : Nat → Option (List Char)
  | 0 => none
  | budget + 1 =>
    match chars with
    | '\x7d' :: rest => some rest
    | _ => do
      let (_, rest) ← value? (← key? (skipSpaces chars)) budget
      match rest with
      | ',' :: rest => table? rest budget
      | '\x7d' :: rest => some rest
      | _ => none

end

/-- The value of a variable with the given text. -/
def read (text : String) : SettingValue :=
  match value? text.toList (2 * text.length + 2) with
  | some (value, []) => value
  | _ => .text text

/-- The path of the setting that the variable with a name gives: what follows the start of the name,
in lower case, with dots between the steps. White space around the name and after its start does
not count. -/
def settingPath? (name : String) : Option (List String) :=
  let name := (Text.trimBlank name.toList).map Char.toLower
  let start := namePrefix.toList.map Char.toLower
  let path := Text.trimBlank (name.drop start.length)
  if start.isPrefixOf name && !path.isEmpty then some ((path.splitOn '.').map String.ofList)
  else none

/-- The setting that the variable with a name and a text gives. A path of several steps leads to a
table, and one with an empty step nowhere. -/
def setting? (name text : String) : Option (String × SettingValue) :=
  match settingPath? name with
  | some [name] => some (name, read text)
  | some (name :: rest) => if (name :: rest).contains "" then none else some (name, .other)
  | _ => none

/-- The settings that variables give, in the order of the variables. -/
def settings (environment : List (String × String)) : List (String × SettingValue) :=
  environment.filterMap fun (name, text) => setting? name text

end SchemaUplift.Environment
