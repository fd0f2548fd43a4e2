import SchemaUplift.Settings.Value

/-! Texts of a settings file: in single or double quotes on one line, and between threefold quotes
on several lines. -/

namespace SchemaUplift.SettingsFile

/-! ### Characters -/

/-- Whether a character separates words on a line. -/
def isSpace (c : Char) : Bool := c == ' ' || c == '\t'

/-- The text after its spaces. -/
def skipSpaces (chars : List Char) : List Char := chars.dropWhile isSpace

/-- The text after its comment, if it starts with one. -/
def skipComment (chars : List Char) : List Char :=
  match chars with
  | '#' :: rest => rest.dropWhile SettingValue.isAllowed
  | _ => chars

/-- The text after a line break, if it starts with one. -/
def lineBreak? : List Char → Option (List Char)
  | '\n' :: rest => some rest
  | '\r' :: '\n' :: rest => some rest
  | _ => none

/-! ### Quotes -/

/-- Reads a text in single quotes, in which no escapes count, from after its opening quote. -/
def literal? (chars : List Char) : Option (String × List Char) :=
  let content := chars.takeWhile fun c => c != '\'' && SettingValue.isAllowed c
  match chars.drop content.length with
  | '\'' :: rest => some (String.ofList content, rest)
  | _ => none

/-- Reads a text in single or double quotes of the given kind, from after its opening quote. -/
def quoted? (quote : Char) (chars : List Char) : Option (String × List Char) :=
  if quote == '"' then SettingValue.quotedFrom [] chars (chars.length + 1) else literal? chars

/-- The text after spaces and line breaks. -/
def skipBlankLines (chars : List Char) : Nat → List Char
  | 0 => chars
  | budget + 1 =>
    match lineBreak? (skipSpaces chars) with
    | some rest => skipBlankLines rest budget
    | none => skipSpaces chars

/-- Reads a text between threefold quotes on, after the characters in `done`, the last one first.
Line breaks count as line feeds. Up to two quotes right before the closing ones belong to the text.
In double quotes escapes count, and a backslash at the end of a line hides the white space up to the
next visible character. -/
def multilineFrom (quote : Char) (done chars : List Char) : Nat → Option (String × List Char)
  | 0 => none
  | budget + 1 =>
    if chars.take 3 == [quote, quote, quote] then
      let quotes := (chars.takeWhile (· == quote)).take 5
      some (String.ofList (done.reverse ++ quotes.drop 3), chars.drop quotes.length)
    else
      match lineBreak? chars with
      | some rest => multilineFrom quote ('\n' :: done) rest budget
      | none =>
        match chars with
        | [] => none
        | c :: rest =>
          if c == '\\' && quote == '"' then
            match lineBreak? (skipSpaces rest) with
            | some next => multilineFrom quote done (skipBlankLines next next.length) budget
            | none => do
              let (meant, rest) ← SettingValue.escape? rest
              multilineFrom quote (meant :: done) rest budget
          else if SettingValue.isAllowed c then multilineFrom quote (c :: done) rest budget
          else none

/-- Reads a text in quotes, from after the first of them. A line break right after threefold quotes
does not count. -/
def text? (quote : Char) (chars : List Char) : Option (String × List Char) :=
  match chars with
  | a :: b :: rest =>
    if a == quote && b == quote then
      let start := (lineBreak? rest).getD rest
      multilineFrom quote [] start (start.length + 1)
    else quoted? quote chars
  | _ => quoted? quote chars

end SchemaUplift.SettingsFile
