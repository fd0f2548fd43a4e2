import SchemaUplift.Text.Glyph

/-! The quoted form of a text, in which messages show a text that was refused. -/

namespace SchemaUplift.Text

/-- The letter that stands after a backslash for a character with a short escape. -/
def shortEscape? : Char → Option Char
  | '"' => some '"'
  | '\\' => some '\\'
  | '\n' => some 'n'
  | '\r' => some 'r'
  | '\t' => some 't'
  | '\x00' => some '0'
  | _ => none

/-- A character as it stands between the quotes: by its short escape, by its number in lower-case
hexadecimal if it shows no glyph of its own, else as itself. -/
def quotedChar (c : Char) : List Char :=
  match shortEscape? c with
  | some letter => ['\\', letter]
  | none =>
    if hasGlyph c then [c]
    else ['\\', 'u', '\x7b'] ++ Nat.toDigits 16 c.toNat ++ ['\x7d']

/-- The text in double quotes, with quotes, backslashes and characters without a glyph escaped. -/
def quoted (text : String) : String :=
  String.ofList ('"' :: text.toList.flatMap quotedChar ++ ['"'])

end SchemaUplift.Text
