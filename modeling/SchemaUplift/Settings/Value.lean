import SchemaUplift.Text.Digit

/-! Values of settings, and the quoted texts among them. -/

namespace SchemaUplift

/-- The value of a setting, as far as settings tell values apart. -/
inductive SettingValue where
  /-- A text. -/
  | text (content : String)
  /-- A truth value. -/
  | flag (on : Bool)
  /-- A number, a list or a table, which no setting takes. -/
  | other
deriving DecidableEq, Repr

namespace SettingValue

/-- Whether a character may stand in a text or a comment: a tab, or no control character. -/
def isAllowed (c : Char) : Bool := c == '\t' || 0x20 ≤ c.toNat && c != '\x7f'

/-- What a letter after a backslash stands for. -/
def escaped? : Char → Option Char
  | 'b' => some '\x08'
  | 't' => some '\t'
  | 'n' => some '\n'
  | 'f' => some '\x0c'
  | 'r' => some '\r'
  | '"' => some '"'
  | '\\' => some '\\'
  | _ => none

/-- The number of hexadecimal digits that follow a letter after a backslash. -/
def escapeWidth? : Char → Option Nat
  | 'u' => some 4
  | 'U' => some 8
  | _ => none

/-- Reads what follows a backslash: the character that is meant, and the text after the escape. -/
def escape? : List Char → Option (Char × List Char)
  | [] => none
  | letter :: rest =>
    match escaped? letter with
    | some meant => some (meant, rest)
    | none => do
      let width ← escapeWidth? letter
      let digits := rest.take width
      let code ← if digits.length = width then Text.number? 16 digits else none
      if code.isValidChar then some (Char.ofNat code, rest.drop width) else none

/-- Reads a text in double quotes on, after the characters in `done`, the last one first, up to
its closing quote. -/
def quotedFrom (done chars : List Char) : Nat → Option (String × List Char)
  | 0 => none
  | budget + 1 =>
    match chars with
    | '"' :: rest => some (String.ofList done.reverse, rest)
    | '\\' :: rest => do
      let (meant, rest) ← escape? rest
      quotedFrom (meant :: done) rest budget
    | c :: rest => if isAllowed c then quotedFrom (c :: done) rest budget else none
    | [] => none

end SettingValue

end SchemaUplift
