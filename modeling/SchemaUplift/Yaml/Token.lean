import SchemaUplift.Yaml.Scalar

/-! Tokens of a text. Outside brackets the columns of the lines become tokens, too: one before the
first entry of each block collection and one after its last. -/

namespace SchemaUplift.Yaml

/-- A token of a text. -/
inductive Token where
  /-- A scalar, and whether it stood without quotes. -/
  | scalar (text : String) (plain : Bool)
  /-- The start of a block sequence. -/
  | blockSequence
  /-- The start of a block mapping. -/
  | blockMapping
  /-- The end of a block sequence or of a block mapping. -/
  | blockEnd
  /-- The dash of an item. -/
  | dash
  /-- The start of a key, with a question mark or without. -/
  | key
  /-- The colon of a value. -/
  | value
  /-- The start of a sequence in brackets. -/
  | openBracket
  /-- The end of a sequence in brackets. -/
  | closeBracket
  /-- The start of a mapping in braces. -/
  | openBrace
  /-- The end of a mapping in braces. -/
  | closeBrace
  /-- A comma between items or entries. -/
  | comma
  /-- A directive that declares the version of the notation. -/
  | version
  /-- A mark of three dashes, before a document. -/
  | documentStart
  /-- A mark of three dots, after a document. -/
  | documentEnd

/-- A token that starts a key if a colon follows in time. -/
structure KeyStart where
  /-- Where the token stands. -/
  place : Place
  /-- The number of tokens before. -/
  before : Nat
  /-- Whether a colon has to follow, since the token stands in the column of a block collection. -/
  required : Bool

/-- The most bytes from the start of a key to its colon. -/
def keyLimit : Nat := 1024

/-- Whether the colon of a key does not stand in time at a place: on another line, or too far. -/
def KeyStart.isLate (start : KeyStart) (place : Place) : Bool :=
  start.place.line < place.line || start.place.offset + keyLimit < place.offset

/-- A text of which some tokens were read. -/
structure Lexer where
  /-- Where the next token stands. -/
  cursor : Cursor
  /-- The tokens that were read, the last one first. -/
  tokens : List Token
  /-- The columns of the open block collections, the innermost first. -/
  columns : List Nat
  /-- The latest start of a key in the innermost brackets. -/
  key? : Option KeyStart
  /-- The starts of keys around each of the open brackets, the innermost first. -/
  outerKeys : List (Option KeyStart)

namespace Lexer

/-- No token of a text was read. -/
def start (text : List Char) : Lexer := ⟨.start text, [], [], none, []⟩

/-- Whether the next token stands inside brackets. -/
def isBracketed (lexer : Lexer) : Bool := !lexer.outerKeys.isEmpty

/-- The least column of a line inside the innermost block collection. -/
def floor (lexer : Lexer) : Nat :=
  match lexer.columns with
  | [] => 0
  | column :: _ => column + 1

/-- Takes `count` characters as a token. A key may follow if `fresh` holds. -/
def take (lexer : Lexer) (token : Token) (count : Nat) (fresh : Bool) : Lexer :=
  { lexer with cursor := lexer.cursor.skip count fresh, tokens := token :: lexer.tokens }

/-- Puts a token after the first `before` ones. -/
def insert (lexer : Lexer) (before : Nat) (token : Token) : Lexer :=
  { lexer with tokens := lexer.tokens.insertIdx (lexer.tokens.length - before) token }

/-! ### Block collections -/

/-- Opens a block collection in a column, unless one is open there. Its token comes after the first
`before` ones. Inside brackets there are no block collections. -/
def openBlock (lexer : Lexer) (token : Token) (column before : Nat) : Lexer :=
  if lexer.isBracketed || column < lexer.floor then lexer
  else { lexer.insert before token with columns := column :: lexer.columns }

/-- Closes the block collections in the given column and in later ones, outside brackets. -/
def closeBlocks (lexer : Lexer) (column : Nat) : Lexer :=
  if lexer.isBracketed then lexer
  else
    let closed := lexer.columns.takeWhile (column ≤ ·)
    { lexer with
      tokens := List.replicate closed.length .blockEnd ++ lexer.tokens
      columns := lexer.columns.dropWhile (column ≤ ·) }

/-! ### Starts of keys -/

/-- Gives the latest start of a key up. -/
def dropKey? (lexer : Lexer) : Option Lexer :=
  if lexer.key?.any (·.required) then none else some { lexer with key? := none }

/-- Gives up each start of a key whose colon cannot follow in time any more. -/
def dropLateKeys? (lexer : Lexer) : Option Lexer :=
  let isLate (start : KeyStart) : Bool := start.isLate lexer.cursor.place
  if (lexer.key? :: lexer.outerKeys).any (·.any fun start => isLate start && start.required) then
    none
  else some { lexer with
    key? := lexer.key?.filter (!isLate ·)
    outerKeys := lexer.outerKeys.map (·.filter (!isLate ·)) }

/-- Notes that the next token starts a key, if one may stand there. -/
def startKey? (lexer : Lexer) : Option Lexer :=
  let place := lexer.cursor.place
  if place.fresh then do
    let lexer ← lexer.dropKey?
    let required := !lexer.isBracketed && lexer.floor == place.column + 1
    return { lexer with key? := some ⟨place, lexer.tokens.length, required⟩ }
  else some lexer

/-! ### Each kind of token -/

/-- Reads the start of a collection in brackets or braces. -/
def open? (lexer : Lexer) (token : Token) : Option Lexer := do
  let lexer ← lexer.startKey?
  return { lexer.take token 1 true with key? := none, outerKeys := lexer.key? :: lexer.outerKeys }

/-- Reads the end of a collection in brackets or braces; there may be none that is open. -/
def close? (lexer : Lexer) (token : Token) : Option Lexer := do
  let lexer := (← lexer.dropKey?).take token 1 false
  match lexer.outerKeys with
  | [] => return lexer
  | key? :: outerKeys => return { lexer with key?, outerKeys }

/-- Reads a comma. -/
def comma? (lexer : Lexer) : Option Lexer := do
  return (← lexer.dropKey?).take .comma 1 true

/-- Reads the dash of an item, or a question mark in front of a key. Outside brackets it is the
start of a block collection or goes on with one. -/
def mark? (lexer : Lexer) (block token : Token) (fresh : Bool) : Option Lexer :=
  let place := lexer.cursor.place
  if lexer.isBracketed || place.fresh then do
    let lexer ← (lexer.openBlock block place.column lexer.tokens.length).dropKey?
    return lexer.take token 1 fresh
  else none

/-- Reads a dash in front of an item. -/
def dash? (lexer : Lexer) : Option Lexer := lexer.mark? .blockSequence .dash true

/-- Reads a question mark in front of a key. -/
def question? (lexer : Lexer) : Option Lexer :=
  lexer.mark? .blockMapping .key !lexer.isBracketed

/-- Reads a colon in front of a value: after the key that started in time, or else after a question
mark. -/
def colon? (lexer : Lexer) : Option Lexer :=
  match lexer.key? with
  | some key =>
    let lexer := lexer.insert key.before .key
    let lexer := lexer.openBlock .blockMapping key.place.column key.before
    some { lexer.take .value 1 false with key? := none }
  | none => lexer.mark? .blockMapping .value !lexer.isBracketed

/-- Reads a scalar, given a way to read it. -/
def scalar? (lexer : Lexer) (plain : Bool) (read? : Cursor → Option ScalarRead) :
    Option Lexer := do
  let lexer ← lexer.startKey?
  let (text, cursor) ← read? lexer.cursor
  return { lexer with cursor, tokens := .scalar text plain :: lexer.tokens }

/-- Reads a plain scalar. -/
def plain? (lexer : Lexer) : Option Lexer :=
  lexer.scalar? true (·.plain? lexer.isBracketed lexer.floor)

/-! ### Lines that are not part of a document -/

/-- The text after a decimal number of at most nine digits, which has to be one of those given. -/
def afterNumber? (allowed : List Nat) (text : List Char) : Option (List Char) := do
  let digits := text.takeWhile Char.isDigit
  let number ← Text.number? 10 digits
  if digits.length ≤ 9 && allowed.contains number then some (text.drop digits.length) else none

/-- The text after a line, from which only blanks and a comment may be missing yet. -/
def afterLine? (text : List Char) : Option (List Char) :=
  match text.dropWhile isSpace with
  | [] => some []
  | c :: rest =>
    if c == '#' || isBreak c then some (((c :: rest).dropWhile (!isBreak ·)).drop 1) else none

/-- The text after a directive, from after its percent sign. The only one declares the version 1.1
or 1.2. -/
def afterDirective? (text : List Char) : Option (List Char) := do
  match text with
  | 'Y' :: 'A' :: 'M' :: 'L' :: text =>
    if !endsWord text then none
    else
      match ← afterNumber? [1] (text.dropWhile isSpace) with
      | '.' :: text => afterLine? (← afterNumber? [1, 2] text)
      | _ => none
  | _ => none

/-- Closes all that is open, in front of what is not part of a document. -/
def closeAll? (lexer : Lexer) : Option Lexer := (lexer.closeBlocks 0).dropKey?

/-- Reads a directive at the start of a line, given the text after its percent sign. -/
def directive? (lexer : Lexer) (text : List Char) : Option Lexer := do
  let lexer ← lexer.closeAll?
  let cursor := ⟨← afterDirective? text, lexer.cursor.place.nextLine false⟩
  return { lexer with cursor, tokens := .version :: lexer.tokens }

/-- Reads a mark between documents. -/
def documentMark? (lexer : Lexer) (token : Token) : Option Lexer := do
  return (← lexer.closeAll?).take token 3 false

/-! ### All tokens -/

/-- Reads the token at the cursor. Anchors, tags and scalars in blocks are refused. -/
def next? (lexer : Lexer) : Option Lexer :=
  let text := lexer.cursor.rest
  let atStart := lexer.cursor.place.column == 0
  if atStart && Cursor.startsWithMark '-' text then lexer.documentMark? .documentStart
  else if atStart && Cursor.startsWithMark '.' text then lexer.documentMark? .documentEnd
  else
    match text with
    | '%' :: rest => if atStart then lexer.directive? rest else none
    | '[' :: _ => lexer.open? .openBracket
    | ']' :: _ => lexer.close? .closeBracket
    | '\x7b' :: _ => lexer.open? .openBrace
    | '\x7d' :: _ => lexer.close? .closeBrace
    | ',' :: _ => lexer.comma?
    | '"' :: _ => lexer.scalar? false Cursor.doubleQuoted?
    | '\'' :: _ => lexer.scalar? false Cursor.singleQuoted?
    | '-' :: rest => if endsWord rest then lexer.dash? else lexer.plain?
    | '?' :: rest => if lexer.isBracketed || endsWord rest then lexer.question? else lexer.plain?
    | ':' :: rest => if lexer.isBracketed || endsWord rest then lexer.colon? else lexer.plain?
    | _ => lexer.plain?

/-- Passes on to the next token. A line that starts further to the left closes block
collections. -/
def advance? (lexer : Lexer) : Option Lexer := do
  let lexer ← { lexer with cursor := lexer.cursor.skipGap lexer.isBracketed }.dropLateKeys?
  return lexer.closeBlocks (lexer.cursor.place.column + 1)

/-- The tokens of the text, with those that were read. -/
def all? (lexer : Lexer) : Nat → Option (List Token)
  | 0 => none
  | budget + 1 => do
    let lexer ← lexer.advance?
    if lexer.cursor.rest.isEmpty then return (← lexer.closeAll?).tokens.reverse
    else (← lexer.next?).all? budget

end Lexer

/-- The tokens of a text, each of which takes a character at least. -/
def Token.ofText? (text : List Char) : Option (List Token) :=
  (Lexer.start text).all? (text.length + 1)

end SchemaUplift.Yaml
