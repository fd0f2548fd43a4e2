import SchemaUplift.Text.Digit
import SchemaUplift.Yaml.Cursor

/-! Scalars, plain and quoted, which may run over several lines. A line break inside a scalar folds
into a space, and of several the first is dropped. -/

namespace SchemaUplift.Yaml

/-! ### Folding -/

/-- The white space since the last visible character of a scalar. -/
inductive Fold where
  /-- There is none. -/
  | nothing
  /-- Spaces on the line; the last one comes first. -/
  | spaces (chars : List Char)
  /-- Line breaks, the last one first, after the one that ended the line, unless a backslash hid
  that one. -/
  | breaks (first : Option Char) (more : List Char)

namespace Fold

/-- Whether a line break was passed. -/
def isBroken : Fold → Bool
  | .breaks .. => true
  | _ => false

/-- The white space with a further space; a space at the start of a line has no effect. -/
def addSpace (c : Char) : Fold → Fold
  | .nothing => .spaces [c]
  | .spaces chars => .spaces (c :: chars)
  | .breaks first more => .breaks first more

/-- The white space with a further line break; spaces before a line break have no effect. -/
def addBreak (c : Char) : Fold → Fold
  | .breaks first more => .breaks first (c :: more)
  | _ => .breaks (some c) []

/-- What the white space amounts to, the last character first. -/
def reversed : Fold → List Char
  | .nothing => []
  | .spaces chars => chars
  | .breaks (some '\n') [] => [' ']
  | .breaks (some '\n') more => more
  | .breaks (some c) more => more ++ [c]
  | .breaks none more => more

end Fold

/-- A scalar that was read, and the cursor after it. -/
abbrev ScalarRead := String × Cursor

/-- The scalar whose characters, the last one first, were read up to a cursor. -/
def ScalarRead.of (reversed : List Char) (cursor : Cursor) : ScalarRead :=
  (String.ofList reversed.reverse, cursor)

/-! ### Plain scalars -/

/-- Whether a character is a bracket, a brace or a comma. -/
def isFlowMark (c : Char) : Bool := ['[', ']', '\x7b', '\x7d', ','].contains c

/-- The characters that do not start a plain scalar, or only in front of a visible character. -/
def indicators : List Char :=
  ['-', '?', ':', ',', '[', ']', '\x7b', '\x7d', '#', '&', '*', '!', '|', '>', '\'', '"', '%', '@',
   '\x60']

/-- Whether a plain scalar starts here, inside brackets or outside. -/
def startsPlain (bracketed : Bool) : List Char → Bool
  | [] => false
  | c :: rest =>
    if indicators.contains c then
      !endsWord rest && (c == '-' || !bracketed && (c == '?' || c == ':'))
    else !endsWord (c :: rest)

/-- Whether a plain scalar ends before the given text, whatever stands before. -/
def endsPlain (bracketed : Bool) : List Char → Bool
  | [] => true
  | c :: rest => c == ':' && endsWord rest || bracketed && isFlowMark c

/-- Whether a plain scalar ends before the given text, which follows white space: at a comment, at
a mark between documents and, outside brackets, on a line indented by less than `floor`. -/
def endsPlainAfter (bracketed : Bool) (floor : Nat) (place : Place) (fold : Fold)
    (text : List Char) : Bool :=
  match fold with
  | .nothing => false
  | .spaces _ => text.head? == some '#'
  | .breaks .. => text.head? == some '#' || Cursor.atMark place text ||
      !bracketed && place.column < floor

/-- Whether a colon stands here right before a bracket, a brace, a comma or a question mark. -/
def colonTouchesMark : List Char → Bool
  | ':' :: c :: _ => isFlowMark c || c == '?'
  | _ => false

/-- Reads a plain scalar on, after the characters in `done`, the last one first. The cursor that is
left stands after the white space that ends the scalar. -/
def plainFrom (bracketed : Bool) (floor : Nat) (done : List Char) (fold : Fold) (place : Place) :
    List Char → Option ScalarRead
  | [] => some (.of done ⟨[], { place with fresh := fold.isBroken }⟩)
  | c :: rest =>
    if isBreak c then plainFrom bracketed floor done (fold.addBreak c) (place.nextLine true) rest
    else if isSpace c then
      if c == '\t' && fold.isBroken && place.column < floor then none
      else plainFrom bracketed floor done (fold.addSpace c) (place.next c) rest
    else if endsPlainAfter bracketed floor place fold (c :: rest) then
      some (.of done ⟨c :: rest, { place with fresh := fold.isBroken }⟩)
    else if bracketed && colonTouchesMark (c :: rest) then none
    else if endsPlain bracketed (c :: rest) then
      some (.of done ⟨c :: rest, { place with fresh := fold.isBroken }⟩)
    else plainFrom bracketed floor (c :: (fold.reversed ++ done)) .nothing (place.next c) rest

/-! ### Quoted scalars -/

/-- Reads a single-quoted scalar on, from after its opening quote. A quote written twice stands for
one. -/
def singleQuotedFrom (done : List Char) (fold : Fold) (place : Place) :
    List Char → Option ScalarRead
  | [] => none
  | '\'' :: '\'' :: rest =>
    singleQuotedFrom ('\'' :: (fold.reversed ++ done)) .nothing ((place.next '\'').next '\'') rest
  | c :: rest =>
    if isBreak c then singleQuotedFrom done (fold.addBreak c) (place.nextLine true) rest
    else if isSpace c then singleQuotedFrom done (fold.addSpace c) (place.next c) rest
    else if Cursor.atMark place (c :: rest) then none
    else if c == '\'' then
      some (.of (fold.reversed ++ done) ⟨rest, { place.next c with fresh := false }⟩)
    else singleQuotedFrom (c :: (fold.reversed ++ done)) .nothing (place.next c) rest

/-- What a letter after a backslash stands for. -/
def escaped? : Char → Option Char
  | '0' => some '\x00'
  | 'a' => some '\x07'
  | 'b' => some '\x08'
  | 't' => some '\t'
  | '\t' => some '\t'
  | 'n' => some '\n'
  | 'v' => some '\x0b'
  | 'f' => some '\x0c'
  | 'r' => some '\r'
  | 'e' => some '\x1b'
  | ' ' => some ' '
  | '"' => some '"'
  | '/' => some '/'
  | '\\' => some '\\'
  | 'N' => some '\u0085'
  | '_' => some '\u00a0'
  | 'L' => some '\u2028'
  | 'P' => some '\u2029'
  | _ => none

/-- The number of hexadecimal digits that follow a letter after a backslash. -/
def escapeWidth? : Char → Option Nat
  | 'x' => some 2
  | 'u' => some 4
  | 'U' => some 8
  | _ => none

/-- The character with a number, if there is one. -/
def charOf? (code : Nat) : Option Char :=
  if code.isValidChar then some (Char.ofNat code) else none

/-- Where in a double-quoted scalar a character stands. -/
inductive QuoteState where
  /-- In the text. -/
  | text
  /-- After a backslash. -/
  | backslash
  /-- Among the hexadecimal digits of an escape, of which `left` are missing. -/
  | digits (left value : Nat)

/-- Reads a double-quoted scalar on, from after its opening quote. -/
def doubleQuotedFrom (state : QuoteState) (done : List Char) (fold : Fold) (place : Place) :
    List Char → Option ScalarRead
  | [] => none
  | c :: rest =>
    match state with
    | .text =>
      if isBreak c then doubleQuotedFrom .text done (fold.addBreak c) (place.nextLine true) rest
      else if isSpace c then doubleQuotedFrom .text done (fold.addSpace c) (place.next c) rest
      else if Cursor.atMark place (c :: rest) then none
      else if c == '"' then
        some (.of (fold.reversed ++ done) ⟨rest, { place.next c with fresh := false }⟩)
      else if c == '\\' then
        doubleQuotedFrom .backslash (fold.reversed ++ done) .nothing (place.next c) rest
      else doubleQuotedFrom .text (c :: (fold.reversed ++ done)) .nothing (place.next c) rest
    | .backslash =>
      if isBreak c then doubleQuotedFrom .text done (.breaks none []) (place.nextLine true) rest
      else
        match escaped? c, escapeWidth? c with
        | some meant, _ => doubleQuotedFrom .text (meant :: done) .nothing (place.next c) rest
        | none, some width => doubleQuotedFrom (.digits width 0) done .nothing (place.next c) rest
        | none, none => none
    | .digits left value =>
      match Text.digit? c with
      | none => none
      | some digit =>
        let value := value * 16 + digit
        if left ≤ 1 then
          match charOf? value with
          | some meant => doubleQuotedFrom .text (meant :: done) .nothing (place.next c) rest
          | none => none
        else doubleQuotedFrom (.digits (left - 1) value) done .nothing (place.next c) rest

namespace Cursor

/-- Reads the plain scalar that starts here. -/
def plain? (cursor : Cursor) (bracketed : Bool) (floor : Nat) : Option ScalarRead :=
  if startsPlain bracketed cursor.rest then
    plainFrom bracketed floor [] .nothing cursor.place cursor.rest
  else none

/-- Reads the single-quoted scalar that starts here. -/
def singleQuoted? (cursor : Cursor) : Option ScalarRead :=
  singleQuotedFrom [] .nothing (cursor.skip 1 false).place (cursor.rest.drop 1)

/-- Reads the double-quoted scalar that starts here. -/
def doubleQuoted? (cursor : Cursor) : Option ScalarRead :=
  doubleQuotedFrom .text [] .nothing (cursor.skip 1 false).place (cursor.rest.drop 1)

end Cursor

end SchemaUplift.Yaml
