/-! Places in a text, and the gaps of blanks, comments and line breaks between its tokens. -/

namespace SchemaUplift.Yaml

/-! ### Characters -/

/-- Whether a character ends a line. -/
def isBreak (c : Char) : Bool := c == '\n' || c == '\u2028' || c == '\u2029'

/-- Whether a character separates words on a line. -/
def isSpace (c : Char) : Bool := c == ' ' || c == '\t'

/-- Whether the token before ends here: at a space, at a line break or at the end of the text. -/
def endsWord : List Char → Bool
  | [] => true
  | c :: _ => isSpace c || isBreak c

/-- The text with each of the line breaks CR LF, CR and NEL written as a single line feed. -/
def unifyBreaks : List Char → List Char
  | [] => []
  | '\r' :: '\n' :: rest => '\n' :: unifyBreaks rest
  | c :: rest => (if c == '\r' || c == '\u0085' then '\n' else c) :: unifyBreaks rest

/-- Whether a character may stand in a document: white space and all but control characters and
the last two code points of the basic plane. -/
def isAllowed (c : Char) : Bool :=
  c == '\t' || c == '\n' || c == '\r' || c == '\u0085' ||
    0x20 ≤ c.toNat && c.toNat ≤ 0x7E || 0xA0 ≤ c.toNat && c.toNat ≤ 0xFFFD || 0x10000 ≤ c.toNat

/-- The byte order mark, which may stand at the start of any line. -/
def orderMark : Char := '\ufeff'

/-! ### Places -/

/-- A place in a text. -/
structure Place where
  /-- The number of lines before. -/
  line : Nat
  /-- The number of characters before on the line. -/
  column : Nat
  /-- The number of bytes before on the line. -/
  offset : Nat
  /-- Whether a key may start here. Outside brackets a dash or a question mark may stand here, too,
  since nothing but such marks comes before on the line. -/
  fresh : Bool

namespace Place

/-- The place after a character of the line. -/
def next (place : Place) (c : Char) : Place :=
  { place with column := place.column + 1, offset := place.offset + c.utf8Size }

/-- The start of the next line, with a key allowed there if `fresh` holds. -/
def nextLine (place : Place) (fresh : Bool) : Place := ⟨place.line + 1, 0, 0, fresh⟩

end Place

/-- A place, with the text from there on. -/
structure Cursor where
  /-- The text that is left. -/
  rest : List Char
  /-- Where it starts. -/
  place : Place

namespace Cursor

/-- The cursor at the start of a text. -/
def start (text : List Char) : Cursor := ⟨text, 0, 0, 0, true⟩

/-- The cursor after `count` characters of the line, of one byte each, where a key may stand if
`fresh` holds. -/
def skip (cursor : Cursor) (count : Nat) (fresh : Bool) : Cursor :=
  ⟨cursor.rest.drop count, cursor.place.line, cursor.place.column + count,
    cursor.place.offset + count, fresh⟩

/-- Passes over blanks, comments, line breaks and byte order marks that start a line. Outside
brackets a key may start each line, and a tab may not stand where a key may, since columns count
there. -/
def gapFrom (bracketed comment : Bool) (place : Place) : List Char → Cursor
  | [] => ⟨[], place⟩
  | c :: rest =>
    if isBreak c then gapFrom bracketed false (place.nextLine (place.fresh || !bracketed)) rest
    else if comment || c == '#' then gapFrom bracketed true (place.next c) rest
    else if c == ' ' || c == '\t' && (bracketed || !place.fresh) ||
        c == orderMark && place.column == 0 then
      gapFrom bracketed false (place.next c) rest
    else ⟨c :: rest, place⟩

/-- The cursor at the next token, inside brackets or outside. -/
def skipGap (cursor : Cursor) (bracketed : Bool) : Cursor :=
  gapFrom bracketed false cursor.place cursor.rest

/-- Whether the text starts with the three characters of a mark, as a word. -/
def startsWithMark (mark : Char) : List Char → Bool
  | a :: b :: c :: rest => a == mark && b == mark && c == mark && endsWord rest
  | _ => false

/-- Whether a mark between documents stands here, at the start of a line. -/
def atMark (place : Place) (text : List Char) : Bool :=
  place.column == 0 && (startsWithMark '-' text || startsWithMark '.' text)

end Cursor

end SchemaUplift.Yaml
