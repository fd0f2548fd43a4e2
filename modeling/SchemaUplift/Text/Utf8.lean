/-! UTF-8 read without refusal: each maximal part of a sequence that cannot be completed becomes
one replacement character. -/

namespace SchemaUplift.Text

/-- A sequence of bytes that has begun: its value so far, the bytes still owed, and the range of
the next one. -/
structure PartialChar where
  /-- The bits read so far. -/
  code : Nat
  /-- The number of bytes still owed after the next one. -/
  owed : Nat
  /-- The least value of the next byte. -/
  low : UInt8
  /-- The greatest value of the next byte. -/
  high : UInt8

/-- What a byte is at the start of a character. -/
inductive LeadByte where
  /-- A character of its own. -/
  | whole (c : Char)
  /-- The first byte of a longer sequence. -/
  | opens (partialChar : PartialChar)
  /-- No character starts so. -/
  | stray

/-- The role of a byte between characters. Longer sequences than a character needs, surrogates and
numbers beyond the last code point are ruled out by the range of the second byte. -/
def leadByte (byte : UInt8) : LeadByte :=
  let code := byte.toNat
  if byte < 0x80 then .whole (Char.ofNat code)
  else if byte < 0xC2 then .stray
  else if byte < 0xE0 then .opens ⟨code - 0xC0, 0, 0x80, 0xBF⟩
  else if byte < 0xF0 then
    .opens ⟨code - 0xE0, 1, if byte == 0xE0 then 0xA0 else 0x80,
      if byte == 0xED then 0x9F else 0xBF⟩
  else if byte < 0xF5 then
    .opens ⟨code - 0xF0, 2, if byte == 0xF0 then 0x90 else 0x80,
      if byte == 0xF4 then 0x8F else 0xBF⟩
  else .stray

/-- The character that stands for bytes that are none. -/
def replacement : Char := '\ufffd'

/-- Reads bytes after a possibly unfinished sequence. A byte that does not continue the sequence
ends it with a replacement character and is then read as the start of the next one. -/
def decodeAfter : Option PartialChar → List UInt8 → List Char
  | none, [] => []
  | some _, [] => [replacement]
  | unfinished, byte :: rest =>
    match unfinished.filter fun p => p.low ≤ byte && byte ≤ p.high with
    | some p =>
      let code := p.code * 64 + (byte.toNat - 0x80)
      match p.owed with
      | 0 => Char.ofNat code :: decodeAfter none rest
      | owed + 1 => decodeAfter (some ⟨code, owed, 0x80, 0xBF⟩) rest
    | none =>
      let broken := if unfinished.isSome then [replacement] else []
      match leadByte byte with
      | .whole c => broken ++ c :: decodeAfter none rest
      | .opens p => broken ++ decodeAfter (some p) rest
      | .stray => broken ++ replacement :: decodeAfter none rest

/-- The text that bytes spell, with replacement characters for what spells none. -/
def decodeLossy (bytes : List UInt8) : String := String.ofList (decodeAfter none bytes)

end SchemaUplift.Text
