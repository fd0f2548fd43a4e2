import SchemaUplift.Decimal.Literal

/-! Numbers of a settings file, and its dates and times of day. -/

namespace SchemaUplift.SettingsFile

/-! ### Numbers -/

/-- The digits of a run, in which single underscores may stand between digits. -/
def ungrouped? (isDigit : Char → Bool) : List Char → Option (List Char)
  | [] => none
  | [c] => if isDigit c then some [c] else none
  | c :: '_' :: rest => if isDigit c then (ungrouped? isDigit rest).map (c :: ·) else none
  | c :: rest => if isDigit c then (ungrouped? isDigit rest).map (c :: ·) else none

/-- The number in a run of digits of a base. -/
def grouped? (base : Nat) (chars : List Char) : Option Nat :=
  (ungrouped? (fun c => (Text.digit? c).any (· < base)) chars).bind (Text.number? base)

/-- The text after its sign, if it has one. -/
def skipSign : List Char → List Char
  | '+' :: rest => rest
  | '-' :: rest => rest
  | chars => chars

/-- The number in a run of decimal digits without idle zeros in front. -/
def whole? (chars : List Char) : Option Nat :=
  match chars with
  | '0' :: _ :: _ => none
  | _ => grouped? 10 chars

/-- Whether a word is an integer of at most 64 bits. -/
def isInteger (word : List Char) : Bool :=
  match word with
  | '0' :: 'x' :: digits => (grouped? 16 digits).any (· < Text.bitBound 63)
  | '0' :: 'o' :: digits => (grouped? 8 digits).any (· < Text.bitBound 63)
  | '0' :: 'b' :: digits => (grouped? 2 digits).any (· < Text.bitBound 63)
  | '-' :: digits => (whole? digits).any (· ≤ Text.bitBound 63)
  | _ => (whole? (skipSign word)).any (· < Text.bitBound 63)

/-- Whether a word has the form of a decimal with a fraction or an exponent. -/
def hasDecimalForm (word : List Char) : Bool :=
  let unsigned := skipSign word
  let isMark (c : Char) : Bool := c == 'e' || c == 'E'
  let mantissa := unsigned.takeWhile (!isMark ·)
  let power := unsigned.drop mantissa.length
  let fraction := mantissa.dropWhile (· != '.')
  (!power.isEmpty || !fraction.isEmpty) &&
    (whole? (mantissa.takeWhile (· != '.'))).isSome &&
    (fraction.isEmpty || (grouped? 10 (fraction.drop 1)).isSome) &&
    (power.isEmpty || (grouped? 10 (skipSign (power.drop 1))).isSome)

/-- Whether a word is a floating-point number: one of those that have names, or a decimal. A decimal
that rounds to positive infinity is none. -/
def isFloat (word : List Char) : Bool :=
  [['i', 'n', 'f'], ['n', 'a', 'n']].contains (skipSign word) ||
    hasDecimalForm word && (word.head? == some '-' ||
      (Decimal.Literal.magnitude? (word.filter (· != '_'))).any (·.isFinite))

/-! ### Dates and times of day -/

/-- The number that the next `count` decimal digits spell, with the text after them. -/
def digits? (count : Nat) (chars : List Char) : Option (Nat × List Char) := do
  let digits := chars.take count
  let number ← if digits.length = count then Text.number? 10 digits else none
  return (number, chars.drop count)

/-- The number that two decimal digits after the given character spell, with the text after
them. -/
def twoDigitsAfter? (mark : Char) (chars : List Char) : Option (Nat × List Char) :=
  match chars with
  | c :: rest => if c == mark then digits? 2 rest else none
  | [] => none

/-- The number of days in a month of a year. -/
def daysIn (year month : Nat) : Nat :=
  if month = 2 then
    if year % 4 = 0 && (year % 100 != 0 || year % 400 = 0) then 29 else 28
  else if [4, 6, 9, 11].contains month then 30
  else 31

/-- The text after a date of year, month and day. -/
def afterDate? (chars : List Char) : Option (List Char) := do
  let (year, rest) ← digits? 4 chars
  let (month, rest) ← twoDigitsAfter? '-' rest
  let (day, rest) ← twoDigitsAfter? '-' rest
  if 1 ≤ month && month ≤ 12 && 1 ≤ day && day ≤ daysIn year month then some rest else none

/-- The text after a part of a second, if one follows. -/
def skipSecondPart (chars : List Char) : List Char :=
  match chars with
  | '.' :: c :: rest => if c.isDigit then rest.dropWhile Char.isDigit else chars
  | _ => chars

/-- The text after a time of day, which may hold a leap second. -/
def afterTime? (chars : List Char) : Option (List Char) := do
  let (hour, rest) ← digits? 2 chars
  let (minute, rest) ← twoDigitsAfter? ':' rest
  let (second, rest) ← twoDigitsAfter? ':' rest
  if hour < 24 && minute < 60 && second ≤ 60 then some (skipSecondPart rest) else none

/-- The text after a distance from universal time, if one follows. -/
def afterOffset? (chars : List Char) : Option (List Char) :=
  match chars with
  | 'Z' :: rest | 'z' :: rest => some rest
  | '+' :: rest | '-' :: rest => do
    let (hour, rest) ← digits? 2 rest
    let (minute, rest) ← twoDigitsAfter? ':' rest
    if hour < 24 && minute < 60 then some rest else none
  | _ => some chars

/-- The text after a date, a time of day or both. -/
def afterMoment? (chars : List Char) : Option (List Char) :=
  match afterDate? chars with
  | none => afterTime? chars
  | some rest =>
    match rest with
    | 'T' :: time | 't' :: time | ' ' :: time =>
      match afterTime? time with
      | some rest => afterOffset? rest
      | none => some rest
    | _ => some rest

end SchemaUplift.SettingsFile
