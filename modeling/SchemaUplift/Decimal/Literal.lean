import SchemaUplift.Text.Digit

/-! Decimal numerals with an optional point and an optional exponent. -/

namespace SchemaUplift.Decimal

/-- A number that was written in decimal: digits, scaled by a power of ten. -/
structure Literal where
  /-- The digits, the point left out. -/
  digits : Nat
  /-- The power of ten. -/
  exponent : Int
deriving DecidableEq, Repr

namespace Literal

/-- Reads digits after an optional sign. -/
def integer? : List Char → Option Int
  | '-' :: digits => (Text.number? 10 digits).map fun number => -(number : Int)
  | '+' :: digits => (Text.number? 10 digits).map Int.ofNat
  | digits => (Text.number? 10 digits).map Int.ofNat

/-- Reads digits with at most one point among, before or after them. -/
def scaled? (chars : List Char) : Option Literal :=
  let whole := chars.takeWhile (· != '.')
  let fraction := (chars.dropWhile (· != '.')).drop 1
  (Text.number? 10 (whole ++ fraction)).map fun digits => ⟨digits, -(fraction.length : Int)⟩

/-- Reads a numeral without a sign: digits with at most one point, and perhaps an exponent after
an `e` of either case. -/
def unsigned? (chars : List Char) : Option Literal :=
  let isMark (c : Char) : Bool := c == 'e' || c == 'E'
  match chars.dropWhile (!isMark ·) with
  | [] => scaled? chars
  | _ :: power => do
    let literal ← scaled? (chars.takeWhile (!isMark ·))
    let exponent ← integer? power
    return { literal with exponent := literal.exponent + exponent }

/-- Reads the magnitude of a numeral after an optional sign. -/
def magnitude? : List Char → Option Literal
  | '-' :: chars => unsigned? chars
  | '+' :: chars => unsigned? chars
  | chars => unsigned? chars

/-- The least number that rounds to infinity among binary numbers of 64 bits: half a step above the
greatest of them. -/
def overflowBound : Nat := Text.bitBound 1024 - Text.bitBound 970

/-- Whether the nearest binary number of 64 bits is finite. The place of the first digit decides,
unless it is that of the bound. -/
def isFinite (literal : Literal) : Bool :=
  let place := (Nat.toDigits 10 literal.digits).length + literal.exponent
  if literal.digits == 0 || place < 309 then true
  else if 309 < place then false
  else if literal.exponent < 0 then
    literal.digits < overflowBound * Nat.pow 10 (-literal.exponent).toNat
  else literal.digits * Nat.pow 10 literal.exponent.toNat < overflowBound

end Literal

end SchemaUplift.Decimal
