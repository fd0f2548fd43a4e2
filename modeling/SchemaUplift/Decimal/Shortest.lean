/-! The decimal with the fewest digits that reads back as a given binary floating-point number. -/

namespace SchemaUplift.Decimal

/-- A positive finite number `mantissa * 2 ^ exponent` with the reals that round to it. -/
structure Binary where
  /-- The integer that the power of two scales. -/
  mantissa : Nat
  /-- The power of two. -/
  exponent : Int
  /-- The neighbour below is half as far away as the neighbour above. -/
  narrowBelow : Bool

/-- The finite number with the given bits, its sign aside. -/
def Binary.ofBits (bits : UInt64) : Binary :=
  let scale := ((bits >>> 52) &&& 0x7FF).toNat
  let fraction := (bits &&& 0xFFFFFFFFFFFFF).toNat
  if scale == 0 then ⟨fraction, -1074, false⟩
  else ⟨0x10000000000000 + fraction, (scale : Int) - 1075, fraction == 0 && scale > 1⟩

/-- A decimal number `digits * 10 ^ exponent`. -/
structure Digits where
  /-- The digits, read as an integer. -/
  digits : Nat
  /-- The power of ten. -/
  exponent : Int
deriving DecidableEq, Repr

/-- The reals that round to a number, and the number itself, over one denominator. -/
structure Interval where
  /-- The numerator of the lower end. -/
  low : Nat
  /-- The numerator of the number. -/
  value : Nat
  /-- The numerator of the upper end. -/
  high : Nat
  /-- The common denominator. -/
  denominator : Nat
  /-- Both ends round to the number too. -/
  closed : Bool

/-- The ends lie halfway to the neighbours, and they belong to the interval when the mantissa is
even. -/
def Binary.interval (x : Binary) : Interval :=
  let unit := Nat.pow 2 (x.exponent - 2).toNat
  { low := (4 * x.mantissa - if x.narrowBelow then 1 else 2) * unit
    value := 4 * x.mantissa * unit
    high := (4 * x.mantissa + 2) * unit
    denominator := Nat.pow 2 (2 - x.exponent).toNat
    closed := x.mantissa % 2 == 0 }

namespace Interval

/-- Compares `digits * 10 ^ exponent` with `numerator / denominator`. -/
def compareWith (decimal : Digits) (numerator denominator : Nat) : Ordering :=
  compare (decimal.digits * Nat.pow 10 decimal.exponent.toNat * denominator)
    (numerator * Nat.pow 10 (-decimal.exponent).toNat)

/-- Whether a decimal lies in the interval. -/
def holds (interval : Interval) (decimal : Digits) : Bool :=
  let low := compareWith decimal interval.low interval.denominator
  let high := compareWith decimal interval.high interval.denominator
  (low == .gt || interval.closed && low == .eq) && (high == .lt || interval.closed && high == .eq)

/-- The least power of ten above the number. -/
def scale (interval : Interval) : Int :=
  if interval.denominator ≤ interval.value then
    (Nat.toDigits 10 (interval.value / interval.denominator)).length
  else 1 - ((Nat.toDigits 10 (interval.denominator / interval.value)).length : Int)

/-- On the grid of a power of ten, the neighbour of the number that lies in the interval; of two
the nearer one, and the upper one where they are equally near. -/
def onGrid? (interval : Interval) (exponent : Int) : Option Digits :=
  let scaled := interval.value * Nat.pow 10 (-exponent).toNat
  let unit := interval.denominator * Nat.pow 10 exponent.toNat
  let below : Digits := ⟨scaled / unit, exponent⟩
  let above : Digits := ⟨scaled / unit + 1, exponent⟩
  match interval.holds below, interval.holds above with
  | true, true => if 2 * (scaled % unit) < unit then some below else some above
  | true, false => some below
  | false, true => some above
  | false, false => none

end Interval

/-- Moves the trailing zeros of the digits into the exponent. -/
def Digits.strip (decimal : Digits) : Digits :=
  if _ : decimal.digits ≠ 0 ∧ decimal.digits % 10 = 0 then
    Digits.strip ⟨decimal.digits / 10, decimal.exponent + 1⟩
  else decimal
termination_by decimal.digits
decreasing_by omega

/-- The shortest decimal in the rounding interval of a positive number. One to seventeen digits are
tried; should none read back, the exact value is written out. -/
def Binary.shortest (x : Binary) : Digits :=
  let interval := x.interval
  let found := (List.range 17).findSome? fun (more : Nat) =>
    interval.onGrid? (interval.scale - (more + 1 : Nat))
  match found with
  | some decimal => decimal.strip
  | none =>
    ⟨x.mantissa * Nat.pow 2 x.exponent.toNat * Nat.pow 5 (-x.exponent).toNat, min x.exponent 0⟩

end SchemaUplift.Decimal
