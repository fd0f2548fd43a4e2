/-! Reproducible streams of numbers that look random.

The stream stands in for any random generator with a seed. Samples ask of it that one seed gives one
stream and that a number drawn below a bound is below it; which number is drawn is left open by
everything that is stated about them. -/

namespace SchemaUplift

/-- A stream of numbers, determined by where it stands. -/
structure Stream where
  /-- Where the stream stands. -/
  state : UInt64
deriving DecidableEq

namespace Stream

/-- The step from one state to the next: the odd number nearest to `2 ^ 64` over the golden
ratio. -/
def step : UInt64 := 0x9E3779B97F4A7C15

/-- Spreads the bits of a state. -/
def mix (state : UInt64) : UInt64 :=
  let first := (state ^^^ (state >>> 30)) * 0xBF58476D1CE4E5B9
  let second := (first ^^^ (first >>> 27)) * 0x94D049BB133111EB
  second ^^^ (second >>> 31)

/-- Draws a number below a positive bound. -/
def draw (bound : Nat) : StateM Stream Nat := do
  let state := (← get).state + step
  set (Stream.mk state)
  return (mix state).toNat % bound

end Stream

end SchemaUplift
