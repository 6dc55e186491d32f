import MiningPipelines.Json.Basic

/-!
# Numerals in JSON text

A numeral is a sign, whole digits, and perhaps a fraction and an exponent. Without the
last two it is an integer as long as it fits in 64 bits. Any other numeral is read the
fast way: as many leading digits as fit in 64 bits make a significand, which is rounded
to a double and then multiplied or divided by a power of ten, with one more rounding
(`Numeral.scale`). A result past the largest finite double is no number.
-/

namespace MiningPipelines

/-- A numeral by its parts; digits are numbers below ten. -/
structure Numeral where
  negative : Bool
  whole : List Nat
  fraction : List Nat
  /-- The sign, true for a negative one, and the digits. -/
  exponent : Option (Bool × List Nat)
  /-- Neither a fraction nor an exponent is written. -/
  integral : Bool
deriving DecidableEq

namespace Numeral

/-- Appends digits to a significand while it fits in 64 bits. Returns the significand
and the digits left over. -/
def accumulate : Nat → List Nat → Nat × List Nat
  | s, [] => (s, [])
  | s, d :: ds => if s * 10 + d < UInt64.size then accumulate (s * 10 + d) ds else (s, d :: ds)

/-- The double nearest to `10 ^ n`, as magnitude bits. -/
def powerOfTen (n : Nat) : Nat := BinaryFormat.double.round (Nat.pow 10 n) 1

/-- Magnitude bits of `w · 10 ^ e`, or none past the largest finite double. Powers of
ten go up to 308; a smaller exponent is used up in steps of that size. -/
def scale (w : Nat) (e : Int) : Option Nat :=
  if e.natAbs ≤ 308 then
    if 0 ≤ e then
      let product := BinaryFormat.double.mul w (powerOfTen e.natAbs)
      if product < BinaryFormat.double.infinity then some product else none
    else some (BinaryFormat.double.div w (powerOfTen e.natAbs))
  else if w = 0 then some 0
  else if 0 ≤ e then none
  else scale (BinaryFormat.double.div w (powerOfTen 308)) (e + 308)
termination_by e.natAbs
decreasing_by omega

/-- The real number `significand · 10 ^ e`. -/
def real? (negative : Bool) (significand : Nat) (e : Int) : Option Json.Number :=
  (scale (BinaryFormat.double.round significand 1) e).map
    fun w => .real (.ofMagnitude negative w)

/-- The integer with the given significand. Zero below and what 64 bits cannot hold
become reals. -/
def integer (negative : Bool) (significand : Nat) : Json.Number :=
  if !negative then .natural (.ofNat significand)
  else if 0 < significand ∧ significand ≤ 0x8000000000000000 then .negative (.ofInt (-significand))
  else .real (.ofMagnitude true (BinaryFormat.double.round significand 1))

/-- The number that the numeral stands for. -/
def number? (n : Numeral) : Option Json.Number :=
  let (whole, left) := accumulate 0 n.whole
  if n.integral then
    if left.isEmpty then some (integer n.negative whole)
    else real? n.negative whole left.length
  else
    let (significand, dropped) := accumulate whole n.fraction
    let shift : Int := (left.length + dropped.length : Nat) - (n.fraction.length : Int)
    match n.exponent with
    | none => real? n.negative significand shift
    | some (below, digits) =>
      let e : Nat := digits.foldl (fun acc d => acc * 10 + d) 0
      if e < 0x80000000 then
        real? n.negative significand (if below then shift - (e : Int) else shift + (e : Int))
      else if significand ≠ 0 ∧ !below then none
      else some (.real (.ofMagnitude n.negative 0))

end Numeral

end MiningPipelines
