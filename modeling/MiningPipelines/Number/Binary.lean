/-!
# Binary floating-point numbers

Thresholds and rates travel as single-precision numbers, domain results hold
double-precision ones. A number is kept as its bits, so that a round trip can be
stated bit by bit; comparison (`Single.same`, `Double.same`) is the numeric one, under
which a NaN differs from itself and the two zeros are equal.

All arithmetic is exact: `BinaryFormat.parts` reads a magnitude as `m · 2 ^ q`, and
`BinaryFormat.round` sends a ratio of naturals to the nearest magnitude, a half going
to the even neighbour.
-/

namespace MiningPipelines

/-- A binary floating-point format, given by the widths of its two stored fields. -/
structure BinaryFormat where
  fractionBits : Nat
  exponentBits : Nat

namespace BinaryFormat

/-- One sign bit, eight exponent bits, twenty-three fraction bits. -/
def single : BinaryFormat := ⟨23, 8⟩

/-- One sign bit, eleven exponent bits, fifty-two fraction bits. -/
def double : BinaryFormat := ⟨52, 11⟩

/-- The exponent `q` of the smallest magnitudes `m · 2 ^ q`. -/
def minScale (f : BinaryFormat) : Int :=
  2 - ((1 <<< (f.exponentBits - 1) : Nat) : Int) - f.fractionBits

/-- The magnitude bits of infinity; larger ones are not numbers. -/
def infinity (f : BinaryFormat) : Nat :=
  (1 <<< f.exponentBits - 1) <<< f.fractionBits

/-- The weight of the sign bit. -/
def signBit (f : BinaryFormat) : Nat := 1 <<< (f.fractionBits + f.exponentBits)

/-- The finite magnitude with bits `w`, as `m` and `q` of `m · 2 ^ q`. -/
def parts (f : BinaryFormat) (w : Nat) : Nat × Int :=
  let exponent := w >>> f.fractionBits
  let fraction := w % 1 <<< f.fractionBits
  if exponent = 0 then (fraction, f.minScale)
  else (fraction + 1 <<< f.fractionBits, f.minScale + exponent - 1)

/-- `num / den` as a natural, to nearest, a half going to the even neighbour. -/
def divRound (num den : Nat) : Nat :=
  let quotient := num / den
  let twice := 2 * (num % den)
  if twice > den || (twice == den && quotient % 2 == 1) then quotient + 1 else quotient

/-- The largest `k` with `2 ^ k ≤ num / den`, for positive `num` and `den`. -/
def ratioLog (num den : Nat) : Int :=
  let k : Int := (num.log2 : Int) - den.log2
  if num <<< (-k).toNat < den <<< k.toNat then k - 1 else k

/-- The magnitude bits nearest to `num / den`. A ratio past the largest finite
magnitude by half a unit or more rounds to infinity. -/
def round (f : BinaryFormat) (num den : Nat) : Nat :=
  if num = 0 then 0
  else
    let q := max f.minScale (ratioLog num den - f.fractionBits)
    let m := divRound (num <<< (-q).toNat) (den <<< q.toNat)
    min f.infinity ((q - f.minScale).toNat <<< f.fractionBits + m)

/-- The nearest magnitude to the product of two finite ones. -/
def mul (f : BinaryFormat) (v w : Nat) : Nat :=
  let (m, q) := f.parts v
  let (n, r) := f.parts w
  f.round ((m * n) <<< (q + r).toNat) (1 <<< (-(q + r)).toNat)

/-- The nearest magnitude to the quotient of two finite ones, the second positive. -/
def div (f : BinaryFormat) (v w : Nat) : Nat :=
  let (m, q) := f.parts v
  let (n, r) := f.parts w
  f.round (m <<< (q - r).toNat) (n <<< (r - q).toNat)

end BinaryFormat

/-- A single-precision number, by its bits. -/
structure Single where
  bits : UInt32
deriving DecidableEq, Inhabited

/-- A double-precision number, by its bits. -/
structure Double where
  bits : UInt64
deriving DecidableEq, Inhabited

namespace Single

def negative (x : Single) : Bool := x.bits.toNat ≥ BinaryFormat.single.signBit

def magnitude (x : Single) : Nat := x.bits.toNat % BinaryFormat.single.signBit

def isFinite (x : Single) : Bool := x.magnitude < BinaryFormat.single.infinity

def isNaN (x : Single) : Bool := x.magnitude > BinaryFormat.single.infinity

/-- Numeric equality. -/
def same (x y : Single) : Bool :=
  !x.isNaN && (x.bits == y.bits || (x.magnitude == 0 && y.magnitude == 0))

/-- The number with the given sign and magnitude bits. -/
def ofMagnitude (negative : Bool) (w : Nat) : Single :=
  ⟨.ofNat (if negative then BinaryFormat.single.signBit + w else w)⟩

/-- The nearest number to a natural. -/
def ofNat (n : Nat) : Single := ofMagnitude false (BinaryFormat.single.round n 1)

def nan : Single := ⟨0x7fc00000⟩

def infinity : Single := ⟨0x7f800000⟩

def negInfinity : Single := ⟨0xff800000⟩

end Single

namespace Double

def negative (x : Double) : Bool := x.bits.toNat ≥ BinaryFormat.double.signBit

def magnitude (x : Double) : Nat := x.bits.toNat % BinaryFormat.double.signBit

def isFinite (x : Double) : Bool := x.magnitude < BinaryFormat.double.infinity

def isNaN (x : Double) : Bool := x.magnitude > BinaryFormat.double.infinity

/-- Numeric equality. -/
def same (x y : Double) : Bool :=
  !x.isNaN && (x.bits == y.bits || (x.magnitude == 0 && y.magnitude == 0))

/-- The number with the given sign and magnitude bits. -/
def ofMagnitude (negative : Bool) (w : Nat) : Double :=
  ⟨.ofNat (if negative then BinaryFormat.double.signBit + w else w)⟩

/-- The nearest number to a natural. -/
def ofNat (n : Nat) : Double := ofMagnitude false (BinaryFormat.double.round n 1)

/-- The nearest single-precision number; a NaN stays one, and what is too large
becomes infinite. -/
def toSingle (x : Double) : Single :=
  if x.isNaN then Single.nan
  else if x.magnitude = BinaryFormat.double.infinity then
    .ofMagnitude x.negative BinaryFormat.single.infinity
  else
    let (m, q) := BinaryFormat.double.parts x.magnitude
    .ofMagnitude x.negative
      (BinaryFormat.single.round (m <<< q.toNat) (1 <<< (-q).toNat))

end Double

/-- The same number in double precision, which holds every single-precision one. -/
def Single.toDouble (x : Single) : Double :=
  if x.isNaN then ⟨0x7ff8000000000000⟩
  else if x.magnitude = BinaryFormat.single.infinity then
    .ofMagnitude x.negative BinaryFormat.double.infinity
  else
    let (m, q) := BinaryFormat.single.parts x.magnitude
    .ofMagnitude x.negative
      (BinaryFormat.double.round (m <<< q.toNat) (1 <<< (-q).toNat))

end MiningPipelines
