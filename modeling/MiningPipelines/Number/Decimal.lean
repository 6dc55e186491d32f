import MiningPipelines.Number.Binary

/-!
# Decimal text of floating-point numbers

`shortest` finds the decimal with the fewest digits that rounds back to a magnitude:
the first power of ten, counted downwards, with a multiple inside the interval of reals
that round to it. Of two such multiples the nearer one is taken; a tie is a parameter.

A `NumeralStyle` says how those digits are laid out. JSON text moves to an exponent
outside a range of magnitudes and keeps a point; running text never does either.
-/

namespace MiningPipelines

/-- Which of two equally near neighbours is written. -/
inductive Tie where
  | toEven
  | upward
deriving DecidableEq

/-- The number `digits · 10 ^ exponent`. -/
structure Decimal where
  digits : Nat
  exponent : Int
deriving DecidableEq

namespace BinaryFormat

/-- The multiple of `10 ^ k` that stands for a magnitude, if one rounds to it. The
magnitude is `4 m · 2 ^ s`, and what rounds to it lies between `low · 2 ^ s` and
`high · 2 ^ s`, ends included when `closed`. -/
def gridPoint (tie : Tie) (low value high : Nat) (closed : Bool) (s k : Int) : Option Nat :=
  let scale := Nat.pow 10 (-k).toNat <<< s.toNat
  let unit := Nat.pow 10 k.toNat <<< (-s).toNat
  let inside (a : Nat) : Bool :=
    if closed then low * scale ≤ a * unit && a * unit ≤ high * scale
    else low * scale < a * unit && a * unit < high * scale
  let below := value * scale / unit
  let above := below + 1
  match inside below, inside above with
  | false, false => none
  | true, false => some below
  | false, true => some above
  | true, true =>
    let toBelow := value * scale - below * unit
    let toAbove := above * unit - value * scale
    if toBelow < toAbove then some below
    else if toAbove < toBelow then some above
    else match tie with
      | .upward => some above
      | .toEven => some (if below % 2 = 0 then below else above)

/-- Looks for a grid point on `n` powers of ten, from `10 ^ k` downwards. -/
def searchGrid (tie : Tie) (low value high : Nat) (closed : Bool) (s : Int) :
    Nat → Int → Decimal
  | 0, k => ⟨0, k⟩
  | n + 1, k =>
    match gridPoint tie low value high closed s k with
    | some a => ⟨a, k⟩
    | none => searchGrid tie low value high closed s n (k - 1)

/-- The decimal with the fewest digits that rounds to the finite magnitude `w`. -/
def shortest (f : BinaryFormat) (tie : Tie) (w : Nat) : Decimal :=
  let (m, q) := f.parts w
  if m = 0 then ⟨0, 0⟩
  else
    let narrow := m = 1 <<< f.fractionBits ∧ q > f.minScale
    let low := if narrow then 4 * m - 1 else 4 * m - 2
    let top : Int := ((m.log2 : Int) + q + 2) * 30103 / 100000 + 2
    searchGrid tie low (4 * m) (4 * m + 2) (m % 2 = 0) (q - 2) (f.fractionBits + 8) top

end BinaryFormat

/-- How the digits of a number are laid out. -/
structure NumeralStyle where
  /-- The leading digit's exponents that are written without an exponent part. -/
  positional : Int → Bool
  /-- A whole number keeps `.0`. -/
  keepPoint : Bool
  tie : Tie

namespace NumeralStyle

/-- Single-precision numbers in JSON text: positional from `1e-6` up to `1e13`. -/
def jsonSingle : NumeralStyle := ⟨fun e => -6 ≤ e && e < 13, true, .toEven⟩

/-- Double-precision numbers in JSON text: positional from `1e-5` up to `1e16`. -/
def jsonDouble : NumeralStyle := ⟨fun e => -5 ≤ e && e < 16, true, .toEven⟩

/-- Numbers in running text: always positional, whole numbers without a point. -/
def plain : NumeralStyle := ⟨fun _ => true, false, .upward⟩

/-- `n` zeros. -/
def zeros (n : Nat) : String := String.ofList (List.replicate n '0')

/-- The text of a decimal without sign. -/
def layout (style : NumeralStyle) (d : Decimal) : String :=
  let digits := (Nat.repr d.digits).toList
  let count : Int := digits.length
  let leading := count - 1 + d.exponent
  if d.digits = 0 then if style.keepPoint then "0.0" else "0"
  else if style.positional leading then
    if d.exponent ≥ 0 then
      String.ofList digits ++ zeros d.exponent.toNat ++ (if style.keepPoint then ".0" else "")
    else if leading ≥ 0 then
      let whole := (leading + 1).toNat
      String.ofList (digits.take whole) ++ "." ++ String.ofList (digits.drop whole)
    else "0." ++ zeros (-leading - 1).toNat ++ String.ofList digits
  else
    let mantissa := match digits with
      | [] => ""
      | [c] => String.singleton c
      | c :: rest => String.singleton c ++ "." ++ String.ofList rest
    mantissa ++ "e" ++ (if leading < 0 then "-" else "+") ++ Nat.repr leading.natAbs

/-- The text of a finite number of format `f`. -/
def text (style : NumeralStyle) (f : BinaryFormat) (negative : Bool) (w : Nat) : String :=
  (if negative then "-" else "") ++ style.layout (f.shortest style.tie w)

end NumeralStyle

/-- JSON text; JSON has no NaN and no infinity, so those are written `null`. -/
def Single.json (x : Single) : String :=
  if x.isFinite then NumeralStyle.jsonSingle.text .single x.negative x.magnitude else "null"

/-- JSON text; JSON has no NaN and no infinity, so those are written `null`. -/
def Double.json (x : Double) : String :=
  if x.isFinite then NumeralStyle.jsonDouble.text .double x.negative x.magnitude else "null"

/-- The number as running text shows it. -/
def Single.display (x : Single) : String :=
  if x.isNaN then "NaN"
  else if x.isFinite then NumeralStyle.plain.text .single x.negative x.magnitude
  else if x.negative then "-inf" else "inf"

/-- The number as running text shows it. -/
def Double.display (x : Double) : String :=
  if x.isNaN then "NaN"
  else if x.isFinite then NumeralStyle.plain.text .double x.negative x.magnitude
  else if x.negative then "-inf" else "inf"

end MiningPipelines
