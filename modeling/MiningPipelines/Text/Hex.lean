import MiningPipelines.Text.Bytes

/-!
# Hexadecimal text

Numbers and bytes in lower-case hexadecimal digits.
-/

namespace MiningPipelines

namespace Hex

/-- The digits of the low `count` half-bytes of a number, the highest first. -/
def digits (n : Nat) : Nat → List Char
  | 0 => []
  | count + 1 => Nat.digitChar (n >>> (4 * count) % 16) :: digits n count

/-- The digits of a number of 32 bits. -/
def ofUInt32 (n : UInt32) : String := String.ofList (digits n.toNat 8)

/-- Two digits for each byte. -/
def ofBytes (bs : Bytes) : String := String.ofList (bs.flatMap fun b => digits b.toNat 2)

/-- The value of a digit; capitals count too. -/
def digit? (c : Char) : Option Nat :=
  if '0' ≤ c ∧ c ≤ '9' then some (c.toNat - '0'.toNat)
  else if 'a' ≤ c ∧ c ≤ 'f' then some (c.toNat - 'a'.toNat + 10)
  else if 'A' ≤ c ∧ c ≤ 'F' then some (c.toNat - 'A'.toNat + 10)
  else none

/-- The bytes that pairs of digits write. -/
def bytes? : List Char → Option Bytes
  | [] => some []
  | [_] => none
  | a :: b :: rest => do
    let high ← digit? a
    let low ← digit? b
    let bs ← bytes? rest
    some (.ofNat (16 * high + low) :: bs)

end Hex

end MiningPipelines
