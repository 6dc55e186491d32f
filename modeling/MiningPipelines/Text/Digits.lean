/-!
# Decimal digits

The number that a row of decimal digits writes.
-/

namespace MiningPipelines

/-- The number that decimal digits write; there is at least one digit and nothing else. -/
def decimal? (cs : List Char) : Option Nat :=
  if cs.isEmpty || !cs.all Char.isDigit then none
  else some (cs.foldl (fun n c => n * 10 + (c.toNat - '0'.toNat)) 0)

end MiningPipelines
