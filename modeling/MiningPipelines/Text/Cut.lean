/-!
# Cutting texts

What stands around a mark, and what is left without the ends of a text.
-/

namespace MiningPipelines

/-- What stands before the first `mark`, and what stands behind it if there is one. -/
def cutAt (mark : Char) (cs : List Char) : List Char × Option (List Char) :=
  match cs.span (· != mark) with
  | (before, []) => (before, none)
  | (before, _ :: behind) => (before, some behind)

/-- Without the characters at both ends for which `p` holds. -/
def trimBy (p : Char → Bool) (cs : List Char) : List Char :=
  ((cs.dropWhile p).reverse.dropWhile p).reverse

end MiningPipelines
