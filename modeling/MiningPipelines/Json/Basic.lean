import MiningPipelines.Number.Decimal

/-!
# JSON values and documents

A `Json` is a value without a schema, as domain results carry it: numbers keep the class
they were written in (`1` and `1.0` differ) and the fields of an object are in key order,
each key once (`Json.insertField`).

A `Document` is what a JSON text says before a schema is applied to it. Fields are in
the order of the text, repeated keys are kept, and what is well formed but has no value
(a number too large, a string with half a surrogate pair, nesting past the limit) is
`unreadable`. A reader that ignores such a part does not notice it; one that needs it
fails. Documents are also what the printer writes.
-/

namespace MiningPipelines

namespace Json

/-- A JSON number by class: a natural, a negative integer, or neither. -/
inductive Number where
  | natural (n : UInt64)
  | negative (n : Int64)
  | real (x : Double)
deriving DecidableEq, Inhabited

/-- Equality within a class; reals compare as numbers. -/
def Number.same : Number → Number → Bool
  | .natural m, .natural n => m == n
  | .negative m, .negative n => m == n
  | .real x, .real y => x.same y
  | _, _ => false

end Json

/-- A JSON value without a schema. -/
inductive Json where
  | null
  | bool (b : Bool)
  | number (n : Json.Number)
  | text (s : String)
  | array (items : List Json)
  | object (fields : List (String × Json))
deriving Inhabited

namespace Json

mutual

/-- Equality of values, by `Number.same` on numbers. -/
def same : Json → Json → Bool
  | .null, .null => true
  | .bool a, .bool b => a == b
  | .number m, .number n => m.same n
  | .text s, .text t => s == t
  | .array xs, .array ys => sameItems xs ys
  | .object xs, .object ys => sameFields xs ys
  | _, _ => false

def sameItems : List Json → List Json → Bool
  | [], [] => true
  | x :: xs, y :: ys => x.same y && sameItems xs ys
  | _, _ => false

def sameFields : List (String × Json) → List (String × Json) → Bool
  | [], [] => true
  | (k, x) :: xs, (l, y) :: ys => k == l && x.same y && sameFields xs ys
  | _, _ => false

end

/-- Puts a field at its place in key order, over an earlier one of the same key. -/
def insertField (key : String) (value : Json) : List (String × Json) → List (String × Json)
  | [] => [(key, value)]
  | (k, v) :: rest =>
    if key = k then (key, value) :: rest
    else if key < k then (key, value) :: (k, v) :: rest
    else (k, v) :: insertField key value rest

/-- The object with the given fields; of two with one key the later counts. -/
def ofFields (fields : List (String × Json)) : Json :=
  .object (fields.foldl (fun acc (k, v) => insertField k v acc) [])

/-- A natural number below `2 ^ 64`. -/
def ofNat (n : Nat) : Json := .number (.natural (.ofNat n))

/-- A real number; what is not finite has no JSON form and becomes `null`. -/
def ofDouble (x : Double) : Json := if x.isFinite then .number (.real x) else .null

end Json

/-- What a JSON text says, before a schema is applied. -/
inductive Document where
  | null
  | bool (b : Bool)
  | number (n : Json.Number)
  | single (x : Single)
  | text (s : String)
  | array (items : List Document)
  | object (fields : List (String × Document))
  | unreadable
deriving Inhabited

namespace Document

/-- Arrays and objects may nest this deep. -/
def maxDepth : Nat := 127

mutual

/-- The value that a document stands for, when all of it is readable. -/
def toJson? : Document → Option Json
  | .null => some .null
  | .bool b => some (.bool b)
  | .number n => some (.number n)
  | .single x => some (.ofDouble x.toDouble)
  | .text s => some (.text s)
  | .array items => (itemsToJson? items).map .array
  | .object fields => (fieldsToJson? fields []).map .object
  | .unreadable => none

def itemsToJson? : List Document → Option (List Json)
  | [] => some []
  | d :: rest => do
    let v ← d.toJson?
    let vs ← itemsToJson? rest
    some (v :: vs)

/-- Adds the fields to those of `acc`, the later of one key winning. -/
def fieldsToJson? : List (String × Document) → List (String × Json) →
    Option (List (String × Json))
  | [], acc => some acc
  | (k, d) :: rest, acc => do
    let v ← d.toJson?
    fieldsToJson? rest (Json.insertField k v acc)

end

end Document

namespace Json

mutual

/-- The document that says just this value. -/
def toDocument : Json → Document
  | .null => .null
  | .bool b => .bool b
  | .number n => .number n
  | .text s => .text s
  | .array items => .array (itemsToDocument items)
  | .object fields => .object (fieldsToDocument fields)

def itemsToDocument : List Json → List Document
  | [] => []
  | v :: rest => v.toDocument :: itemsToDocument rest

def fieldsToDocument : List (String × Json) → List (String × Document)
  | [] => []
  | (k, v) :: rest => (k, v.toDocument) :: fieldsToDocument rest

end

end Json

end MiningPipelines
