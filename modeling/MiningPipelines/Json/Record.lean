import MiningPipelines.Json.Basic

/-!
# Reading documents by a schema

A record is written as an object, or as an array of its fields in declared order.
`Document.record?` reads both forms into a `Record`: fields with unknown names are
dropped, a known name twice is refused, and so is an array with too many elements.

The four readers of a field differ in what an absent field means: `required` refuses it,
`orElse` takes a default, `slot` leaves the slot unset, and `nullable` does so only where
fields have names. A `null` unsets a slot and is an error elsewhere.
-/

namespace MiningPipelines

/-- The declared fields of a record that a document gives. -/
structure Record where
  /-- The fields were given by name. -/
  named : Bool
  entries : List (String × Document)

namespace Document

/-- The record with the declared fields `names`. -/
def record? (names : List String) : Document → Option Record
  | .object fields =>
    let known := fields.filter fun (k, _) => names.contains k
    if (known.map Prod.fst).Nodup then some ⟨true, known⟩ else none
  | .array items =>
    if items.length ≤ names.length then some ⟨false, names.zip items⟩ else none
  | _ => none

def text? : Document → Option String
  | .text s => some s
  | _ => none

def bool? : Document → Option Bool
  | .bool b => some b
  | _ => none

/-- A natural number in 64 bits. A numeral with a point or an exponent is none. -/
def uint64? : Document → Option UInt64
  | .number (.natural n) => some n
  | _ => none

/-- A natural number in 32 bits. -/
def uint32? (d : Document) : Option UInt32 := do
  let n ← d.uint64?
  if n.toNat < UInt32.size then some n.toUInt32 else none

/-- A natural number in 8 bits. -/
def uint8? (d : Document) : Option UInt8 := do
  let n ← d.uint64?
  if n.toNat < UInt8.size then some n.toUInt8 else none

/-- Any number, rounded to single precision. -/
def single? : Document → Option Single
  | .number (.natural n) => some (.ofNat n.toNat)
  | .number (.negative n) =>
    some (.ofMagnitude true (BinaryFormat.single.round n.toInt.natAbs 1))
  | .number (.real x) => some x.toSingle
  | .single x => some x
  | _ => none

/-- A list, each element read by `read`. -/
def list? {α : Type} (read : Document → Option α) : Document → Option (List α)
  | .array items => items.mapM read
  | _ => none

end Document

namespace Record

variable {α : Type}

def find? (r : Record) (name : String) : Option Document :=
  (r.entries.find? fun (k, _) => k == name).map Prod.snd

/-- A field that has to be there. -/
def required (r : Record) (name : String) (read : Document → Option α) : Option α :=
  (r.find? name).bind read

/-- A field that may be absent and then has a default. -/
def orElse (r : Record) (name : String) (default : α) (read : Document → Option α) :
    Option α :=
  match r.find? name with
  | none => some default
  | some d => read d

/-- A slot, unset when it is absent or null. -/
def slot (r : Record) (name : String) (read : Document → Option α) : Option (Option α) :=
  match r.find? name with
  | none => some none
  | some .null => some none
  | some d => (read d).map some

/-- A value or null, absent only where fields have names. -/
def nullable (r : Record) (name : String) (read : Document → Option α) :
    Option (Option α) :=
  match r.find? name with
  | none => if r.named then some none else none
  | some .null => some none
  | some d => (read d).map some

end Record

end MiningPipelines
