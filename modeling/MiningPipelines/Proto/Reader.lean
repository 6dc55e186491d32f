import MiningPipelines.Proto.Field

/-!
# Reading messages

A message is read by folding its fields onto a message that is there already, by rules
for the tags that it knows (`Proto.merge`). A field under another tag is skipped. Nested
messages are read in the same way, so a second field with one nested message adds to the
first.

Depth counts the levels that may still nest below a message. Each nested message takes
one, and skipping a field takes as many as its payload has.
-/

namespace MiningPipelines

namespace Varint

/-- The naturals that follow each other up to the end. -/
def readAll (bs : Bytes) : Option (List Nat) :=
  match bs with
  | [] => some []
  | b :: bs =>
    match _h : read (b :: bs) with
    | none => none
    | some (n, rest) => (readAll rest).map (n :: ·)
termination_by bs.length
decreasing_by exact length_of_read _h

end Varint

namespace Proto

namespace Payload

def text? : Payload → Option String
  | .bytes bs => textOfBytes? bs
  | _ => none

/-- The low 32 bits of a number. -/
def uint32? : Payload → Option UInt32
  | .varint n => some n.toUInt32
  | _ => none

def uint64? : Payload → Option UInt64
  | .varint n => some n
  | _ => none

/-- Any number but zero is true. -/
def bool? : Payload → Option Bool
  | .varint n => some (n != 0)
  | _ => none

def single? : Payload → Option Single
  | .fixed32 w => some ⟨w⟩
  | _ => none

variable {α : Type}

/-- Reads a nested message onto `m`. -/
def message? (read : α → Bytes → Option α) (m : α) : Payload → Option α
  | .bytes bs => read m bs
  | _ => none

/-- Appends a text. -/
def appendText? (items : List String) (p : Payload) : Option (List String) :=
  p.text?.map fun s => items ++ [s]

/-- Appends a number, or all the numbers packed into bytes. -/
def appendUInt64? (items : List UInt64) : Payload → Option (List UInt64)
  | .varint n => some (items ++ [n])
  | .bytes bs => (Varint.readAll bs).map fun ns => items ++ ns.map UInt64.ofNat
  | _ => none

/-- Appends a nested message, read onto `empty`. -/
def append? (read : α → Bytes → Option α) (empty : α) (items : List α) (p : Payload) :
    Option (List α) :=
  (p.message? read empty).map fun m => items ++ [m]

end Payload

/-- How the fields that a message knows change it, by tag. -/
abbrev Rules (α : Type) := List (Nat × (α → Payload → Option α))

variable {α : Type}

/-- Applies a field to a message, or skips it. -/
def Rules.apply (rules : Rules α) (depth : Nat) (m : α) (f : Field) : Option α :=
  match rules.lookup f.tag with
  | some rule => rule m f.payload
  | none => if f.payload.levels ≤ depth then some m else none

/-- Reads a message onto `m`; `depth` more levels may nest. -/
def merge (depth : Nat) (rules : Rules α) (m : α) (bs : Bytes) : Option α := do
  let fs ← Field.parse bs
  fs.foldlM (rules.apply depth) m

/-- Reads a message with the given number of levels, its own included. -/
def readLevels (rules : Nat → Rules α) : Nat → α → Bytes → Option α
  | 0, _, _ => none
  | n + 1, m, bs => merge n (rules n) m bs

/-- The levels of a message that is not nested, its own included. -/
def maxLevels : Nat := 101

/-! ## Writing -/

namespace Field

/-- A text; an empty one is not written. -/
def text (tag : Nat) (s : String) : Bytes :=
  if s = "" then [] else printBytes tag (bytesOfText s)

/-- A number; zero is not written. -/
def natural (tag n : Nat) : Bytes := if n = 0 then [] else printVarint tag n

/-- Every text of a list, also empty ones. -/
def texts (tag : Nat) (items : List String) : Bytes :=
  items.flatMap fun s => printBytes tag (bytesOfText s)

/-- Numbers packed into one field; an empty list is not written. -/
def packed (tag : Nat) (items : List UInt64) : Bytes :=
  if items.isEmpty then []
  else printBytes tag (items.flatMap fun n => Varint.print n.toNat)

/-- A nested message for each element. -/
def messages (tag : Nat) (print : α → Bytes) (items : List α) : Bytes :=
  items.flatMap fun m => printBytes tag (print m)

/-- A nested message, if there is one. -/
def optional (tag : Nat) (print : α → Bytes) : Option α → Bytes
  | none => []
  | some m => printBytes tag (print m)

end Field

end Proto

end MiningPipelines
