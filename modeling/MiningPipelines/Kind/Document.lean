import MiningPipelines.Json.Record
import MiningPipelines.Kind

/-!
# Kinds in JSON

A kind without parameters is written as its tag. A kind of analysis results is an object
with the one field `opaque`, which holds the tag of the result. Reading accepts for every
tag also an object that has the tag as its one field, with null under it.
-/

namespace MiningPipelines

namespace Document

/-- The tag of a case without content. -/
def unitCase? : Document → Option String
  | .text tag => some tag
  | .object [(tag, .null)] => some tag
  | _ => none

end Document

/-- Reads the tag of a kind of results. -/
def ArtifactKind.ofDocument? (d : Document) : Option ArtifactKind := do
  let tag ← d.unitCase?
  ofName? tag

namespace ValueKind

/-- The tag of a kind; it differs from the name for numbers only. -/
def tag : ValueKind → String
  | uint32 => "u_int32"
  | artifact _ => "opaque"
  | kind => kind.name

def toDocument : ValueKind → Document
  | artifact kind => .object [("opaque", .text kind.name)]
  | kind => .text kind.tag

def ofDocument? : Document → Option ValueKind
  | .object [("opaque", d)] => (ArtifactKind.ofDocument? d).map .artifact
  | d => do
    let tag ← d.unitCase?
    plain.find? fun kind => kind.tag == tag

end ValueKind

end MiningPipelines
