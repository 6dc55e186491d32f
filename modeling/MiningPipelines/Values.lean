import MiningPipelines.Config
import MiningPipelines.Json.Record

/-!
# The values of a result

A handler receives the values of one result, each key once. It takes a value out under a
known key, or reads an analysis result there.
-/

namespace MiningPipelines

/-- Values by key, each key once. -/
abbrev Values := List (String × Value)

namespace Values

/-- The values of the entries, the later of one key counting. -/
def ofEntries (entries : List (String × Value)) : Values :=
  entries.foldl (fun values (key, v) => putEntry key v values) []

def get? (values : Values) (key : String) : Option Value :=
  (values.find? fun (k, _) => k == key).map Prod.snd

/-- The value under a key, and the values without it. -/
def take (values : Values) (key : Key) : Except Failure (Value × Values) :=
  match get? values key.name with
  | some v => .ok (v, values.filter fun (k, _) => k != key.name)
  | none => .error (.malformed (.missingValue key.name))

/-- The payload of the analysis result under a key. -/
def artifact (values : Values) (key : Key) (kind : ArtifactKind) : Except Failure Json :=
  match get? values key.name with
  | some v => v.asArtifact kind
  | none => .error (.malformed (.missingValue key.name))

/-- The analysis result under a key, read from its document by `read`. -/
def readArtifact {α : Type} (values : Values) (key : Key) (kind : ArtifactKind)
    (read : Document → Option α) : Except Failure α := do
  let payload ← artifact values key kind
  match read payload.toDocument with
  | some a => .ok a
  | none => .error .serialization

end Values

end MiningPipelines
