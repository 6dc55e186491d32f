import MiningPipelines.Json.Basic
import MiningPipelines.Kind

/-!
# Values and pipelines

A pipeline is a list of parts. A part is a plain operation, a set of parts that run side
by side, a fetch of a value the engine holds, or an operation followed by a fetch of what
it produced. Operations are configured with values, and a pipeline is itself a value, so
the types are defined together.

A fetch carries a tag, which the engine sends back with every result for it, and the
handler that receives those results. Handlers are the caller's (`Handler.named`, given
meaning when a pipeline runs) or one of the two that print.

Equality (`Value.same`, `Part.same`) compares floats as numbers and does not look at
handlers.
-/

namespace MiningPipelines

/-- What correlates a fetch with its results. -/
abbrev Tag := String

/-- Traces of event names. -/
abbrev NamesLog := List (List String)

/-- Traces of event hashes. -/
abbrev HashesLog := List (List UInt64)

/-- Who receives the results of a fetch. -/
inductive Handler where
  /-- A handler of the caller. -/
  | named (name : String)
  /-- Writes each trace of a names log. -/
  | printTraces
  /-- Writes the counts of a log. -/
  | printCounts
deriving DecidableEq

mutual

/-- What configurations, contexts and results hold. -/
inductive Value where
  | string (s : String)
  | uint32 (n : UInt32)
  | bool (b : Bool)
  | float (x : Single)
  | enum (enumType variant : String)
  | strings (items : List String)
  | namesLog (traces : NamesLog)
  | hashesLog (traces : HashesLog)
  | pipeline (parts : List Part)
  | artifact (kind : ArtifactKind) (payload : Json)

/-- A part of a pipeline. -/
inductive Part where
  | operation (op : Operation)
  | parallel (parts : List Part)
  | fetch (key : String) (tag : Option Tag) (handler : Option Handler)
  | fetchAfter (keys : List String) (before : Operation) (tag : Option Tag)
      (handler : Option Handler)

/-- A named operation with its configuration. -/
structure Operation where
  name : String
  config : List (String × Value)

end

/-- Ordered entries. Keys may repeat; the engine takes the first. -/
abbrev Config := List (String × Value)

/-- Parts in order of execution. -/
abbrev Pipeline := List Part

instance : Inhabited Value := ⟨.bool false⟩

instance : Inhabited Part := ⟨.parallel []⟩

namespace Value

def kind : Value → ValueKind
  | string _ => .string
  | uint32 _ => .uint32
  | bool _ => .bool
  | float _ => .float
  | enum _ _ => .enum
  | strings _ => .strings
  | namesLog _ => .namesLog
  | hashesLog _ => .hashesLog
  | pipeline _ => .pipeline
  | artifact kind _ => .artifact kind

end Value

mutual

/-- Equality of values. -/
def Value.same : Value → Value → Bool
  | .string s, .string t => s == t
  | .uint32 m, .uint32 n => m == n
  | .bool a, .bool b => a == b
  | .float x, .float y => x.same y
  | .enum t v, .enum u w => t == u && v == w
  | .strings xs, .strings ys => xs == ys
  | .namesLog xs, .namesLog ys => xs == ys
  | .hashesLog xs, .hashesLog ys => xs == ys
  | .pipeline ps, .pipeline qs => Pipeline.same ps qs
  | .artifact k x, .artifact l y => k == l && x.same y
  | _, _ => false

/-- Equality of parts, whatever their handlers. -/
def Part.same : Part → Part → Bool
  | .operation p, .operation q => p.same q
  | .parallel ps, .parallel qs => Pipeline.same ps qs
  | .fetch k t _, .fetch l u _ => k == l && t == u
  | .fetchAfter ks p t _, .fetchAfter ls q u _ => ks == ls && p.same q && t == u
  | _, _ => false

/-- Equality of operations. -/
def Operation.same : Operation → Operation → Bool
  | ⟨m, xs⟩, ⟨n, ys⟩ => m == n && Config.same xs ys

/-- Equality of entries, in order. -/
def Config.same : List (String × Value) → List (String × Value) → Bool
  | [], [] => true
  | (k, v) :: xs, (l, w) :: ys => k == l && v.same w && Config.same xs ys
  | _, _ => false

/-- Equality of parts, in order. -/
def Pipeline.same : List Part → List Part → Bool
  | [], [] => true
  | p :: ps, q :: qs => p.same q && Pipeline.same ps qs
  | _, _ => false

end

end MiningPipelines
