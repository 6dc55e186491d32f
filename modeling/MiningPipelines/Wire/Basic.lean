import MiningPipelines.Part

/-!
# Wire messages

What client and engine exchange. A wire value is the list of its populated payload slots
in declared order and a wire part is the list of its populated shapes. A sound message
has exactly one of each, but an engine may send none or several, so both are lists, and
`Wire.Value.decode` and `Wire.Part.decode` (in `Wire.Decode`) accept singletons only.

The records with a field for each slot and each shape are those of `Wire.Slots`. A list stands
for a record without loss, and is decoded as the record is.
-/

namespace MiningPipelines

namespace Wire

mutual

/-- A value, by its populated slots. -/
structure Value where
  slots : List Payload

/-- The content of one slot of a value. -/
inductive Payload where
  | string (s : String)
  | uint32 (n : UInt32)
  | bool (b : Bool)
  | float (x : Single)
  | enum (enumType variant : String)
  | strings (items : List String)
  | namesLog (traces : NamesLog)
  | hashesLog (traces : HashesLog)
  | pipeline (parts : List Part)
  | artifact (kind : ArtifactKind) (payload : Json)

/-- A part, by its populated shapes. -/
structure Part where
  shapes : List Shape

/-- One shape of a part. -/
inductive Shape where
  | operation (op : Operation)
  | parallel (parts : List Part)
  | fetch (key : String) (tag : Option Tag)
  | fetchAfter (keys : List String) (before : Operation) (tag : Option Tag)

/-- A named operation with its entries. -/
structure Operation where
  name : String
  config : List (String × Value)

end

instance : Inhabited Value := ⟨⟨[]⟩⟩

instance : Inhabited Part := ⟨⟨[]⟩⟩

/-- Entries in order. -/
abbrev Entries := List (String × Value)

abbrev Pipeline := List Part

/-- The name of the slot. -/
def Payload.slot : Payload → String
  | string _ => "string"
  | uint32 _ => "uint32"
  | bool _ => "bool"
  | float _ => "float"
  | enum _ _ => "enum"
  | strings _ => "strings"
  | namesLog _ => "namesLog"
  | hashesLog _ => "hashesLog"
  | pipeline _ => "pipeline"
  | artifact kind _ => kind.slot

/-- The name of the shape. -/
def Shape.slot : Shape → String
  | operation _ => "defaultPart"
  | parallel _ => "parallelPart"
  | fetch _ _ => "simpleContextRequestPart"
  | fetchAfter _ _ _ => "complexContextRequestPart"

/-- The names of the populated slots. -/
def Value.slotNames (v : Value) : List String := v.slots.map Payload.slot

/-- The names of the populated shapes. -/
def Part.slotNames (p : Part) : List String := p.shapes.map Shape.slot

/-- A pipeline submitted with its initial context. -/
structure Request where
  pipeline : Pipeline
  context : Entries

/-- Values for one fetch, with the tag of the fetch. -/
structure PartResult where
  tag : Option Tag
  values : Entries

/-- How a run ended: the identifier of the execution or a text. -/
structure FinalResult where
  success : Option String
  error : Option String
deriving DecidableEq

/-- One message of a response stream. A sound one populates exactly one field. -/
structure Message where
  finalResult : Option FinalResult
  partResult : Option PartResult
  logMessage : Option String

namespace Message

def empty : Message := ⟨none, none, none⟩

def log (text : String) : Message := ⟨none, none, some text⟩

def result (r : PartResult) : Message := ⟨none, some r, none⟩

def success (executionId : String) : Message := ⟨some ⟨some executionId, none⟩, none, none⟩

def failure (text : String) : Message := ⟨some ⟨none, some text⟩, none, none⟩

end Message

/-- Asks for a value that a finished execution left. -/
structure ContextRequest where
  executionId : String
  key : String
deriving DecidableEq

/-- The answer to a `ContextRequest`. -/
structure ContextReply where
  value : Option Value
  error : Option String

/-! ## Equality -/

mutual

/-- Equality of values; floats compare as numbers. -/
def Value.same : Value → Value → Bool
  | ⟨ps⟩, ⟨qs⟩ => Value.sameSlots ps qs

def Value.sameSlots : List Payload → List Payload → Bool
  | [], [] => true
  | p :: ps, q :: qs => p.same q && Value.sameSlots ps qs
  | _, _ => false

def Payload.same : Payload → Payload → Bool
  | .string s, .string t => s == t
  | .uint32 m, .uint32 n => m == n
  | .bool a, .bool b => a == b
  | .float x, .float y => x.same y
  | .enum t v, .enum u w => t == u && v == w
  | .strings xs, .strings ys => xs == ys
  | .namesLog xs, .namesLog ys => xs == ys
  | .hashesLog xs, .hashesLog ys => xs == ys
  | .pipeline ps, .pipeline qs => Pipeline.same ps qs
  | .artifact k x, .artifact l y => k == l && x.same y
  | _, _ => false

def Part.same : Part → Part → Bool
  | ⟨ss⟩, ⟨ts⟩ => Part.sameShapes ss ts

def Part.sameShapes : List Shape → List Shape → Bool
  | [], [] => true
  | s :: ss, t :: ts => s.same t && Part.sameShapes ss ts
  | _, _ => false

def Shape.same : Shape → Shape → Bool
  | .operation p, .operation q => p.same q
  | .parallel ps, .parallel qs => Pipeline.same ps qs
  | .fetch k t, .fetch l u => k == l && t == u
  | .fetchAfter ks p t, .fetchAfter ls q u => ks == ls && p.same q && t == u
  | _, _ => false

def Operation.same : Operation → Operation → Bool
  | ⟨m, xs⟩, ⟨n, ys⟩ => m == n && Entries.same xs ys

def Entries.same : List (String × Value) → List (String × Value) → Bool
  | [], [] => true
  | (k, v) :: xs, (l, w) :: ys => k == l && v.same w && Entries.same xs ys
  | _, _ => false

/-- Equality of pipelines. -/
def Pipeline.same : List Part → List Part → Bool
  | [], [] => true
  | p :: ps, q :: qs => p.same q && Pipeline.same ps qs
  | _, _ => false

end

end Wire

/-! ## Encoding -/

mutual

/-- The wire form of a value: its one slot. -/
def Value.toWire : Value → Wire.Value
  | .string s => ⟨[.string s]⟩
  | .uint32 n => ⟨[.uint32 n]⟩
  | .bool b => ⟨[.bool b]⟩
  | .float x => ⟨[.float x]⟩
  | .enum enumType variant => ⟨[.enum enumType variant]⟩
  | .strings items => ⟨[.strings items]⟩
  | .namesLog traces => ⟨[.namesLog traces]⟩
  | .hashesLog traces => ⟨[.hashesLog traces]⟩
  | .pipeline parts => ⟨[.pipeline (Pipeline.toWire parts)]⟩
  | .artifact kind payload => ⟨[.artifact kind payload]⟩

/-- The wire form of a part: its one shape. -/
def Part.toWire : Part → Wire.Part
  | .operation op => ⟨[.operation op.toWire]⟩
  | .parallel parts => ⟨[.parallel (Pipeline.toWire parts)]⟩
  | .fetch key tag _ => ⟨[.fetch key tag]⟩
  | .fetchAfter keys before tag _ => ⟨[.fetchAfter keys before.toWire tag]⟩

def Operation.toWire : Operation → Wire.Operation
  | ⟨name, config⟩ => ⟨name, Config.toWire config⟩

/-- The wire form of entries. -/
def Config.toWire : List (String × Value) → List (String × Wire.Value)
  | [] => []
  | (k, v) :: rest => (k, v.toWire) :: Config.toWire rest

/-- The wire form of a pipeline. -/
def Pipeline.toWire : List Part → List Wire.Part
  | [] => []
  | p :: rest => p.toWire :: Pipeline.toWire rest

end

/-- The wire form of a context. -/
def Context.toWire (c : Context) : Wire.Entries := Config.toWire c.entries

end MiningPipelines
