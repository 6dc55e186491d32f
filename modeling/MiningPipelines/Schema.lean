import MiningPipelines.Part

/-!
# Operation schemas

A schema lists the keys that an operation accepts. `Pipeline.validate` checks every
operation of a pipeline against a table of schemas, depth first: its name, its entries
in order, and then the pipelines among its values.
-/

namespace MiningPipelines

/-- The keys that an operation accepts. -/
structure Schema where
  name : String
  keys : List Key
deriving DecidableEq

def Schema.key? (s : Schema) (name : String) : Option Key :=
  s.keys.find? fun key => key.name == name

/-- Schemas by operation name, each name once. -/
structure SchemaTable where
  schemas : List Schema

namespace SchemaTable

def empty : SchemaTable := ⟨[]⟩

def size (t : SchemaTable) : Nat := t.schemas.length

def find? (t : SchemaTable) (name : String) : Option Schema :=
  t.schemas.find? fun s => s.name == name

def contains (t : SchemaTable) (name : String) : Bool := (t.find? name).isSome

/-- Adds a schema, in the place of an earlier one of that name. -/
def register (t : SchemaTable) (s : Schema) : SchemaTable :=
  ⟨t.schemas.filter (fun old => old.name != s.name) ++ [s]⟩

def ofList (schemas : List Schema) : SchemaTable := schemas.foldl register empty

/-- The operation names, sorted. -/
def names (t : SchemaTable) : List String :=
  (t.schemas.map Schema.name).mergeSort fun a b => a ≤ b

end SchemaTable

/-- Checks the entries of an operation against its schema. -/
def Schema.checkEntries (s : Schema) (operation : String) : Config → Except Refusal Unit
  | [] => .ok ()
  | (k, v) :: rest => do
    match s.key? k with
    | none => throw (.keyNotAccepted operation k)
    | some key => key.check v
    s.checkEntries operation rest

/-- Checks the name and the entries of an operation, but no pipeline inside it. -/
def Operation.checkOwn (t : SchemaTable) (op : Operation) : Except Refusal Unit :=
  match t.find? op.name with
  | none => .error (.unknownOperation op.name)
  | some s => s.checkEntries op.name op.config

mutual

/-- Checks the operations of a part. -/
def Part.validate (t : SchemaTable) : Part → Except Refusal Unit
  | .operation op => op.validate t
  | .parallel parts => Pipeline.validate t parts
  | .fetch _ _ _ => .ok ()
  | .fetchAfter _ before _ _ => before.validate t

/-- Checks an operation and then the pipelines in its configuration. -/
def Operation.validate (t : SchemaTable) : Operation → Except Refusal Unit
  | ⟨name, config⟩ => do
    Operation.checkOwn t ⟨name, config⟩
    Config.validateNested t config

/-- Checks the pipelines among the values of a configuration. -/
def Config.validateNested (t : SchemaTable) : List (String × Value) → Except Refusal Unit
  | [] => .ok ()
  | (_, v) :: rest => do
    v.validateNested t
    Config.validateNested t rest

/-- Checks a value if it is a pipeline. -/
def Value.validateNested (t : SchemaTable) : Value → Except Refusal Unit
  | .pipeline parts => Pipeline.validate t parts
  | _ => .ok ()

/-- Checks the operations of a pipeline; the first fault in order is reported. -/
def Pipeline.validate (t : SchemaTable) : List Part → Except Refusal Unit
  | [] => .ok ()
  | p :: rest => do
    p.validate t
    Pipeline.validate t rest

end

end MiningPipelines
