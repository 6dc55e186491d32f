import MiningPipelines.Proto.Artifact

/-!
# Binary messages

The messages of the engine's binary protocol. What JSON messages hold in separate slots
is here a choice of one (`Content`, `Shape`), which may be missing, and so may be most
nested messages. A key, a tag and an identifier are messages around one text, and are
given by that text.
-/

namespace MiningPipelines

namespace Proto

mutual

/-- A value. -/
structure Value where
  content : Option Content

/-- What a value holds. -/
inductive Content where
  | string (s : String)
  | hashesLog (traces : Option (List (List UInt64)))
  | namesLog (traces : Option (List (List String)))
  | uint32 (n : UInt32)
  | bool (b : Bool)
  | enum (enumType variant : String)
  | strings (items : List String)
  | pipeline (parts : List Part)
  | float (x : Single)
  | artifact (a : Artifact)

/-- A part of a pipeline. -/
structure Part where
  shape : Option Shape

/-- What a part is. -/
inductive Shape where
  | operation (op : Operation)
  | parallel (parts : List Part)
  | fetch (key : Option String) (tag : Option String)
  | fetchAfter (key : Option String) (before : Option Operation) (tag : Option String)

/-- A named operation. -/
structure Operation where
  name : String
  config : Option (List Entry)

/-- A key with its value. -/
structure Entry where
  key : Option String
  value : Option Value

end

instance : Inhabited Value := ⟨⟨none⟩⟩

instance : Inhabited Part := ⟨⟨none⟩⟩

/-- A request to run a pipeline. -/
structure Request where
  pipeline : Option (List Part)
  context : List Entry

/-- Values for one fetch. -/
structure PartResult where
  values : List Entry
  tag : Option String

/-- How a run ended. -/
inductive Verdict where
  | success (executionId : String)
  | error (text : String)
deriving DecidableEq

/-- What a message of a stream says. -/
inductive Notice where
  | final (verdict : Option Verdict)
  | result (r : PartResult)
  | log (text : String)

/-- A message of a stream. -/
structure Message where
  notice : Option Notice

/-- Asks for a value of a finished execution. -/
structure ContextRequest where
  executionId : Option String
  key : Option String
deriving DecidableEq

/-- What a `ContextRequest` brings. -/
inductive Finding where
  | value (v : Value)
  | error (text : String)

/-- The answer to a `ContextRequest`. -/
structure ContextReply where
  finding : Option Finding

end Proto

end MiningPipelines
