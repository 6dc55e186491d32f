import MiningPipelines.Failure
import MiningPipelines.Proto.Message
import MiningPipelines.Wire.Basic

/-!
# Wire messages as binary messages

`toProto` gives the binary form of what a client sends. There is none for a value without
exactly one slot, for a fetch of several keys, and for results that have no message or do
not fit it. `toWire` gives the wire form of what an engine sends; it always exists, and
what a binary message leaves out is empty or absent in it. `receive` is how a client comes by
the wire form: by conversions that may fail wherever an analysis result has to be written
as a document.
-/

namespace MiningPipelines

/-! ## Sending -/

namespace Wire

/-- The message of an analysis result. -/
def artifactToProto (kind : ArtifactKind) (payload : Json) :
    Except Malformation Proto.Artifact :=
  if Proto.Artifact.hasMessage kind then
    match Proto.Artifact.ofDocument? payload.toDocument kind with
    | some a => .ok a
    | none => .error (.misfit kind.slot)
  else .error (.noEncoding kind.slot)

mutual

/-- The binary form of a value with one slot. -/
def Value.toProto : Value → Except Malformation Proto.Value
  | ⟨[]⟩ => .error (.notOneSlot [])
  | ⟨[p]⟩ => do .ok ⟨some (← p.toProto)⟩
  | ⟨p :: q :: ps⟩ => .error (.notOneSlot ((p :: q :: ps).map Payload.slot))

def Payload.toProto : Payload → Except Malformation Proto.Content
  | .string s => .ok (.string s)
  | .uint32 n => .ok (.uint32 n)
  | .bool b => .ok (.bool b)
  | .float x => .ok (.float x)
  | .enum enumType variant => .ok (.enum enumType variant)
  | .strings items => .ok (.strings items)
  | .namesLog traces => .ok (.namesLog (some traces))
  | .hashesLog traces => .ok (.hashesLog (some traces))
  | .pipeline parts => do .ok (.pipeline (← Pipeline.toProto parts))
  | .artifact kind payload => do .ok (.artifact (← artifactToProto kind payload))

/-- The binary form of a part with one shape. -/
def Part.toProto : Part → Except Malformation Proto.Part
  | ⟨[]⟩ => .error (.notOnePartSlot [])
  | ⟨[s]⟩ => do .ok ⟨some (← s.toProto)⟩
  | ⟨s :: t :: ss⟩ => .error (.notOnePartSlot ((s :: t :: ss).map Shape.slot))

def Shape.toProto : Shape → Except Malformation Proto.Shape
  | .operation op => do .ok (.operation (← op.toProto))
  | .parallel parts => do .ok (.parallel (← Pipeline.toProto parts))
  | .fetch key tag => .ok (.fetch (some key) tag)
  | .fetchAfter [key] before tag => do .ok (.fetchAfter (some key) (some (← before.toProto)) tag)
  | .fetchAfter keys before _ => .error (.severalKeys before.name keys.length)

def Operation.toProto : Operation → Except Malformation Proto.Operation
  | ⟨name, config⟩ => do .ok ⟨name, some (← Entries.toProto config)⟩

/-- The binary form of entries. -/
def Entries.toProto : List (String × Value) → Except Malformation (List Proto.Entry)
  | [] => .ok []
  | (k, v) :: rest => do
    let v ← v.toProto
    let rest ← Entries.toProto rest
    .ok (⟨some k, some v⟩ :: rest)

/-- The binary form of the parts of a pipeline. -/
def Pipeline.toProto : List Part → Except Malformation (List Proto.Part)
  | [] => .ok []
  | p :: rest => do
    let p ← p.toProto
    let rest ← Pipeline.toProto rest
    .ok (p :: rest)

end

def Request.toProto (r : Request) : Except Malformation Proto.Request := do
  let pipeline ← Pipeline.toProto r.pipeline
  let context ← Entries.toProto r.context
  .ok ⟨some pipeline, context⟩

def ContextRequest.toProto (r : ContextRequest) : Proto.ContextRequest :=
  ⟨some r.executionId, some r.key⟩

end Wire

/-! ## Receiving -/

namespace Proto

mutual

/-- The wire form of a value; a missing content is no slot. -/
def Value.toWire : Value → Wire.Value
  | ⟨none⟩ => ⟨[]⟩
  | ⟨some c⟩ => ⟨[c.toWire]⟩

def Content.toWire : Content → Wire.Payload
  | .string s => .string s
  | .hashesLog traces => .hashesLog (traces.getD [])
  | .namesLog traces => .namesLog (traces.getD [])
  | .uint32 n => .uint32 n
  | .bool b => .bool b
  | .enum enumType variant => .enum enumType variant
  | .strings items => .strings items
  | .pipeline parts => .pipeline (Part.listToWire parts)
  | .float x => .float x
  | .artifact a => .artifact a.kind a.toJson

/-- The wire form of a part; a missing shape is none. -/
def Part.toWire : Part → Wire.Part
  | ⟨none⟩ => ⟨[]⟩
  | ⟨some s⟩ => ⟨[s.toWire]⟩

def Shape.toWire : Shape → Wire.Shape
  | .operation op => .operation op.toWire
  | .parallel parts => .parallel (Part.listToWire parts)
  | .fetch key tag => .fetch (key.getD "") tag
  | .fetchAfter key before tag => .fetchAfter [key.getD ""] (Operation.optionToWire before) tag

/-- The wire form of the parts of a pipeline. -/
def Part.listToWire : List Part → List Wire.Part
  | [] => []
  | p :: rest => p.toWire :: Part.listToWire rest

def Operation.toWire : Operation → Wire.Operation
  | ⟨name, config⟩ => ⟨name, Operation.configToWire config⟩

/-- The wire form of an operation; a missing one has an empty name. -/
def Operation.optionToWire : Option Operation → Wire.Operation
  | none => ⟨"", []⟩
  | some op => op.toWire

/-- The wire form of a configuration; a missing one is empty. -/
def Operation.configToWire : Option (List Entry) → List (String × Wire.Value)
  | none => []
  | some entries => Entry.listToWire entries

/-- The wire form of entries. -/
def Entry.listToWire : List Entry → List (String × Wire.Value)
  | [] => []
  | e :: rest => e.toWire :: Entry.listToWire rest

def Entry.toWire : Entry → String × Wire.Value
  | ⟨key, value⟩ => (key.getD "", Entry.valueToWire value)

/-- The wire form of the value of an entry. -/
def Entry.valueToWire : Option Value → Wire.Value
  | none => ⟨[]⟩
  | some v => v.toWire

end

def PartResult.toWire (r : PartResult) : Wire.PartResult :=
  ⟨r.tag, Entry.listToWire r.values⟩

/-- The wire form of a verdict; a missing one sets neither field. -/
def Verdict.toWire : Option Verdict → Wire.FinalResult
  | none => ⟨none, none⟩
  | some (success executionId) => ⟨some executionId, none⟩
  | some (error text) => ⟨none, some text⟩

def Message.toWire : Message → Wire.Message
  | ⟨none⟩ => .empty
  | ⟨some (.final verdict)⟩ => ⟨some (Verdict.toWire verdict), none, none⟩
  | ⟨some (.result r)⟩ => .result r.toWire
  | ⟨some (.log text)⟩ => .log text

def ContextReply.toWire : ContextReply → Wire.ContextReply
  | ⟨none⟩ => ⟨none, none⟩
  | ⟨some (.value v)⟩ => ⟨some v.toWire, none⟩
  | ⟨some (.error text)⟩ => ⟨none, some text⟩

/-! ## Conversions that may fail -/

/-- Writes the message of an analysis result as a document. -/
def Artifact.serialize (a : Artifact) : Except Failure Json := .ok a.toJson

mutual

/-- Converts a value; a missing content is no slot. -/
def Value.receive : Value → Except Failure Wire.Value
  | ⟨none⟩ => .ok ⟨[]⟩
  | ⟨some c⟩ => do .ok ⟨[← c.receive]⟩

def Content.receive : Content → Except Failure Wire.Payload
  | .string s => .ok (.string s)
  | .hashesLog traces => .ok (.hashesLog (traces.getD []))
  | .namesLog traces => .ok (.namesLog (traces.getD []))
  | .uint32 n => .ok (.uint32 n)
  | .bool b => .ok (.bool b)
  | .enum enumType variant => .ok (.enum enumType variant)
  | .strings items => .ok (.strings items)
  | .pipeline parts => do .ok (.pipeline (← Part.receiveList parts))
  | .float x => .ok (.float x)
  | .artifact a => do .ok (.artifact a.kind (← a.serialize))

/-- Converts a part; a missing shape is none. -/
def Part.receive : Part → Except Failure Wire.Part
  | ⟨none⟩ => .ok ⟨[]⟩
  | ⟨some s⟩ => do .ok ⟨[← s.receive]⟩

def Shape.receive : Shape → Except Failure Wire.Shape
  | .operation op => do .ok (.operation (← op.receive))
  | .parallel parts => do .ok (.parallel (← Part.receiveList parts))
  | .fetch key tag => .ok (.fetch (key.getD "") tag)
  | .fetchAfter key before tag => do
    .ok (.fetchAfter [key.getD ""] (← Operation.receiveOption before) tag)

/-- Converts the parts of a pipeline. -/
def Part.receiveList : List Part → Except Failure (List Wire.Part)
  | [] => .ok []
  | p :: rest => do
    let p ← p.receive
    let rest ← Part.receiveList rest
    .ok (p :: rest)

def Operation.receive : Operation → Except Failure Wire.Operation
  | ⟨name, config⟩ => do .ok ⟨name, ← Operation.receiveConfig config⟩

/-- Converts an operation; a missing one has an empty name. -/
def Operation.receiveOption : Option Operation → Except Failure Wire.Operation
  | none => .ok ⟨"", []⟩
  | some op => op.receive

/-- Converts a configuration; a missing one is empty. -/
def Operation.receiveConfig : Option (List Entry) → Except Failure (List (String × Wire.Value))
  | none => .ok []
  | some entries => Entry.receiveList entries

/-- Converts entries. -/
def Entry.receiveList : List Entry → Except Failure (List (String × Wire.Value))
  | [] => .ok []
  | e :: rest => do
    let e ← e.receive
    let rest ← Entry.receiveList rest
    .ok (e :: rest)

def Entry.receive : Entry → Except Failure (String × Wire.Value)
  | ⟨key, value⟩ => do .ok (key.getD "", ← Entry.receiveValue value)

/-- Converts the value of an entry. -/
def Entry.receiveValue : Option Value → Except Failure Wire.Value
  | none => .ok ⟨[]⟩
  | some v => v.receive

end

def Message.receive : Message → Except Failure Wire.Message
  | ⟨none⟩ => .ok .empty
  | ⟨some (.final verdict)⟩ => .ok ⟨some (Verdict.toWire verdict), none, none⟩
  | ⟨some (.result r)⟩ => do .ok (.result ⟨r.tag, ← Entry.receiveList r.values⟩)
  | ⟨some (.log text)⟩ => .ok (.log text)

def ContextReply.receive : ContextReply → Except Failure Wire.ContextReply
  | ⟨none⟩ => .ok ⟨none, none⟩
  | ⟨some (.value v)⟩ => do .ok ⟨some (← v.receive), none⟩
  | ⟨some (.error text)⟩ => .ok ⟨none, some text⟩

end Proto

end MiningPipelines
