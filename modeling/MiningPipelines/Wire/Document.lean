import MiningPipelines.Json.Record
import MiningPipelines.Wire.Slots

/-!
# Wire messages as JSON

Each message has a document: fields in declared order, slots that are not set left out,
lists and configurations always written. Reading accepts more than writing produces:
fields in any order, fields with unknown names, null in a slot, absent lists.

Values, parts and operations are read field by field into the records of `Wire.Slots`. Their
readers call each other. Each call enters a record, and records nest no deeper than
`Document.maxDepth`, which is therefore enough fuel. Everything else takes them by their
populated slots.
-/

namespace MiningPipelines

namespace Wire

/-- The record with one field. -/
def oneField (name : String) (d : Document) : Document := .object [(name, d)]

def keyDocument (key : String) : Document := oneField "name" (.text key)

/-- The field of a tag, if there is one. -/
def tagField : Option Tag → List (String × Document)
  | none => []
  | some tag => [("frontendPartUuid", oneField "uuid" (.text tag))]

def textsDocument (items : List String) : Document := .array (items.map .text)

def namesLogDocument (traces : NamesLog) : Document :=
  oneField "traces" (.array (traces.map fun trace => oneField "events" (textsDocument trace)))

def hashesLogDocument (traces : HashesLog) : Document :=
  oneField "traces" (.array (traces.map fun trace =>
    oneField "events" (.array (trace.map fun n => .number (.natural n)))))

/-! ## Writing -/

mutual

/-- The document of a value. -/
def Value.toDocument : Value → Document
  | ⟨slots⟩ => .object (Value.slotFields slots)

def Value.slotFields : List Payload → List (String × Document)
  | [] => []
  | p :: rest => (p.slot, p.toDocument) :: Value.slotFields rest

def Payload.toDocument : Payload → Document
  | .string s => .text s
  | .uint32 n => .number (.natural n.toUInt64)
  | .bool b => .bool b
  | .float x => .single x
  | .enum enumType variant =>
    .object [("enumType", .text enumType), ("value", .text variant)]
  | .strings items => oneField "strings" (textsDocument items)
  | .namesLog traces => namesLogDocument traces
  | .hashesLog traces => hashesLogDocument traces
  | .pipeline parts => .object [("parts", .array (Pipeline.partDocuments parts))]
  | .artifact _ payload => payload.toDocument

/-- The document of a part. -/
def Part.toDocument : Part → Document
  | ⟨shapes⟩ => .object (Part.shapeFields shapes)

def Part.shapeFields : List Shape → List (String × Document)
  | [] => []
  | s :: rest => (s.slot, s.toDocument) :: Part.shapeFields rest

def Shape.toDocument : Shape → Document
  | .operation op => op.toDocument
  | .parallel parts => .object [("pipelineParts", .array (Pipeline.partDocuments parts))]
  | .fetch key tag => .object (("key", keyDocument key) :: tagField tag)
  | .fetchAfter keys before tag =>
    .object (("keys", .array (keys.map keyDocument)) ::
      ("beforePipelinePart", before.toDocument) :: tagField tag)

def Operation.toDocument : Operation → Document
  | ⟨name, config⟩ =>
    .object [("name", .text name),
      ("configuration",
        .object [("configurationParameters", .array (Entries.entryDocuments config))])]

/-- The documents of entries. -/
def Entries.entryDocuments : List (String × Value) → List Document
  | [] => []
  | (k, v) :: rest =>
    .object [("key", keyDocument k), ("value", v.toDocument)] :: Entries.entryDocuments rest

/-- The documents of parts. -/
def Pipeline.partDocuments : List Part → List Document
  | [] => []
  | p :: rest => p.toDocument :: Pipeline.partDocuments rest

end

/-- The document of a pipeline. -/
def Pipeline.toDocument (parts : Pipeline) : Document :=
  .object [("parts", .array (Pipeline.partDocuments parts))]

/-- The document of entries, as a list. -/
def Entries.toDocument (entries : Entries) : Document :=
  .array (Entries.entryDocuments entries)

/-- The document of a configuration. -/
def Entries.configDocument (entries : Entries) : Document :=
  oneField "configurationParameters" entries.toDocument

def Request.toDocument (r : Request) : Document :=
  .object [("pipeline", Pipeline.toDocument r.pipeline),
    ("initialContext", Entries.toDocument r.context)]

def PartResult.toDocument (r : PartResult) : Document :=
  .object (tagField r.tag ++ [("contextValues", Entries.toDocument r.values)])

/-- A field that is left out when there is nothing to write. -/
def optionalField {α : Type} (name : String) (write : α → Document) :
    Option α → List (String × Document)
  | none => []
  | some a => [(name, write a)]

def FinalResult.toDocument (r : FinalResult) : Document :=
  .object (optionalField "success" (fun g => oneField "guid" (.text g)) r.success ++
    optionalField "error" .text r.error)

def Message.toDocument (m : Message) : Document :=
  .object (optionalField "finalResult" FinalResult.toDocument m.finalResult ++
    optionalField "pipelinePartResult" PartResult.toDocument m.partResult ++
    optionalField "logMessage" (fun t => oneField "message" (.text t)) m.logMessage)

def ContextRequest.toDocument (r : ContextRequest) : Document :=
  .object [("executionId", oneField "guid" (.text r.executionId)),
    ("key", keyDocument r.key)]

def ContextReply.toDocument (r : ContextReply) : Document :=
  .object (optionalField "value" Value.toDocument r.value ++
    optionalField "error" .text r.error)

/-! ## Reading -/

/-- A record with one field that has to be there. -/
def readOneField {α : Type} (name : String) (read : Document → Option α) (d : Document) :
    Option α := do
  let r ← d.record? [name]
  r.required name read

/-- A record with one list, empty when it is absent. -/
def readOneList {α : Type} (name : String) (read : Document → Option α) (d : Document) :
    Option (List α) := do
  let r ← d.record? [name]
  r.orElse name [] (Document.list? read)

def readKey : Document → Option String := readOneField "name" Document.text?

def readTag : Document → Option Tag := readOneField "uuid" Document.text?

def readGuid : Document → Option String := readOneField "guid" Document.text?

def readEnum (d : Document) : Option (String × String) := do
  let r ← d.record? ["enumType", "value"]
  let enumType ← r.required "enumType" Document.text?
  let variant ← r.required "value" Document.text?
  some (enumType, variant)

def readNamesLog : Document → Option NamesLog :=
  readOneList "traces" (readOneList "events" Document.text?)

def readHashesLog : Document → Option HashesLog :=
  readOneList "traces" (readOneList "events" Document.uint64?)

namespace Slotted

/-- The slots of a value, given how to read a pipeline. -/
def readSlots (readPipeline : Document → Option Pipeline) (r : Record) : Option Value := do
  let string ← r.slot "string" Document.text?
  let uint32 ← r.slot "uint32" Document.uint32?
  let bool ← r.slot "bool" Document.bool?
  let float ← r.slot "float" Document.single?
  let enum ← r.slot "enum" readEnum
  let strings ← r.slot "strings" (readOneList "strings" Document.text?)
  let namesLog ← r.slot "namesLog" readNamesLog
  let hashesLog ← r.slot "hashesLog" readHashesLog
  let pipeline ← r.slot "pipeline" readPipeline
  let colorsLog ← r.slot "colorsLog" Document.toJson?
  let eventLogInfo ← r.slot "eventLogInfo" Document.toJson?
  let petriNet ← r.slot "petriNet" Document.toJson?
  let graph ← r.slot "graph" Document.toJson?
  let labeledDataset ← r.slot "labeledDataset" Document.toJson?
  let tracesActivities ← r.slot "tracesActivities" Document.toJson?
  let tracesSubArrays ← r.slot "tracesSubArrays" Document.toJson?
  let traceIndexSubArrays ← r.slot "traceIndexSubArrays" Document.toJson?
  some ⟨string, uint32, bool, float, enum, strings, namesLog, hashesLog, pipeline, colorsLog,
    eventLogInfo, petriNet, graph, labeledDataset, tracesActivities, tracesSubArrays,
    traceIndexSubArrays⟩

def readFetch (d : Document) : Option Fetch := do
  let r ← d.record? ["key", "frontendPartUuid"]
  let key ← r.required "key" readKey
  let tag ← r.slot "frontendPartUuid" readTag
  some ⟨key, tag⟩

/-- Reads an operation with a fetch behind it, given how to read an operation. -/
def readFetchAfter (readOperation : Document → Option Operation) (d : Document) :
    Option FetchAfter := do
  let r ← d.record? ["keys", "beforePipelinePart", "frontendPartUuid"]
  let keys ← r.required "keys" (Document.list? readKey)
  let before ← r.required "beforePipelinePart" readOperation
  let tag ← r.slot "frontendPartUuid" readTag
  some ⟨keys, before, tag⟩

mutual

/-- Reads a value. -/
def readValue : Nat → Document → Option Value
  | 0, _ => none
  | n + 1, d => do
    let r ← d.record? valueSlots
    readSlots (readPipeline n) r

/-- Reads a pipeline. -/
def readPipeline : Nat → Document → Option Pipeline
  | 0, _ => none
  | n + 1, d => readOneList "parts" (readPart n) d

/-- Reads a part. -/
def readPart : Nat → Document → Option Part
  | 0, _ => none
  | n + 1, d => do
    let r ← d.record? partSlots
    let operation ← r.slot "defaultPart" (readOperation n)
    let parallel ← r.slot "parallelPart" (readOneList "pipelineParts" (readPart n))
    let fetch ← r.slot "simpleContextRequestPart" readFetch
    let fetchAfter ← r.slot "complexContextRequestPart" (readFetchAfter (readOperation n))
    some ⟨operation, parallel, fetch, fetchAfter⟩

/-- Reads an operation. -/
def readOperation : Nat → Document → Option Operation
  | 0, _ => none
  | n + 1, d => do
    let r ← d.record? ["name", "configuration"]
    let name ← r.required "name" Document.text?
    let config ← r.orElse "configuration" []
      (readOneList "configurationParameters" (readEntry n))
    some ⟨name, config⟩

/-- Reads an entry. -/
def readEntry : Nat → Document → Option (String × Value)
  | 0, _ => none
  | n + 1, d => do
    let r ← d.record? ["key", "value"]
    let key ← r.required "key" readKey
    let value ← r.required "value" (readValue n)
    some (key, value)

end

end Slotted

/-! ### Populated slots -/

def readValue (n : Nat) (d : Document) : Option Value := (Slotted.readValue n d).map (·.listed)

def readPipeline (n : Nat) (d : Document) : Option Pipeline :=
  (Slotted.readPipeline n d).map Slotted.Pipeline.listed

def readPart (n : Nat) (d : Document) : Option Part := (Slotted.readPart n d).map (·.listed)

def readOperation (n : Nat) (d : Document) : Option Operation :=
  (Slotted.readOperation n d).map (·.listed)

def readEntry (n : Nat) (d : Document) : Option (String × Value) :=
  (Slotted.readEntry n d).map fun e => (e.1, e.2.listed)

/-- Enough fuel for every document. -/
def readFuel : Nat := Document.maxDepth + 1

def Slotted.Value.ofDocument? : Document → Option Slotted.Value := Slotted.readValue readFuel

def Slotted.Part.ofDocument? : Document → Option Slotted.Part := Slotted.readPart readFuel

def Slotted.Pipeline.ofDocument? : Document → Option Slotted.Pipeline :=
  Slotted.readPipeline readFuel

def Value.ofDocument? : Document → Option Value := readValue readFuel

def Part.ofDocument? : Document → Option Part := readPart readFuel

def Pipeline.ofDocument? : Document → Option Pipeline := readPipeline readFuel

/-- Reads one entry of a list of entries. -/
def Entries.entry? : Document → Option (String × Value) := readEntry readFuel

/-- Reads a configuration. -/
def Entries.ofConfigDocument? : Document → Option Entries :=
  readOneList "configurationParameters" (readEntry readFuel)

def Slotted.Entries.ofConfigDocument? : Document → Option Slotted.Entries :=
  readOneList "configurationParameters" (Slotted.readEntry readFuel)

def Request.ofDocument? (d : Document) : Option Request := do
  let r ← d.record? ["pipeline", "initialContext"]
  let pipeline ← r.required "pipeline" (readPipeline readFuel)
  let context ← r.orElse "initialContext" [] (Document.list? (readEntry readFuel))
  some ⟨pipeline, context⟩

def PartResult.ofDocument? (d : Document) : Option PartResult := do
  let r ← d.record? ["frontendPartUuid", "contextValues"]
  let tag ← r.slot "frontendPartUuid" readTag
  let values ← r.orElse "contextValues" [] (Document.list? (readEntry readFuel))
  some ⟨tag, values⟩

def FinalResult.ofDocument? (d : Document) : Option FinalResult := do
  let r ← d.record? ["success", "error"]
  let success ← r.slot "success" readGuid
  let error ← r.slot "error" Document.text?
  some ⟨success, error⟩

def Message.ofDocument? (d : Document) : Option Message := do
  let r ← d.record? ["finalResult", "pipelinePartResult", "logMessage"]
  let finalResult ← r.slot "finalResult" FinalResult.ofDocument?
  let partResult ← r.slot "pipelinePartResult" PartResult.ofDocument?
  let logMessage ← r.slot "logMessage" (readOneField "message" Document.text?)
  some ⟨finalResult, partResult, logMessage⟩

def ContextRequest.ofDocument? (d : Document) : Option ContextRequest := do
  let r ← d.record? ["executionId", "key"]
  let executionId ← r.required "executionId" readGuid
  let key ← r.required "key" readKey
  some ⟨executionId, key⟩

def ContextReply.ofDocument? (d : Document) : Option ContextReply := do
  let r ← d.record? ["value", "error"]
  let value ← r.slot "value" Value.ofDocument?
  let error ← r.slot "error" Document.text?
  some ⟨value, error⟩

end Wire

end MiningPipelines
