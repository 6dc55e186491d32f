import MiningPipelines.Wire.Decode

/-!
# Wire messages, slot by slot

As it is exchanged, a value is a record with a field for each of seventeen slots, and a part one
with a field for each of four shapes. A sound record sets exactly one field, but any number of
them may be set.

Decoding counts the fields that are set, and then takes the first one that it finds. The table
that is counted (`Value.table`, `Part.populated`) and the search behind it (`Value.decode`,
`Part.decode`) name the fields separately. `listed` is the form of a record in `Wire.Basic`: the
list of what is in its fields, in declared order.
-/

namespace MiningPipelines

namespace Wire

/-- The slots of a value, in declared order. -/
def valueSlots : List String :=
  ["string", "uint32", "bool", "float", "enum", "strings", "namesLog", "hashesLog",
    "pipeline"] ++ ArtifactKind.all.map ArtifactKind.slot

/-- The shapes of a part, in declared order. -/
def partSlots : List String :=
  ["defaultPart", "parallelPart", "simpleContextRequestPart", "complexContextRequestPart"]

namespace Slotted

/-- A fetch of the value under a key. -/
structure Fetch where
  key : String
  tag : Option Tag
deriving DecidableEq

mutual

/-- A value, with a field for each slot. -/
structure Value where
  string : Option String := none
  uint32 : Option UInt32 := none
  bool : Option Bool := none
  float : Option Single := none
  /-- The type of an enumeration, and the variant. -/
  enum : Option (String × String) := none
  strings : Option (List String) := none
  namesLog : Option NamesLog := none
  hashesLog : Option HashesLog := none
  pipeline : Option (List Part) := none
  colorsLog : Option Json := none
  eventLogInfo : Option Json := none
  petriNet : Option Json := none
  graph : Option Json := none
  labeledDataset : Option Json := none
  tracesActivities : Option Json := none
  tracesSubArrays : Option Json := none
  traceIndexSubArrays : Option Json := none

/-- A part, with a field for each shape. -/
structure Part where
  operation : Option Operation := none
  parallel : Option (List Part) := none
  fetch : Option Fetch := none
  fetchAfter : Option FetchAfter := none

/-- An operation and a fetch of what it leaves under the keys. -/
structure FetchAfter where
  keys : List String
  before : Operation
  tag : Option Tag

/-- A named operation with its entries. -/
structure Operation where
  name : String
  config : List (String × Value)

end

abbrev Entries := List (String × Value)

abbrev Pipeline := List Part

/-! ## Counting -/

/-- The slots of a value, and whether they are set. -/
def Value.table (w : Value) : List (String × Bool) :=
  [("string", w.string.isSome),
    ("uint32", w.uint32.isSome),
    ("bool", w.bool.isSome),
    ("float", w.float.isSome),
    ("enum", w.enum.isSome),
    ("strings", w.strings.isSome),
    ("namesLog", w.namesLog.isSome),
    ("hashesLog", w.hashesLog.isSome),
    ("pipeline", w.pipeline.isSome),
    ("colorsLog", w.colorsLog.isSome),
    ("eventLogInfo", w.eventLogInfo.isSome),
    ("petriNet", w.petriNet.isSome),
    ("graph", w.graph.isSome),
    ("labeledDataset", w.labeledDataset.isSome),
    ("tracesActivities", w.tracesActivities.isSome),
    ("tracesSubArrays", w.tracesSubArrays.isSome),
    ("traceIndexSubArrays", w.traceIndexSubArrays.isSome)]

/-- The names of the slots that are set. -/
def Value.populated (w : Value) : List String := (w.table.filter Prod.snd).map Prod.fst

/-- The names of the shapes that are set. -/
def Part.populated (w : Part) : List String :=
  let slots := []
  let slots := if w.operation.isSome then slots ++ ["defaultPart"] else slots
  let slots := if w.parallel.isSome then slots ++ ["parallelPart"] else slots
  let slots := if w.fetch.isSome then slots ++ ["simpleContextRequestPart"] else slots
  if w.fetchAfter.isSome then slots ++ ["complexContextRequestPart"] else slots

/-- Refuses any number of slots but one. -/
def checkSlots (slots : List String) : Except DecodeFault Unit :=
  match slots.length with
  | 0 => .error (.malformed .noPayload)
  | 1 => .ok ()
  | _ => .error (.malformed (.severalPayloads slots))

/-- Refuses any number of shapes but one. -/
def checkShapes (slots : List String) : Except DecodeFault Unit :=
  if slots.length ≠ 1 then .error (.malformed (.notOneShape slots)) else .ok ()

/-! ## Decoding -/

mutual

/-- The value in the first slot that is set, if no other is. -/
def Value.decode (w : Value) : Except DecodeFault MiningPipelines.Value := do
  checkSlots w.populated
  match w with
  | ⟨string, uint32, bool, float, enum, strings, namesLog, hashesLog, pipeline, colorsLog,
      eventLogInfo, petriNet, graph, labeledDataset, tracesActivities, tracesSubArrays,
      traceIndexSubArrays⟩ =>
    if let some s := string then .ok (.string s)
    else if let some n := uint32 then .ok (.uint32 n)
    else if let some b := bool then .ok (.bool b)
    else if let some x := float then .ok (.float x)
    else if let some (enumType, variant) := enum then .ok (.enum enumType variant)
    else if let some items := strings then .ok (.strings items)
    else if let some traces := namesLog then .ok (.namesLog traces)
    else if let some traces := hashesLog then .ok (.hashesLog traces)
    else if let some parts := pipeline then do .ok (.pipeline (← Pipeline.decode parts))
    else if let some payload := colorsLog then .ok (.artifact .colorsLog payload)
    else if let some payload := eventLogInfo then .ok (.artifact .eventLogInfo payload)
    else if let some payload := petriNet then .ok (.artifact .petriNet payload)
    else if let some payload := graph then .ok (.artifact .graph payload)
    else if let some payload := labeledDataset then .ok (.artifact .labeledDataset payload)
    else if let some payload := tracesActivities then .ok (.artifact .tracesActivities payload)
    else if let some payload := tracesSubArrays then .ok (.artifact .tracesSubArrays payload)
    else if let some payload := traceIndexSubArrays then
      .ok (.artifact .traceIndexSubArrays payload)
    else .error (.malformed .noPayload)

/-- The part in the first shape that is set, if no other is. -/
def Part.decode (w : Part) : Except DecodeFault MiningPipelines.Part := do
  checkShapes w.populated
  match w with
  | ⟨operation, parallel, fetch, fetchAfter⟩ =>
    if let some op := operation then do .ok (.operation (← op.decode))
    else if let some parts := parallel then do .ok (.parallel (← Pipeline.decode parts))
    else if let some ⟨key, tag⟩ := fetch then .ok (.fetch key tag none)
    else
      match fetchAfter with
      | some ⟨keys, before, tag⟩ => do .ok (.fetchAfter keys (← before.decode) tag none)
      | none => .error (.malformed .noShape)

/-- The operation; its entries are checked before its name. -/
def Operation.decode : Operation → Except DecodeFault MiningPipelines.Operation
  | ⟨name, config⟩ => do
    let config ← Entries.decodeOnto [] config
    DecodeFault.ofRefusal (MiningPipelines.Operation.make name config)

/-- Decodes entries one by one and appends them to a configuration. -/
def Entries.decodeOnto (config : Config) : List (String × Value) → Except DecodeFault Config
  | [] => .ok config
  | (k, v) :: rest => do
    let v ← v.decode
    let config ← DecodeFault.ofRefusal (config.append k v)
    Entries.decodeOnto config rest

/-- The pipeline of the parts. -/
def Pipeline.decode : List Part → Except DecodeFault (List MiningPipelines.Part)
  | [] => .ok []
  | p :: rest => do
    let p ← p.decode
    let rest ← Pipeline.decode rest
    .ok (p :: rest)

end

/-- The configuration of the entries. -/
def Entries.decode (entries : Entries) : Except DecodeFault Config :=
  Entries.decodeOnto [] entries

/-! ## Encoding -/

/-- The record with the slot for a kind of analysis results. -/
def Value.ofArtifact (payload : Json) : ArtifactKind → Value
  | .colorsLog => { colorsLog := some payload }
  | .eventLogInfo => { eventLogInfo := some payload }
  | .petriNet => { petriNet := some payload }
  | .graph => { graph := some payload }
  | .labeledDataset => { labeledDataset := some payload }
  | .tracesActivities => { tracesActivities := some payload }
  | .tracesSubArrays => { tracesSubArrays := some payload }
  | .traceIndexSubArrays => { traceIndexSubArrays := some payload }

mutual

/-- The record of a value sets its slot and no other. -/
def Value.ofValue : MiningPipelines.Value → Value
  | .string s => { string := some s }
  | .uint32 n => { uint32 := some n }
  | .bool b => { bool := some b }
  | .float x => { float := some x }
  | .enum enumType variant => { enum := some (enumType, variant) }
  | .strings items => { strings := some items }
  | .namesLog traces => { namesLog := some traces }
  | .hashesLog traces => { hashesLog := some traces }
  | .pipeline parts => { pipeline := some (Pipeline.ofPipeline parts) }
  | .artifact kind payload => Value.ofArtifact payload kind

/-- The record of a part sets its shape and no other. -/
def Part.ofPart : MiningPipelines.Part → Part
  | .operation op => { operation := some (Operation.ofOperation op) }
  | .parallel parts => { parallel := some (Pipeline.ofPipeline parts) }
  | .fetch key tag _ => { fetch := some ⟨key, tag⟩ }
  | .fetchAfter keys before tag _ =>
    { fetchAfter := some ⟨keys, Operation.ofOperation before, tag⟩ }

def Operation.ofOperation : MiningPipelines.Operation → Operation
  | ⟨name, config⟩ => ⟨name, Entries.ofConfig config⟩

def Entries.ofConfig : List (String × MiningPipelines.Value) → List (String × Value)
  | [] => []
  | (k, v) :: rest => (k, Value.ofValue v) :: Entries.ofConfig rest

def Pipeline.ofPipeline : List MiningPipelines.Part → List Part
  | [] => []
  | p :: rest => Part.ofPart p :: Pipeline.ofPipeline rest

end

/-! ## Populated slots -/

mutual

/-- What is in the slots of a value, in declared order. -/
def Value.payloads : Value → List (Option Wire.Payload)
  | ⟨string, uint32, bool, float, enum, strings, namesLog, hashesLog, pipeline, colorsLog,
      eventLogInfo, petriNet, graph, labeledDataset, tracesActivities, tracesSubArrays,
      traceIndexSubArrays⟩ =>
    [string.map .string, uint32.map .uint32, bool.map .bool, float.map .float,
      enum.map fun e => .enum e.1 e.2, strings.map .strings, namesLog.map .namesLog,
      hashesLog.map .hashesLog, Pipeline.payload? pipeline,
      colorsLog.map (.artifact .colorsLog), eventLogInfo.map (.artifact .eventLogInfo),
      petriNet.map (.artifact .petriNet), graph.map (.artifact .graph),
      labeledDataset.map (.artifact .labeledDataset),
      tracesActivities.map (.artifact .tracesActivities),
      tracesSubArrays.map (.artifact .tracesSubArrays),
      traceIndexSubArrays.map (.artifact .traceIndexSubArrays)]

/-- What is in the shapes of a part, in declared order. -/
def Part.shapes : Part → List (Option Wire.Shape)
  | ⟨operation, parallel, fetch, fetchAfter⟩ =>
    [Operation.shape? operation, Pipeline.shape? parallel,
      fetch.map fun f => .fetch f.key f.tag, FetchAfter.shape? fetchAfter]

def Operation.listed : Operation → Wire.Operation
  | ⟨name, config⟩ => ⟨name, Entries.listed config⟩

def Entries.listed : List (String × Value) → List (String × Wire.Value)
  | [] => []
  | (k, v) :: rest => (k, ⟨v.payloads.filterMap id⟩) :: Entries.listed rest

def Pipeline.listed : List Part → List Wire.Part
  | [] => []
  | p :: rest => ⟨p.shapes.filterMap id⟩ :: Pipeline.listed rest

def Pipeline.payload? : Option (List Part) → Option Wire.Payload
  | none => none
  | some parts => some (.pipeline (Pipeline.listed parts))

def Operation.shape? : Option Operation → Option Wire.Shape
  | none => none
  | some op => some (.operation op.listed)

def Pipeline.shape? : Option (List Part) → Option Wire.Shape
  | none => none
  | some parts => some (.parallel (Pipeline.listed parts))

def FetchAfter.shape? : Option FetchAfter → Option Wire.Shape
  | none => none
  | some ⟨keys, before, tag⟩ => some (.fetchAfter keys before.listed tag)

end

/-- The value, by its populated slots. -/
def Value.listed (w : Value) : Wire.Value := ⟨w.payloads.filterMap id⟩

/-- The part, by its populated shapes. -/
def Part.listed (w : Part) : Wire.Part := ⟨w.shapes.filterMap id⟩

end Slotted

end Wire

end MiningPipelines
