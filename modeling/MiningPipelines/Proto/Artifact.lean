import MiningPipelines.Json.Record
import MiningPipelines.Kind
import MiningPipelines.Proto.Reader

/-!
# Messages of analysis results

Five kinds of analysis results have messages of their own. Each also has a JSON form, in
which the client keeps results: `ofDocument?` reads a payload, filling in what is absent,
and `toJson` writes one with every field.
-/

namespace MiningPipelines

namespace Proto

/-- A stretch of a trace. -/
structure SubArray where
  start : UInt32
  stop : UInt32
deriving DecidableEq

/-- A stretch with the trace that it belongs to. -/
structure IndexedSubArray where
  subArray : Option SubArray
  traceIndex : UInt32
deriving DecidableEq

structure Color where
  red : UInt32
  green : UInt32
  blue : UInt32
deriving DecidableEq

structure Rectangle where
  color : Option Color
  startIndex : UInt32
  length : UInt32
  name : String
deriving DecidableEq

structure EventLogInfo where
  events : UInt32
  traces : UInt32
  eventClasses : UInt32
deriving DecidableEq

structure GraphNode where
  id : UInt64
  data : String
deriving DecidableEq

structure GraphEdge where
  source : UInt64
  target : UInt64
  data : String
deriving DecidableEq

structure Graph where
  nodes : List GraphNode
  edges : List GraphEdge
deriving DecidableEq

/-- An analysis result. -/
inductive Artifact where
  | colorsLog (traces : List (List Rectangle))
  | eventLogInfo (info : EventLogInfo)
  | graph (g : Graph)
  | tracesSubArrays (traces : List (List SubArray))
  | traceIndexSubArrays (arrays : List IndexedSubArray)
deriving DecidableEq

namespace SubArray

def empty : SubArray := ⟨0, 0⟩

def print (a : SubArray) : Bytes :=
  Field.natural 1 a.start.toNat ++ Field.natural 2 a.stop.toNat

def read : Nat → SubArray → Bytes → Option SubArray :=
  readLevels fun _ =>
    [(1, fun a p => p.uint32?.map fun n => { a with start := n }),
      (2, fun a p => p.uint32?.map fun n => { a with stop := n })]

def toJson (a : SubArray) : Json :=
  .ofFields [("start", .ofNat a.start.toNat), ("end", .ofNat a.stop.toNat)]

def ofDocument? (d : Document) : Option SubArray := do
  let r ← d.record? ["start", "end"]
  let start ← r.orElse "start" 0 Document.uint32?
  let stop ← r.orElse "end" 0 Document.uint32?
  some ⟨start, stop⟩

/-! The stretches of one trace, and of all traces. -/

def printList (arrays : List SubArray) : Bytes := Field.messages 1 print arrays

def readList : Nat → List SubArray → Bytes → Option (List SubArray) :=
  readLevels fun n => [(1, Payload.append? (read n) empty)]

def printLists (traces : List (List SubArray)) : Bytes := Field.messages 1 printList traces

def readLists : Nat → List (List SubArray) → Bytes → Option (List (List SubArray)) :=
  readLevels fun n => [(1, Payload.append? (readList n) [])]

def listToJson (arrays : List SubArray) : Json :=
  .ofFields [("subArrays", .array (arrays.map toJson))]

def listOfDocument? (d : Document) : Option (List SubArray) := do
  let r ← d.record? ["subArrays"]
  r.orElse "subArrays" [] (Document.list? ofDocument?)

def listsToJson (traces : List (List SubArray)) : Json :=
  .ofFields [("tracesSubArrays", .array (traces.map listToJson))]

def listsOfDocument? (d : Document) : Option (List (List SubArray)) := do
  let r ← d.record? ["tracesSubArrays"]
  r.orElse "tracesSubArrays" [] (Document.list? listOfDocument?)

end SubArray

namespace IndexedSubArray

def empty : IndexedSubArray := ⟨none, 0⟩

def print (a : IndexedSubArray) : Bytes :=
  Field.optional 1 SubArray.print a.subArray ++ Field.natural 2 a.traceIndex.toNat

def read : Nat → IndexedSubArray → Bytes → Option IndexedSubArray :=
  readLevels fun n =>
    [(1, fun a p => (p.message? (SubArray.read n) (a.subArray.getD .empty)).map
        fun s => { a with subArray := some s }),
      (2, fun a p => p.uint32?.map fun i => { a with traceIndex := i })]

def toJson (a : IndexedSubArray) : Json :=
  .ofFields [("subArray", (a.subArray.map SubArray.toJson).getD .null),
    ("traceIndex", .ofNat a.traceIndex.toNat)]

def ofDocument? (d : Document) : Option IndexedSubArray := do
  let r ← d.record? ["subArray", "traceIndex"]
  let subArray ← r.slot "subArray" SubArray.ofDocument?
  let traceIndex ← r.orElse "traceIndex" 0 Document.uint32?
  some ⟨subArray, traceIndex⟩

def printList (arrays : List IndexedSubArray) : Bytes := Field.messages 1 print arrays

def readList : Nat → List IndexedSubArray → Bytes → Option (List IndexedSubArray) :=
  readLevels fun n => [(1, Payload.append? (read n) empty)]

def listToJson (arrays : List IndexedSubArray) : Json :=
  .ofFields [("subArrays", .array (arrays.map toJson))]

def listOfDocument? (d : Document) : Option (List IndexedSubArray) := do
  let r ← d.record? ["subArrays"]
  r.orElse "subArrays" [] (Document.list? ofDocument?)

end IndexedSubArray

namespace Color

def empty : Color := ⟨0, 0, 0⟩

def print (c : Color) : Bytes :=
  Field.natural 1 c.red.toNat ++ Field.natural 2 c.green.toNat ++ Field.natural 3 c.blue.toNat

def read : Nat → Color → Bytes → Option Color :=
  readLevels fun _ =>
    [(1, fun c p => p.uint32?.map fun n => { c with red := n }),
      (2, fun c p => p.uint32?.map fun n => { c with green := n }),
      (3, fun c p => p.uint32?.map fun n => { c with blue := n })]

def toJson (c : Color) : Json :=
  .ofFields [("red", .ofNat c.red.toNat), ("green", .ofNat c.green.toNat),
    ("blue", .ofNat c.blue.toNat)]

def ofDocument? (d : Document) : Option Color := do
  let r ← d.record? ["red", "green", "blue"]
  let red ← r.orElse "red" 0 Document.uint32?
  let green ← r.orElse "green" 0 Document.uint32?
  let blue ← r.orElse "blue" 0 Document.uint32?
  some ⟨red, green, blue⟩

end Color

namespace Rectangle

def empty : Rectangle := ⟨none, 0, 0, ""⟩

def print (r : Rectangle) : Bytes :=
  Field.optional 1 Color.print r.color ++ Field.natural 2 r.startIndex.toNat ++
    Field.natural 3 r.length.toNat ++ Field.text 4 r.name

def read : Nat → Rectangle → Bytes → Option Rectangle :=
  readLevels fun n =>
    [(1, fun r p => (p.message? (Color.read n) (r.color.getD .empty)).map
        fun c => { r with color := some c }),
      (2, fun r p => p.uint32?.map fun i => { r with startIndex := i }),
      (3, fun r p => p.uint32?.map fun i => { r with length := i }),
      (4, fun r p => p.text?.map fun s => { r with name := s })]

def toJson (r : Rectangle) : Json :=
  .ofFields [("color", (r.color.map Color.toJson).getD .null),
    ("startIndex", .ofNat r.startIndex.toNat), ("length", .ofNat r.length.toNat),
    ("name", .text r.name)]

def ofDocument? (d : Document) : Option Rectangle := do
  let r ← d.record? ["color", "startIndex", "length", "name"]
  let color ← r.slot "color" Color.ofDocument?
  let startIndex ← r.orElse "startIndex" 0 Document.uint32?
  let length ← r.orElse "length" 0 Document.uint32?
  let name ← r.orElse "name" "" Document.text?
  some ⟨color, startIndex, length, name⟩

/-! The rectangles of one trace, and of all traces. -/

def printList (rectangles : List Rectangle) : Bytes := Field.messages 2 print rectangles

def readList : Nat → List Rectangle → Bytes → Option (List Rectangle) :=
  readLevels fun n => [(2, Payload.append? (read n) empty)]

def printLists (traces : List (List Rectangle)) : Bytes := Field.messages 1 printList traces

def readLists : Nat → List (List Rectangle) → Bytes → Option (List (List Rectangle)) :=
  readLevels fun n => [(1, Payload.append? (readList n) [])]

def listToJson (rectangles : List Rectangle) : Json :=
  .ofFields [("eventColors", .array (rectangles.map toJson))]

def listOfDocument? (d : Document) : Option (List Rectangle) := do
  let r ← d.record? ["eventColors"]
  r.orElse "eventColors" [] (Document.list? ofDocument?)

def listsToJson (traces : List (List Rectangle)) : Json :=
  .ofFields [("traces", .array (traces.map listToJson))]

def listsOfDocument? (d : Document) : Option (List (List Rectangle)) := do
  let r ← d.record? ["traces"]
  r.orElse "traces" [] (Document.list? listOfDocument?)

end Rectangle

namespace EventLogInfo

def empty : EventLogInfo := ⟨0, 0, 0⟩

def print (info : EventLogInfo) : Bytes :=
  Field.natural 1 info.events.toNat ++ Field.natural 2 info.traces.toNat ++
    Field.natural 3 info.eventClasses.toNat

def read : Nat → EventLogInfo → Bytes → Option EventLogInfo :=
  readLevels fun _ =>
    [(1, fun info p => p.uint32?.map fun n => { info with events := n }),
      (2, fun info p => p.uint32?.map fun n => { info with traces := n }),
      (3, fun info p => p.uint32?.map fun n => { info with eventClasses := n })]

def toJson (info : EventLogInfo) : Json :=
  .ofFields [("eventsCount", .ofNat info.events.toNat),
    ("tracesCount", .ofNat info.traces.toNat),
    ("eventClassesCount", .ofNat info.eventClasses.toNat)]

def ofDocument? (d : Document) : Option EventLogInfo := do
  let r ← d.record? ["eventsCount", "tracesCount", "eventClassesCount"]
  let events ← r.orElse "eventsCount" 0 Document.uint32?
  let traces ← r.orElse "tracesCount" 0 Document.uint32?
  let eventClasses ← r.orElse "eventClassesCount" 0 Document.uint32?
  some ⟨events, traces, eventClasses⟩

end EventLogInfo

namespace GraphNode

def empty : GraphNode := ⟨0, ""⟩

def print (v : GraphNode) : Bytes := Field.natural 1 v.id.toNat ++ Field.text 2 v.data

def read : Nat → GraphNode → Bytes → Option GraphNode :=
  readLevels fun _ =>
    [(1, fun v p => p.uint64?.map fun n => { v with id := n }),
      (2, fun v p => p.text?.map fun s => { v with data := s })]

def toJson (v : GraphNode) : Json :=
  .ofFields [("id", .ofNat v.id.toNat), ("data", .text v.data)]

def ofDocument? (d : Document) : Option GraphNode := do
  let r ← d.record? ["id", "data"]
  let id ← r.orElse "id" 0 Document.uint64?
  let data ← r.orElse "data" "" Document.text?
  some ⟨id, data⟩

end GraphNode

namespace GraphEdge

def empty : GraphEdge := ⟨0, 0, ""⟩

def print (e : GraphEdge) : Bytes :=
  Field.natural 1 e.source.toNat ++ Field.natural 2 e.target.toNat ++ Field.text 3 e.data

def read : Nat → GraphEdge → Bytes → Option GraphEdge :=
  readLevels fun _ =>
    [(1, fun e p => p.uint64?.map fun n => { e with source := n }),
      (2, fun e p => p.uint64?.map fun n => { e with target := n }),
      (3, fun e p => p.text?.map fun s => { e with data := s })]

def toJson (e : GraphEdge) : Json :=
  .ofFields [("fromNode", .ofNat e.source.toNat), ("toNode", .ofNat e.target.toNat),
    ("data", .text e.data)]

def ofDocument? (d : Document) : Option GraphEdge := do
  let r ← d.record? ["fromNode", "toNode", "data"]
  let source ← r.orElse "fromNode" 0 Document.uint64?
  let target ← r.orElse "toNode" 0 Document.uint64?
  let data ← r.orElse "data" "" Document.text?
  some ⟨source, target, data⟩

end GraphEdge

namespace Graph

def empty : Graph := ⟨[], []⟩

def print (g : Graph) : Bytes :=
  Field.messages 1 GraphNode.print g.nodes ++ Field.messages 2 GraphEdge.print g.edges

def read : Nat → Graph → Bytes → Option Graph :=
  readLevels fun n =>
    [(1, fun g p => (p.append? (GraphNode.read n) .empty g.nodes).map
        fun nodes => { g with nodes := nodes }),
      (2, fun g p => (p.append? (GraphEdge.read n) .empty g.edges).map
        fun edges => { g with edges := edges })]

def toJson (g : Graph) : Json :=
  .ofFields [("nodes", .array (g.nodes.map GraphNode.toJson)),
    ("edges", .array (g.edges.map GraphEdge.toJson))]

def ofDocument? (d : Document) : Option Graph := do
  let r ← d.record? ["nodes", "edges"]
  let nodes ← r.orElse "nodes" [] (Document.list? GraphNode.ofDocument?)
  let edges ← r.orElse "edges" [] (Document.list? GraphEdge.ofDocument?)
  some ⟨nodes, edges⟩

end Graph

namespace Artifact

def kind : Artifact → ArtifactKind
  | colorsLog _ => .colorsLog
  | eventLogInfo _ => .eventLogInfo
  | graph _ => .graph
  | tracesSubArrays _ => .tracesSubArrays
  | traceIndexSubArrays _ => .traceIndexSubArrays

/-- The bytes of the message. -/
def print : Artifact → Bytes
  | colorsLog traces => Rectangle.printLists traces
  | eventLogInfo info => info.print
  | graph g => g.print
  | tracesSubArrays traces => SubArray.printLists traces
  | traceIndexSubArrays arrays => IndexedSubArray.printList arrays

/-- The payload that the client keeps. -/
def toJson : Artifact → Json
  | colorsLog traces => Rectangle.listsToJson traces
  | eventLogInfo info => info.toJson
  | graph g => g.toJson
  | tracesSubArrays traces => SubArray.listsToJson traces
  | traceIndexSubArrays arrays => IndexedSubArray.listToJson arrays

/-- Reads a payload of a kind that has a message. -/
def ofDocument? (d : Document) : ArtifactKind → Option Artifact
  | .colorsLog => (Rectangle.listsOfDocument? d).map colorsLog
  | .eventLogInfo => (EventLogInfo.ofDocument? d).map eventLogInfo
  | .graph => (Graph.ofDocument? d).map graph
  | .tracesSubArrays => (SubArray.listsOfDocument? d).map tracesSubArrays
  | .traceIndexSubArrays => (IndexedSubArray.listOfDocument? d).map traceIndexSubArrays
  | _ => none

/-- The kinds that have a message. -/
def hasMessage : ArtifactKind → Bool
  | .colorsLog | .eventLogInfo | .graph | .tracesSubArrays | .traceIndexSubArrays => true
  | _ => false

end Artifact

end Proto

end MiningPipelines
