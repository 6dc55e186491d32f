import MiningPipelines.Values

/-!
# Graphs of events

Nodes and edges with optional texts, as the discovery operations leave them.
-/

namespace MiningPipelines

structure GraphNode where
  id : UInt64
  data : Option String
deriving DecidableEq

structure GraphEdge where
  source : UInt64
  target : UInt64
  data : Option String
deriving DecidableEq

structure Graph where
  nodes : List GraphNode
  edges : List GraphEdge
deriving DecidableEq

/-- A text or null. -/
def Json.ofText? : Option String → Json
  | some s => .text s
  | none => .null

namespace GraphNode

def ofDocument? (d : Document) : Option GraphNode := do
  let r ← d.record? ["id", "data"]
  let id ← r.required "id" Document.uint64?
  let data ← r.slot "data" Document.text?
  some ⟨id, data⟩

def toJson (n : GraphNode) : Json :=
  .ofFields [("id", .number (.natural n.id)), ("data", .ofText? n.data)]

end GraphNode

namespace GraphEdge

def ofDocument? (d : Document) : Option GraphEdge := do
  let r ← d.record? ["fromNode", "toNode", "data"]
  let source ← r.required "fromNode" Document.uint64?
  let target ← r.required "toNode" Document.uint64?
  let data ← r.slot "data" Document.text?
  some ⟨source, target, data⟩

def toJson (e : GraphEdge) : Json :=
  .ofFields [("fromNode", .number (.natural e.source)),
    ("toNode", .number (.natural e.target)), ("data", .ofText? e.data)]

end GraphEdge

namespace Graph

/-- Reads a graph; either list may be absent. -/
def ofDocument? (d : Document) : Option Graph := do
  let r ← d.record? ["nodes", "edges"]
  let nodes ← r.orElse "nodes" [] (Document.list? GraphNode.ofDocument?)
  let edges ← r.orElse "edges" [] (Document.list? GraphEdge.ofDocument?)
  some ⟨nodes, edges⟩

def toJson (g : Graph) : Json :=
  .ofFields [("nodes", .array (g.nodes.map GraphNode.toJson)),
    ("edges", .array (g.edges.map GraphEdge.toJson))]

/-- The graph among the values of a result. -/
def ofValues (values : Values) : Except Failure Graph :=
  Values.readArtifact values .graph .graph ofDocument?

end Graph

end MiningPipelines
