/-!
# Kinds of values

Every value that a pipeline carries has one kind. Nine kinds are fully typed; the others
are results of an analysis (`ArtifactKind`) that the client hands on unread.
-/

namespace MiningPipelines

/-- The kinds of analysis results. -/
inductive ArtifactKind where
  | colorsLog
  | eventLogInfo
  | petriNet
  | graph
  | labeledDataset
  | tracesActivities
  | tracesSubArrays
  | traceIndexSubArrays
deriving DecidableEq, Repr

namespace ArtifactKind

def all : List ArtifactKind :=
  [colorsLog, eventLogInfo, petriNet, graph, labeledDataset, tracesActivities,
    tracesSubArrays, traceIndexSubArrays]

/-- The name of a kind in texts. -/
def name : ArtifactKind → String
  | colorsLog => "colors_log"
  | eventLogInfo => "event_log_info"
  | petriNet => "petri_net"
  | graph => "graph"
  | labeledDataset => "labeled_dataset"
  | tracesActivities => "traces_activities"
  | tracesSubArrays => "traces_sub_arrays"
  | traceIndexSubArrays => "trace_index_sub_arrays"

/-- The slot of a message that holds a result of this kind. -/
def slot : ArtifactKind → String
  | colorsLog => "colorsLog"
  | eventLogInfo => "eventLogInfo"
  | petriNet => "petriNet"
  | graph => "graph"
  | labeledDataset => "labeledDataset"
  | tracesActivities => "tracesActivities"
  | tracesSubArrays => "tracesSubArrays"
  | traceIndexSubArrays => "traceIndexSubArrays"

/-- The kind with a name. -/
def ofName? (s : String) : Option ArtifactKind := all.find? fun kind => kind.name == s

end ArtifactKind

/-- The kinds of values. -/
inductive ValueKind where
  | string
  | uint32
  | bool
  | float
  | enum
  | strings
  | namesLog
  | hashesLog
  | pipeline
  | artifact (kind : ArtifactKind)
deriving DecidableEq, Repr

namespace ValueKind

/-- The name of a kind in texts. -/
def name : ValueKind → String
  | string => "string"
  | uint32 => "uint32"
  | bool => "bool"
  | float => "float"
  | enum => "enum"
  | strings => "strings"
  | namesLog => "names_log"
  | hashesLog => "hashes_log"
  | pipeline => "pipeline"
  | artifact kind => kind.name

/-- The kinds without parameters. -/
def plain : List ValueKind :=
  [string, uint32, bool, float, enum, strings, namesLog, hashesLog, pipeline]

def all : List ValueKind := plain ++ ArtifactKind.all.map artifact

/-- The kind with a name. -/
def ofName? (s : String) : Option ValueKind := all.find? fun kind => kind.name == s

end ValueKind

end MiningPipelines
