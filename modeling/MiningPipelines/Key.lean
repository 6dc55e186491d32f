import MiningPipelines.InPlace
import MiningPipelines.Value.Access

/-!
# Context keys

A key is a name with the kind of value that the engine expects under it. A `KeyTable`
holds keys by name; a name keeps the kind it was first registered with. A table that the
caller holds is changed in place (`KeyTable.registerInPlace`).
-/

namespace MiningPipelines

/-- A name with the kind of its values. -/
structure Key where
  name : String
  kind : ValueKind
deriving DecidableEq

/-- Refuses a value of another kind. -/
def Key.check (key : Key) (v : Value) : Except Refusal Unit :=
  if v.kind = key.kind then .ok () else .error (.wrongKind key.name key.kind v.kind)

/-- Keys by name, each name once. -/
structure KeyTable where
  keys : List Key
deriving DecidableEq

namespace KeyTable

def empty : KeyTable := ⟨[]⟩

def size (t : KeyTable) : Nat := t.keys.length

def find? (t : KeyTable) (name : String) : Option Key :=
  t.keys.find? fun key => key.name == name

def contains (t : KeyTable) (name : String) : Bool := (t.find? name).isSome

/-- Adds a key. A name that is there with another kind is a conflict. -/
def register (t : KeyTable) (key : Key) : Except Refusal KeyTable :=
  match t.find? key.name with
  | some known =>
    if known.kind = key.kind then .ok t else .error (.keyConflict key.name known.kind)
  | none => .ok ⟨t.keys ++ [key]⟩

/-- Writes a key over the one of its name, or else behind all the others. -/
def putKey (key : Key) : List Key → List Key
  | [] => [key]
  | k :: rest => if k.name = key.name then key :: rest else k :: putKey key rest

/-- Adds a key in place. -/
def registerInPlace (key : Key) : InPlace Refusal KeyTable Unit := do
  match (← get).find? key.name with
  | some known =>
    if known.kind = key.kind then modify fun t => ⟨putKey key t.keys⟩
    else throw (.keyConflict key.name known.kind)
  | none => modify fun t => ⟨putKey key t.keys⟩

/-- Refuses an unknown name and a value of another kind. -/
def check (t : KeyTable) (name : String) (v : Value) : Except Refusal Unit :=
  match t.find? name with
  | some key => key.check v
  | none => .error (.unknownKey name)

end KeyTable

namespace Key

def path : Key := ⟨"path", .string⟩
def namesEventLog : Key := ⟨"names_event_log", .namesLog⟩
def hashesEventLog : Key := ⟨"hashes_event_log", .hashesLog⟩
def pipeline : Key := ⟨"pipeline", .pipeline⟩

def tandemArrayLength : Key := ⟨"tandem_array_length", .uint32⟩
def activityLevel : Key := ⟨"activity_level", .uint32⟩
def narrowActivities : Key := ⟨"narrow_activities", .enum⟩
def patternsDiscoveryStrategy : Key := ⟨"patterns_discovery_strategy", .enum⟩
def patternsKind : Key := ⟨"patterns_kind", .enum⟩
def adjustingMode : Key := ⟨"adjusting_mode", .enum⟩
def undefActivityHandlingStrategy : Key := ⟨"undef_activity_handling_strategy", .enum⟩
def eventsCount : Key := ⟨"events_count", .uint32⟩
def eventClassesRegexes : Key := ⟨"event_classes_regexes", .strings⟩
def eventClassRegex : Key := ⟨"event_class_regex", .string⟩
def eventName : Key := ⟨"event_name", .string⟩
def regex : Key := ⟨"regex", .string⟩
def minEventsInActivity : Key := ⟨"min_events_in_activity", .uint32⟩
def underlyingEventsCount : Key := ⟨"underlying_events_count", .uint32⟩
def pnmlUseNamesAsIds : Key := ⟨"pnml_use_names_as_ids", .bool⟩

def dependencyThreshold : Key := ⟨"dependency_threshold", .float⟩
def positiveObservationsThreshold : Key := ⟨"positive_observations_threshold", .uint32⟩
def relativeToBestThreshold : Key := ⟨"relative_to_best_threshold", .float⟩
def andThreshold : Key := ⟨"and_threshold", .float⟩
def loopLengthTwoThreshold : Key := ⟨"loop_length_two_threshold", .float⟩

def unaryFrequencyThreshold : Key := ⟨"unary_frequency_threshold", .float⟩
def binarySignificanceThreshold : Key := ⟨"binary_significance_threshold", .float⟩
def preserveThreshold : Key := ⟨"preserve_threshold", .float⟩
def ratioThreshold : Key := ⟨"ratio_threshold", .float⟩
def utilityRate : Key := ⟨"utility_rate", .float⟩
def edgeCutoffThreshold : Key := ⟨"edge_cutoff_threshold", .float⟩

def activitiesReprSource : Key := ⟨"activities_repr_source", .enum⟩
def distance : Key := ⟨"distance", .enum⟩
def tolerance : Key := ⟨"tolerance", .float⟩
def minEventsInClustersCount : Key := ⟨"min_events_in_clusters_count", .uint32⟩
def afterClusterizationPipeline : Key := ⟨"after_clusterization_pipeline", .pipeline⟩

def colorsEventLog : Key := ⟨"colors_event_log", .artifact .colorsLog⟩
def eventLogInfo : Key := ⟨"event_log_info", .artifact .eventLogInfo⟩
def petriNet : Key := ⟨"petri_net", .artifact .petriNet⟩
def graph : Key := ⟨"graph", .artifact .graph⟩
def traceActivities : Key := ⟨"trace_activities", .artifact .tracesActivities⟩
def repeatSets : Key := ⟨"repeat_sets", .artifact .tracesSubArrays⟩
def patterns : Key := ⟨"patterns", .artifact .traceIndexSubArrays⟩
def labeledTracesActivitiesDataset : Key :=
  ⟨"labeled_traces_activities_dataset", .artifact .labeledDataset⟩
def labeledLogTracesDataset : Key :=
  ⟨"labeled_log_traces_dataset", .artifact .labeledDataset⟩

end Key

/-- The keys that every engine knows. -/
def KeyTable.builtin : KeyTable where
  keys :=
    [.path, .namesEventLog, .hashesEventLog, .pipeline, .tandemArrayLength, .activityLevel,
      .narrowActivities, .patternsDiscoveryStrategy, .patternsKind, .adjustingMode,
      .undefActivityHandlingStrategy, .eventsCount, .eventClassesRegexes, .eventClassRegex,
      .eventName, .regex, .minEventsInActivity, .underlyingEventsCount, .pnmlUseNamesAsIds,
      .dependencyThreshold, .positiveObservationsThreshold, .relativeToBestThreshold,
      .andThreshold, .loopLengthTwoThreshold, .unaryFrequencyThreshold,
      .binarySignificanceThreshold, .preserveThreshold, .ratioThreshold, .utilityRate,
      .edgeCutoffThreshold, .activitiesReprSource, .distance, .tolerance,
      .minEventsInClustersCount, .afterClusterizationPipeline, .colorsEventLog,
      .eventLogInfo, .petriNet, .graph, .traceActivities, .repeatSets, .patterns,
      .labeledTracesActivitiesDataset, .labeledLogTracesDataset]

end MiningPipelines
