import MiningPipelines.Catalogue.Activities
import MiningPipelines.Catalogue.Clustering
import MiningPipelines.Catalogue.Models
import MiningPipelines.Json.Record

/-!
# Options in JSON

The options of the catalogue can be given as documents. An absent option keeps its
default. JSON has no NaN and no infinity, so a number may also be one of three names.
-/

namespace MiningPipelines

/-- Reads a number, in double precision and then rounded, or the name of one. -/
def Single.ofDocument? : Document → Option Single
  | .text "nan" => some .nan
  | .text "inf" => some .infinity
  | .text "-inf" => some .negInfinity
  | .number (.natural n) => some (Double.ofNat n.toNat).toSingle
  | .number (.negative n) =>
    some (Double.ofMagnitude true (BinaryFormat.double.round n.toInt.natAbs 1)).toSingle
  | .number (.real x) => some x.toSingle
  | _ => none

/-- Reads a choice by its name. -/
def Enumeration.ofDocument? {α : Type} [Enumeration α] (d : Document) : Option α :=
  d.text?.bind ofName?

def DiscoveryOptions.ofDocument? (d : Document) : Option DiscoveryOptions := do
  let r ← d.record? ["narrow_activities", "activity_level", "strategy", "max_array_length",
    "adjusting_mode", "min_events_in_unattached_subtrace_count",
    "min_events_in_activity_count", "patterns_kind"]
  let narrow ← r.orElse "narrow_activities" default.narrowActivities Enumeration.ofDocument?
  let level ← r.orElse "activity_level" default.activityLevel Document.uint32?
  let strategy ← r.orElse "strategy" default.strategy Enumeration.ofDocument?
  let length ← r.orElse "max_array_length" default.maxArrayLength Document.uint32?
  let adjusting ← r.orElse "adjusting_mode" default.adjustingMode Enumeration.ofDocument?
  let unattached ← r.orElse "min_events_in_unattached_subtrace_count"
    default.minEventsInUnattachedSubTrace Document.uint32?
  let minEvents ← r.orElse "min_events_in_activity_count" default.minEventsInActivity
    Document.uint32?
  let kind ← r.orElse "patterns_kind" default.patternsKind Enumeration.ofDocument?
  some ⟨narrow, level, strategy, length, adjusting, unattached, minEvents, kind⟩

def ClusteringOptions.ofDocument? (d : Document) : Option ClusteringOptions := do
  let r ← d.record? ["activity_level", "activities_repr_source", "distance", "tolerance",
    "min_events_in_clusters_count", "event_class_regex"]
  let level ← r.orElse "activity_level" default.activityLevel Document.uint32?
  let source ← r.orElse "activities_repr_source" default.source Enumeration.ofDocument?
  let distance ← r.orElse "distance" default.distance Enumeration.ofDocument?
  let tolerance ← r.orElse "tolerance" default.tolerance Single.ofDocument?
  let minEvents ← r.orElse "min_events_in_clusters_count" default.minEventsInClusters
    Document.uint32?
  let regex ← r.slot "event_class_regex" Document.text?
  some ⟨level, source, distance, tolerance, minEvents, regex⟩

def HeuristicThresholds.ofDocument? (d : Document) : Option HeuristicThresholds := do
  let r ← d.record? ["dependency_threshold", "positive_observations_threshold",
    "relative_to_best_threshold", "and_threshold", "loop_length_two_threshold"]
  let dependency ← r.orElse "dependency_threshold" default.dependency Single.ofDocument?
  let observations ← r.orElse "positive_observations_threshold" default.positiveObservations
    Document.uint32?
  let relative ← r.orElse "relative_to_best_threshold" default.relativeToBest
    Single.ofDocument?
  let parallelism ← r.orElse "and_threshold" default.parallelism Single.ofDocument?
  let loop ← r.orElse "loop_length_two_threshold" default.loopLengthTwo Single.ofDocument?
  some ⟨dependency, observations, relative, parallelism, loop⟩

def FuzzyThresholds.ofDocument? (d : Document) : Option FuzzyThresholds := do
  let r ← d.record? ["unary_frequency_threshold", "binary_significance_threshold",
    "preserve_threshold", "ratio_threshold", "utility_rate", "edge_cutoff_threshold"]
  let unary ← r.orElse "unary_frequency_threshold" default.unaryFrequency Single.ofDocument?
  let binary ← r.orElse "binary_significance_threshold" default.binarySignificance
    Single.ofDocument?
  let preserve ← r.orElse "preserve_threshold" default.preserve Single.ofDocument?
  let ratio ← r.orElse "ratio_threshold" default.ratio Single.ofDocument?
  let utility ← r.orElse "utility_rate" default.utilityRate Single.ofDocument?
  let cutoff ← r.orElse "edge_cutoff_threshold" default.edgeCutoff Single.ofDocument?
  some ⟨unary, binary, preserve, ratio, utility, cutoff⟩

def PatternsOptions.ofDocument? (d : Document) : Option PatternsOptions := do
  let r ← d.record? ["max_array_length", "strategy", "event_class_regex"]
  let length ← r.slot "max_array_length" Document.uint32?
  let strategy ← r.slot "strategy" Enumeration.ofDocument?
  let regex ← r.slot "event_class_regex" Document.text?
  some ⟨length, strategy, regex⟩

end MiningPipelines
