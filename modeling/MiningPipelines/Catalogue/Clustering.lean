import MiningPipelines.Catalogue.Assembly
import MiningPipelines.Catalogue.Schemas

/-!
# Clustering

Activities or traces are grouped by density. A pipeline may run on the log of each cluster
of traces.
-/

namespace MiningPipelines

/-- The options of clustering. -/
structure ClusteringOptions where
  activityLevel : UInt32
  source : ActivitiesRepresentationSource
  distance : Distance
  tolerance : Single
  minEventsInClusters : UInt32
  eventClassRegex : Option String
deriving DecidableEq

def ClusteringOptions.default : ClusteringOptions where
  activityLevel := 0
  source := .eventClasses
  distance := .cosine
  tolerance := .ofMagnitude false (BinaryFormat.single.round 1 100000)
  minEventsInClusters := 1
  eventClassRegex := none

namespace Clustering

open Assembly

/-- The entries of the options. -/
def entries (options : ClusteringOptions) : Except Refusal (List (Key × Value)) := do
  requireThreshold "clustering tolerance" options.tolerance
  let regex ← optionalText "event class regex" .eventClassRegex options.eventClassRegex
  .ok ([(.minEventsInClustersCount, .uint32 options.minEventsInClusters),
    (.tolerance, .float options.tolerance), (.activityLevel, .uint32 options.activityLevel),
    (.activitiesReprSource, .ofEnumeration options.source),
    (.distance, .ofEnumeration options.distance)] ++ regex)

/-- The entries of the options and of a pipeline for each cluster. -/
def tracesEntries (options : ClusteringOptions) (after : Pipeline) :
    Except Refusal (List (Key × Value)) := do
  .ok ((← entries options) ++ [(.afterClusterizationPipeline, .pipeline after)])

/-- Groups activities. -/
def activities (options : ClusteringOptions) : Except Refusal Part := do
  plain .clusterizeActivitiesFromTraces (← entries options)

/-- Groups activities and fetches them with labels. -/
def fetchActivities (options : ClusteringOptions) (tag : Tag) (handler : Handler) :
    Except Refusal Part := do
  fetchAfter .labeledTracesActivitiesDataset .clusterizeActivitiesFromTraces
    (← entries options) tag handler

/-- Groups traces and runs a pipeline on each group. -/
def traces (options : ClusteringOptions) (after : Pipeline) : Except Refusal Part := do
  plain .clusterizeLogTraces (← tracesEntries options after)

/-- Groups traces, runs a pipeline on each group, and fetches the traces with labels. -/
def fetchTraces (options : ClusteringOptions) (after : Pipeline) (tag : Tag)
    (handler : Handler) : Except Refusal Part := do
  fetchAfter .labeledLogTracesDataset .clusterizeLogTraces (← tracesEntries options after)
    tag handler

end Clustering

end MiningPipelines
