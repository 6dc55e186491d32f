import MiningPipelines.Schema

/-!
# The operations of the engine

Each operation has a name and the keys that it accepts. `SchemaTable.builtin` holds all of
them.
-/

namespace MiningPipelines

namespace Schema

/-! ## Event logs -/

def readLogFromXes : Schema := ⟨"ReadLogFromXes", []⟩
def writeLogToXes : Schema := ⟨"WriteLogToXes", [.path]⟩
def useNamesEventLog : Schema := ⟨"UseNamesEventLog", []⟩
def getNamesEventLog : Schema := ⟨"GetNamesEventLog", []⟩
def getHashesEventLog : Schema := ⟨"GetHashesEventLog", []⟩
def getEventLogInfo : Schema := ⟨"GetEventLogInfo", []⟩
def filterTracesByEventsCount : Schema := ⟨"FilterTracesByEventsCount", [.eventsCount]⟩
def filterEventsByName : Schema := ⟨"FilterEventsByName", [.eventName]⟩
def filterEventsByRegex : Schema := ⟨"FilterEventsByRegex", [.regex]⟩
def filterLogByVariants : Schema := ⟨"FilterLogByVariants", []⟩
def addStartEndArtificialEvents : Schema := ⟨"AddStartEndArtificialEvents", []⟩
def addStartArtificialEvents : Schema := ⟨"AddStartArtificialEvents", []⟩
def addEndArtificialEvents : Schema := ⟨"AddEndArtificialEvents", []⟩

def eventLogs : List Schema :=
  [readLogFromXes, writeLogToXes, useNamesEventLog, getNamesEventLog, getHashesEventLog,
    getEventLogInfo, filterTracesByEventsCount, filterEventsByName, filterEventsByRegex,
    filterLogByVariants, addStartEndArtificialEvents, addStartArtificialEvents,
    addEndArtificialEvents]

/-! ## Patterns -/

def repeatKeys : List Key := [.patternsDiscoveryStrategy, .eventClassRegex]

def findPrimitiveTandemArrays : Schema := ⟨"FindPrimitiveTandemArrays", [.tandemArrayLength]⟩
def findMaximalTandemArrays : Schema := ⟨"FindMaximalTandemArrays", [.tandemArrayLength]⟩
def findMaximalRepeats : Schema := ⟨"FindMaximalRepeats", repeatKeys⟩
def findSuperMaximalRepeats : Schema := ⟨"FindSuperMaximalRepeats", repeatKeys⟩
def findNearSuperMaximalRepeats : Schema := ⟨"FindNearSuperMaximalRepeats", repeatKeys⟩

def patterns : List Schema :=
  [findPrimitiveTandemArrays, findMaximalTandemArrays, findMaximalRepeats,
    findSuperMaximalRepeats, findNearSuperMaximalRepeats]

/-! ## Activities -/

/-- The keys of the operations that discover activities step by step. -/
def iterativeKeys : List Key :=
  [.narrowActivities, .eventClassesRegexes, .eventClassRegex, .adjustingMode,
    .activityLevel, .eventsCount, .patternsKind, .patternsDiscoveryStrategy,
    .minEventsInActivity, .undefActivityHandlingStrategy]

def discoverActivities : Schema := ⟨"DiscoverActivities", [.activityLevel]⟩
def discoverActivitiesInstances : Schema :=
  ⟨"DiscoverActivitiesInstances", [.narrowActivities, .minEventsInActivity]⟩
def createLogFromActivities : Schema :=
  ⟨"CreateLogFromActivities", [.undefActivityHandlingStrategy]⟩
def discoverActivitiesForSeveralLevels : Schema :=
  ⟨"DiscoverActivitiesForSeveralLevels", iterativeKeys⟩
def discoverActivitiesFromPatterns : Schema := ⟨"DiscoverActivitiesFromPatterns", [.pipeline]⟩
def discoverActivitiesUntilNoMore : Schema :=
  ⟨"DiscoverActivitiesUntilNoMore", iterativeKeys⟩
def executeWithEachActivityLog : Schema :=
  ⟨"ExecuteWithEachActivityLog", [.pipeline, .activityLevel]⟩
def substituteUnderlyingEvents : Schema := ⟨"SubstituteUnderlyingEvents", []⟩
def clearActivities : Schema := ⟨"ClearActivities", []⟩
def getUnderlyingEventsCount : Schema := ⟨"GetUnderlyingEventsCount", []⟩

def activities : List Schema :=
  [discoverActivities, discoverActivitiesInstances, createLogFromActivities,
    discoverActivitiesForSeveralLevels, discoverActivitiesFromPatterns,
    discoverActivitiesUntilNoMore, executeWithEachActivityLog, substituteUnderlyingEvents,
    clearActivities, getUnderlyingEventsCount]

/-! ## Clustering -/

def clusteringKeys : List Key :=
  [.minEventsInClustersCount, .tolerance, .activityLevel, .activitiesReprSource, .distance,
    .eventClassRegex]

def clusterizeActivitiesFromTraces : Schema :=
  ⟨"ClusterizeActivitiesFromTracesDbscan", clusteringKeys⟩
def clusterizeLogTraces : Schema :=
  ⟨"ClusterizeLogTracesDbscan", clusteringKeys ++ [.afterClusterizationPipeline]⟩

def clustering : List Schema := [clusterizeActivitiesFromTraces, clusterizeLogTraces]

/-! ## Models -/

def discoverPetriNetAlpha : Schema := ⟨"DiscoverPetriNetAlpha", []⟩
def discoverPetriNetAlphaPlus : Schema := ⟨"DiscoverPetriNetAlphaPlus", []⟩
def discoverPetriNetAlphaPlusPlus : Schema := ⟨"DiscoverPetriNetAlphaPlusPlus", []⟩
def discoverPetriNetAlphaPlusPlusNfc : Schema := ⟨"DiscoverPetriNetAlphaPlusPlusNfc", []⟩
def discoverPetriNetHeuristic : Schema :=
  ⟨"DiscoverPetriNetHeuristic", [.dependencyThreshold, .positiveObservationsThreshold,
    .relativeToBestThreshold, .andThreshold, .loopLengthTwoThreshold]⟩
def serializePetriNetToPnml : Schema :=
  ⟨"SerializePetriNetToPNML", [.path, .pnmlUseNamesAsIds]⟩
def discoverFuzzyGraph : Schema :=
  ⟨"DiscoverFuzzyGraph", [.unaryFrequencyThreshold, .binarySignificanceThreshold,
    .preserveThreshold, .ratioThreshold, .utilityRate, .edgeCutoffThreshold]⟩
def discoverDirectlyFollowsGraph : Schema := ⟨"DiscoverDirectlyFollowsGraph", []⟩

def models : List Schema :=
  [discoverPetriNetAlpha, discoverPetriNetAlphaPlus, discoverPetriNetAlphaPlusPlus,
    discoverPetriNetAlphaPlusPlusNfc, discoverPetriNetHeuristic, serializePetriNetToPnml,
    discoverFuzzyGraph, discoverDirectlyFollowsGraph]

/-! ## Diagrams -/

def tracesDiversityDiagram : Schema := ⟨"TracesDiversityDiagram", []⟩
def drawPlacementOfEventByName : Schema := ⟨"DrawPlacementOfEventByName", [.eventName]⟩
def drawPlacementOfEventsByRegex : Schema := ⟨"DrawPlacementOfEventsByRegex", [.regex]⟩
def drawFullActivitiesDiagram : Schema := ⟨"DrawFullActivitiesDiagram", []⟩
def drawShortActivitiesDiagram : Schema := ⟨"DrawShortActivitiesDiagram", []⟩

def diagrams : List Schema :=
  [tracesDiversityDiagram, drawPlacementOfEventByName, drawPlacementOfEventsByRegex,
    drawFullActivitiesDiagram, drawShortActivitiesDiagram]

end Schema

/-- The operations that every engine knows. -/
def SchemaTable.builtin : SchemaTable :=
  .ofList (Schema.eventLogs ++ Schema.patterns ++ Schema.activities ++ Schema.clustering ++
    Schema.models ++ Schema.diagrams)

end MiningPipelines
