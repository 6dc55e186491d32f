import MiningPipelines.Catalogue.Patterns

/-!
# Discovering activities

Activities are discovered from patterns, level by level or until none are left, and the
log is rebuilt from them. Some operations run a pipeline of their own.
-/

namespace MiningPipelines

/-- The options of the operations that discover activities step by step. -/
structure DiscoveryOptions where
  narrowActivities : NarrowActivityKind
  activityLevel : UInt32
  strategy : PatternsDiscoveryStrategy
  maxArrayLength : UInt32
  adjustingMode : AdjustingMode
  minEventsInUnattachedSubTrace : UInt32
  minEventsInActivity : UInt32
  patternsKind : PatternsKind
deriving DecidableEq

def DiscoveryOptions.default : DiscoveryOptions where
  narrowActivities := .narrowDown
  activityLevel := 0
  strategy := .fromAllTraces
  maxArrayLength := 20
  adjustingMode := .fromAllLog
  minEventsInUnattachedSubTrace := 0
  minEventsInActivity := 0
  patternsKind := .maximalRepeats

namespace Activities

open Assembly

/-- Turns patterns into activities. -/
def discover (activityLevel : UInt32) : Except Refusal Part :=
  plain .discoverActivities [(.activityLevel, .uint32 activityLevel)]

/-- The entries of the discovery of instances. -/
def instanceEntries (narrow : NarrowActivityKind) (minEvents : UInt32) :
    List (Key × Value) :=
  [(.narrowActivities, .ofEnumeration narrow), (.minEventsInActivity, .uint32 minEvents)]

/-- Finds the instances of activities. -/
def discoverInstances (narrow : NarrowActivityKind) (minEvents : UInt32) :
    Except Refusal Part :=
  plain .discoverActivitiesInstances (instanceEntries narrow minEvents)

/-- Rebuilds the log from instances of activities. -/
def createLog (strategy : UndefActivityHandlingStrategy) : Except Refusal Part :=
  plain .createLogFromActivities [(.undefActivityHandlingStrategy, .ofEnumeration strategy)]

/-- Refuses a list with a regex of blanks. -/
def requireRegexes : List String → Except Refusal Unit
  | [] => .ok ()
  | regex :: rest => do
    requireText "event class regex" regex
    requireRegexes rest

/-- What both operations that go step by step are told, after the narrowing and what
stands behind it. -/
def stepEntries (options : DiscoveryOptions) : List (Key × Value) :=
  [(.adjustingMode, .ofEnumeration options.adjustingMode),
    (.activityLevel, .uint32 options.activityLevel),
    (.eventsCount, .uint32 options.minEventsInUnattachedSubTrace),
    (.patternsKind, .ofEnumeration options.patternsKind),
    (.patternsDiscoveryStrategy, .ofEnumeration options.strategy),
    (.minEventsInActivity, .uint32 options.minEventsInActivity)]

/-- Discovers activities once for each regex of event classes, at least one. -/
def discoverForSeveralLevels (eventClasses : List String) (options : DiscoveryOptions) :
    Except Refusal Part := do
  if eventClasses.isEmpty then throw .noEventClasses
  requireRegexes eventClasses
  plain .discoverActivitiesForSeveralLevels
    ([(.narrowActivities, .ofEnumeration options.narrowActivities),
      (.eventClassesRegexes, .strings eventClasses)] ++ stepEntries options)

/-- Finds patterns and turns them into activities, in a pipeline of its own. -/
def discoverFromPatterns (kind : PatternsKind) (strategy : PatternsDiscoveryStrategy)
    (maxArrayLength activityLevel : UInt32) : Except Refusal Part := do
  let options :=
    if kind.isTandem then PatternsOptions.ofLength maxArrayLength
    else PatternsOptions.ofStrategy strategy
  let find ← Patterns.find kind options
  let discover ← discover activityLevel
  plain .discoverActivitiesFromPatterns [(.pipeline, .pipeline [find, discover])]

/-- Discovers activities and rebuilds the log until no new activity appears. -/
def discoverUntilNoMore (eventClass : Option String)
    (undefStrategy : UndefActivityHandlingStrategy) (options : DiscoveryOptions) :
    Except Refusal Part := do
  let regex ← optionalText "event class regex" .eventClassRegex eventClass
  plain .discoverActivitiesUntilNoMore
    ([(.narrowActivities, .ofEnumeration options.narrowActivities)] ++ stepEntries options ++
      [(.undefActivityHandlingStrategy, .ofEnumeration undefStrategy)] ++ regex)

/-- Runs a pipeline on the log of each activity. -/
def executeWithEach (activityLevel : UInt32) (pipeline : Pipeline) : Except Refusal Part :=
  plain .executeWithEachActivityLog
    [(.pipeline, .pipeline pipeline), (.activityLevel, .uint32 activityLevel)]

/-- Puts the events of activities in their place. -/
def substituteUnderlyingEvents : Except Refusal Part := plain .substituteUnderlyingEvents []

/-- Forgets the activities. -/
def clear : Except Refusal Part := plain .clearActivities []

/-- Fetches the number of events under activities. -/
def fetchUnderlyingEventsCount (tag : Tag) (handler : Handler) : Except Refusal Part :=
  fetchAfter .underlyingEventsCount .getUnderlyingEventsCount [] tag handler

/-- Finds the instances of activities and fetches them. -/
def fetchInstances (narrow : NarrowActivityKind) (minEvents : UInt32) (tag : Tag)
    (handler : Handler) : Except Refusal Part :=
  fetchAfter .traceActivities .discoverActivitiesInstances (instanceEntries narrow minEvents)
    tag handler

end Activities

end MiningPipelines
